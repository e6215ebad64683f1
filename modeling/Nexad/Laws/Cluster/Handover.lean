import Nexad.Laws.Cluster.Placement

/-!
# Handing over the pods of a dead node

A pass of the monitor remembers nothing: it hands over the pods of every
worker that it finds dead, whatever an earlier pass did. The write that marks
the node comes at 30 s, the handover at 60 s, so the status is no guard. What
a pass keeps to is once for each worker, and the threshold
(`handed_over_once_a_pass`).
-/

namespace Nexad.Cluster

open Interleave

variable {D : Domain} {sha256 : List UInt8 → List UInt8} {server : ClusterServer}

/-- The node whose pods a call hands over. -/
def handover : ClusterCall D → Option Uuid
  | ⟨.reschedule id _, _⟩ => some id
  | _ => none

/-! ## Ages -/

/-- The threshold is reached when the clock has gone that far past the last heartbeat. -/
theorem le_elapsed_iff {threshold : Int} (hpos : 0 < threshold) {now : DateTime} {n : Node} :
    threshold ≤ elapsed now n ↔ threshold ≤ now - n.lastHeartbeat := by
  unfold elapsed
  rw [le_max_iff]
  exact or_iff_right (Int.not_le.mpr hpos)

/-! ## One pass -/

/-- What a pass does with the nodes it has listed. -/
inductive PassOp (now : DateTime) (nodes : List Node) : Op D → Prop
  | write {n : Node} (listed : n ∈ nodes) :
      PassOp now nodes (.store (.updateNode { n with status := .notReady }))
  | pods : PassOp now nodes (.store (.listPods none))
  | handover {n : Node} {pods : List (Pod D)} (listed : n ∈ nodes)
      (dead : deadThreshold ≤ elapsed now n) : PassOp now nodes (.reschedule n.id pods)

theorem collectPods_passOp {now : DateTime} {nodes : List Node} {node : Node} {rest : Code D}
    (hnode : node ∈ nodes) (hdead : deadThreshold ≤ elapsed now node)
    (hrest : rest.Every (PassOp now nodes)) :
    (collectPods D node rest).Every (PassOp now nodes) := by
  refine ⟨.pods, fun found => ?_⟩
  match found with
  | .error _ => exact trivial
  | .ok pods =>
    dsimp only
    split
    · exact hrest
    · exact ⟨.handover hnode hdead, fun _ => hrest⟩

theorem checkEach_passOp (now : DateTime) {nodes left : List Node} (hleft : ∀ n ∈ left, n ∈ nodes) :
    (checkEach D now left).Every (PassOp now nodes) := by
  refine checkEach_rule trivial (fun node hnode _ rest hrest => ?_) fun node hnode hdead rest hrest => ?_
  · exact ⟨.write (hleft node hnode), fun _ => hrest⟩
  · exact collectPods_passOp (hleft node hnode) hdead hrest

/-- The pods that are on a node. -/
def podsOn (id : Uuid) (pods : List (Pod D)) : List (Pod D) :=
  pods.filter fun p => p.nodeId = some id

/-- Whatever was handed over was found on its node by one of the calls. -/
def HandsFound (calls : List (ClusterCall D)) : Prop :=
  ∀ id pods, ⟨.reschedule id pods, ()⟩ ∈ calls →
    ∃ found, ⟨.store (.listPods none), .ok found⟩ ∈ calls ∧ pods = podsOn id found

/-- The pods of the node were listed, and handed over if there were any. -/
def HandedOver (id : Uuid) (calls : List (ClusterCall D)) : Prop :=
  ∃ found, ⟨.store (.listPods none), .ok found⟩ ∈ calls ∧
    (podsOn id found ≠ [] → ⟨.reschedule id (podsOn id found), ()⟩ ∈ calls)

theorem HandsFound.append {calls calls' : List (ClusterCall D)} (h : HandsFound calls)
    (h' : HandsFound calls') : HandsFound (calls ++ calls') := by
  intro id pods hmem
  rcases List.mem_append.mp hmem with hmem | hmem
  · obtain ⟨found, hfound, hpods⟩ := h id pods hmem
    exact ⟨found, List.mem_append_left _ hfound, hpods⟩
  · obtain ⟨found, hfound, hpods⟩ := h' id pods hmem
    exact ⟨found, List.mem_append_right _ hfound, hpods⟩

theorem HandedOver.mono {id : Uuid} {calls calls' : List (ClusterCall D)} (h : HandedOver id calls)
    (hsub : calls ⊆ calls') : HandedOver id calls' := by
  obtain ⟨found, hfound, hpods⟩ := h
  exact ⟨found, hsub hfound, fun hne => hsub (hpods hne)⟩

/-- The calls of a pass from a listing on, and what is left of it: no node is
handed over twice, and at the end every dead worker has been. -/
structure Passed (now : DateTime) (nodes : List Node) (calls : List (ClusterCall D)) (q : Code D) :
    Prop where
  once : (calls.filterMap handover).Sublist (nodes.map Node.id)
  found : HandsFound calls
  ended : q = .ret (.pass (.ok ())) → ∀ node ∈ nodes, node.role ≠ .master →
    deadThreshold ≤ elapsed now node → HandedOver node.id calls

/-- A pass that ends before it is through. -/
theorem Passed.cut {now : DateTime} {nodes : List Node} {calls : List (ClusterCall D)} {q : Code D}
    (hnone : calls.filterMap handover = []) (hq : q ≠ .ret (.pass (.ok ()))) :
    Passed now nodes calls q where
  once := by
    rw [hnone]
    exact List.nil_sublist _
  found := by
    intro id pods hmem
    have hsome : id ∈ calls.filterMap handover := List.mem_filterMap.mpr ⟨_, hmem, rfl⟩
    rw [hnone] at hsome
    cases hsome
  ended := fun h => absurd h hq

/-- A pass that has yet to make a call is not through. -/
theorem Passed.waits {now : DateTime} {nodes : List Node} {calls : List (ClusterCall D)}
    (hnone : calls.filterMap handover = []) (op : Op D)
    (k : (clusterSig D).Ans op → Code D) : Passed now nodes calls (.call op k) := by
  refine .cut hnone fun hq => ?_
  cases hq

/-- One more call in front that hands nothing over. -/
theorem Passed.cons {now : DateTime} {nodes : List Node} {calls : List (ClusterCall D)} {q : Code D}
    (h : Passed now nodes calls q) (call : ClusterCall D) (hcall : handover call = none) :
    Passed now nodes (call :: calls) q where
  once := by
    rw [List.filterMap_cons_none hcall]
    exact h.once
  found := by
    have hnone : HandsFound [call] := fun id pods hmem => by
      rw [← List.mem_singleton.mp hmem] at hcall
      cases hcall
    exact hnone.append h.found
  ended := fun hq node hnode hrole hdead =>
    (h.ended hq node hnode hrole hdead).mono (List.subset_cons_self _ _)

/-- One more node in front that needs nothing. -/
theorem Passed.skip {now : DateTime} {node : Node} {nodes : List Node}
    {calls : List (ClusterCall D)} {q : Code D} (h : Passed now nodes calls q)
    (hskip : node.role = .master ∨ ¬ deadThreshold ≤ elapsed now node) :
    Passed now (node :: nodes) calls q where
  once := h.once.cons _
  found := h.found
  ended := by
    intro hq n hn hrole hdead
    rcases List.mem_cons.mp hn with rfl | hn
    · rcases hskip with hmaster | halive
      · exact absurd hmaster hrole
      · exact absurd hdead halive
    · exact h.ended hq n hn hrole hdead

theorem collectPods_passed {now : DateTime} {node : Node} {nodes : List Node} {rest q : Code D}
    {calls : List (ClusterCall D)} (h : (collectPods D node rest).Path calls q)
    (hrest : ∀ calls, rest.Path calls q → Passed now nodes calls q) :
    Passed now (node :: nodes) calls q := by
  unfold collectPods ask at h
  cases h with
  | refl => exact .waits rfl _ _
  | call found h =>
    match found with
    | .error e =>
      cases h
      exact .cut rfl nofun
    | .ok pods =>
      dsimp only at h
      split at h
      · next hnone =>
        have hpassed := (hrest _ h).cons ⟨.store (.listPods none), .ok pods⟩ rfl
        refine ⟨hpassed.once.cons _, hpassed.found, fun hq n hn hrole hdead => ?_⟩
        rcases List.mem_cons.mp hn with rfl | hn
        · exact ⟨pods, List.mem_cons_self, fun hne => absurd (List.isEmpty_iff.mp hnone) hne⟩
        · exact hpassed.ended hq n hn hrole hdead
      · cases h with
        | refl => exact .waits rfl _ _
        | @call _ _ _ calls' ans h =>
          have hpassed := hrest _ h
          refine ⟨hpassed.once.cons_cons _, ?_, fun hq n hn hrole hdead => ?_⟩
          · have hfound : HandsFound [⟨.store (.listPods none), .ok pods⟩,
                ⟨.reschedule node.id (podsOn node.id pods), ()⟩] := by
              intro id handed hmem
              rcases List.mem_cons.mp hmem with heq | hmem
              · cases heq
              · cases List.mem_singleton.mp hmem
                exact ⟨pods, List.mem_cons_self, rfl⟩
            exact hfound.append hpassed.found
          · rcases List.mem_cons.mp hn with rfl | hn
            · exact ⟨pods, List.mem_cons_self, fun _ => List.mem_cons_of_mem _ List.mem_cons_self⟩
            · exact (hpassed.ended hq n hn hrole hdead).mono fun c hc =>
                List.mem_cons_of_mem _ (List.mem_cons_of_mem _ hc)

theorem checkEach_passed (now : DateTime) (nodes : List Node) {calls : List (ClusterCall D)}
    {q : Code D} (h : (checkEach D now nodes).Path calls q) : Passed now nodes calls q := by
  induction nodes generalizing calls with
  | nil =>
    cases h
    exact ⟨List.nil_sublist _, fun _ _ hmem => absurd hmem List.not_mem_nil,
      fun _ _ hmem => absurd hmem List.not_mem_nil⟩
  | cons node rest ih =>
    have hcollect : ∀ {calls}, (collectPods D node (checkEach D now rest)).Path calls q →
        Passed now (node :: rest) calls q := fun h => collectPods_passed h fun _ => ih
    unfold checkEach at h
    split at h
    · next hmaster => exact (ih h).skip (.inl hmaster)
    · split at h
      · split at h
        · cases h with
          | refl => exact .waits rfl _ _
          | call ans h => exact (hcollect h).cons _ rfl
        · exact hcollect h
      · next halive =>
        split at h
        · cases h with
          | refl => exact .waits rfl _ _
          | call ans h => exact ((ih h).skip (.inr halive)).cons _ rfl
        · exact (ih h).skip (.inr halive)

/-- A pass lists the nodes, reads the clock and goes through the list. -/
theorem checkNodes_path {calls : List (ClusterCall D)} {q : Code D}
    (h : (checkNodes D).Path calls q) :
    ((∀ c ∈ calls, ∃ ans, c = ⟨.store .listNodes, ans⟩) ∧
        (∀ n cont, q ≠ ask (.updateNode n) cont) ∧ q ≠ .ret (.pass (.ok ()))) ∨
      ∃ nodes now calls', calls = ⟨.store .listNodes, .ok nodes⟩ :: ⟨.now, now⟩ :: calls' ∧
        (checkEach D now nodes).Path calls' q := by
  unfold checkNodes ask at h
  cases h with
  | refl => exact .inl ⟨fun c hc => absurd hc List.not_mem_nil, nofun, nofun⟩
  | call found h =>
    match found with
    | .error e =>
      cases h
      exact .inl ⟨fun c hc => ⟨_, List.mem_singleton.mp hc⟩, nofun, nofun⟩
    | .ok nodes =>
      cases h with
      | refl => exact .inl ⟨fun c hc => ⟨_, List.mem_singleton.mp hc⟩, nofun, nofun⟩
      | call now h => exact .inr ⟨nodes, now, _, rfl, h⟩

/-! ## Runs of passes -/

/-- A node but for its status. -/
def unmarked (n : Node) : Node := { n with status := .ready }

/-- The monitor judges two such nodes alike. -/
theorem of_unmarked_eq {n n' : Node} (h : unmarked n = unmarked n') :
    n.id = n'.id ∧ n.role = n'.role ∧ ∀ now, elapsed now n = elapsed now n' := by
  have hlast : n.lastHeartbeat = n'.lastHeartbeat := (congrArg Node.lastHeartbeat h :)
  refine ⟨(congrArg Node.id h :), (congrArg Node.role h :), fun now => ?_⟩
  unfold elapsed
  rw [hlast]

theorem map_id_unmarked (nodes : List Node) :
    (nodes.map unmarked).map Node.id = nodes.map Node.id := by
  rw [List.map_map]
  rfl

/-- Passes change nothing but the status of nodes, and hear of nothing else. -/
structure Unmoved (s₀ : Shared D) (l : MasterHistory D) (s : Shared D) : Prop where
  pods : s.pods = s₀.pods
  nodes : s.nodes.rows.map unmarked = s₀.nodes.rows.map unmarked
  listed : ∀ s' k req nodes, (s', .call k req (.store .listNodes) (.ok nodes)) ∈ l →
    (nodes.map unmarked).Perm (s₀.nodes.rows.map unmarked)
  found : ∀ s' k req pods, (s', .call k req (.store (.listPods none)) (.ok pods)) ∈ l →
    pods = s₀.pods

/-- An answer tells of the nodes and the pods that there are. -/
theorem Unmoved.answered {s₀ s s' : Shared D} {l : MasterHistory D} (h : Unmoved s₀ l s)
    {op : Op D} {ans : op.Ans D} (hans : Answered s op ans s') (k : Nat) (req : Request)
    (hnodes : s'.nodes.rows.map unmarked = s₀.nodes.rows.map unmarked) :
    Unmoved s₀ ((s, .call k req op ans) :: l) s' where
  pods := (Answered.pods hans).trans h.pods
  nodes := hnodes
  listed := by
    intro s₁ j req' nodes hmem
    rcases List.mem_cons.mp hmem with heq | hmem
    · cases heq
      rw [← h.nodes, Answered.listNodes hans]
      exact (List.mergeSort_perm _ _).map _
    · exact h.listed s₁ j req' nodes hmem
  found := by
    intro s₁ j req' pods hmem
    rcases List.mem_cons.mp hmem with heq | hmem
    · cases heq
      exact (Answered.listPods hans).trans h.pods
    · exact h.found s₁ j req' pods hmem

/-- A step that is not a call and leaves nodes and pods alone. -/
theorem Unmoved.quiet {s₀ s s' : Shared D} {l : MasterHistory D} (h : Unmoved s₀ l s)
    {e : Event (clusterSig D) Request} (he : ∀ k req op ans, e ≠ .call k req op ans)
    (hpods : s'.pods = s.pods) (hnodes : s'.nodes = s.nodes) : Unmoved s₀ ((s, e) :: l) s' where
  pods := hpods.trans h.pods
  nodes := by
    rw [hnodes]
    exact h.nodes
  listed := by
    intro s₁ j req nodes hmem
    rcases List.mem_cons.mp hmem with heq | hmem
    · exact absurd (Prod.mk.inj heq).2.symm (he _ _ _ _)
    · exact h.listed s₁ j req nodes hmem
  found := by
    intro s₁ j req pods hmem
    rcases List.mem_cons.mp hmem with heq | hmem
    · exact absurd (Prod.mk.inj heq).2.symm (he _ _ _ _)
    · exact h.found s₁ j req pods hmem

/-- Marking a node that was listed leaves every node as it was but for its
status. -/
theorem Unmoved.marked {s₀ s : Shared D} {l : MasterHistory D} (h : Unmoved s₀ l s) {m : Node}
    (hm : unmarked m ∈ s₀.nodes.rows.map unmarked) :
    (s.nodes.rows.map (NodeTable.written { m with status := .notReady })).map unmarked =
      s₀.nodes.rows.map unmarked := by
  rw [← h.nodes, List.map_map]
  refine List.map_congr_left fun r hr => ?_
  have hids : ((s₀.nodes.rows.map unmarked).map Node.id).Nodup := by
    rw [map_id_unmarked]
    exact s₀.nodes.ids
  have hr₀ : unmarked r ∈ s₀.nodes.rows.map unmarked := by
    rw [← h.nodes]
    exact List.mem_map.mpr ⟨r, hr, rfl⟩
  unfold Function.comp NodeTable.written
  split
  · next hid =>
    have hsame : unmarked r = unmarked m := List.inj_on_of_nodup_map hids hr₀ hm hid
    have hjoined : unmarked { m with joinedAt := r.joinedAt } = { unmarked m with joinedAt := r.joinedAt } :=
      rfl
    calc unmarked { m with status := .notReady, joinedAt := r.joinedAt }
        = { unmarked m with joinedAt := r.joinedAt } := hjoined
      _ = { unmarked r with joinedAt := r.joinedAt } := by rw [hsame]
      _ = unmarked r := rfl
  · rfl

section Run

variable {s₀ : Shared D} {l : MasterHistory D} {p : MasterPool D}

/-- The monitor by itself: only passes arrive. -/
def monitor (D : Domain) (sha256 : List UInt8 → List UInt8) (server : ClusterServer) :
    Machine (clusterSig D) (Shared D) Request Reply :=
  master D sha256 server fun req => req = .checkNodes

/-- Every run of passes leaves nodes and pods unmoved. -/
theorem unmoved (hrun : Run (monitor D sha256 server) (.idle s₀) l p) : Unmoved s₀ l p.state := by
  refine Run.induct (I := fun l p => Unmoved s₀ l p.state) ⟨rfl, rfl, nofun, nofun⟩
    (fun l p e p' hrun hbefore hstep => ?_) hrun
  cases hstep with
  | arrive => exact hbefore.quiet (fun _ _ _ _ he => by cases he) rfl rfl
  | env moves =>
    cases moves
    exact hbefore.quiet (fun _ _ _ _ he => by cases he) rfl rfl
  | @call k req op cont ans s' at_call answered =>
    have hmem := List.mem_cons_self (a := (p.state, Event.call k req op ans)) (l := l)
    obtain ⟨rfl, hmakes⟩ := Run.makes (hrun.cons (.call at_call answered)) hmem
    show Unmoved s₀ _ s'
    refine hbefore.answered answered k .checkNodes ?_
    cases Answered.nodes answered with
    | same kept =>
      rw [kept]
      exact hbefore.nodes
    | insert => cases hmakes
    | delete => cases hmakes
    | @update n done =>
      rw [(NodeTable.update_ok done).2]
      rcases checkNodes_path (hrun.path at_call) with ⟨-, hno, -⟩ | hpast
      · exact absurd rfl (hno n cont)
      · obtain ⟨nodes, now, calls, hcalls, hpath⟩ := hpast
        have hlisted : (⟨.store .listNodes, .ok nodes⟩ : ClusterCall D) ∈ l.calls k :=
          hcalls ▸ List.mem_cons_self
        obtain ⟨s₁, req', hheard⟩ := History.mem_calls.mp hlisted
        cases (hpath.every (checkEach_passOp now fun _ h => h)).2.1 with
        | @write m hm =>
          refine hbefore.marked ((hbefore.listed _ _ _ _ hheard).subset ?_)
          exact List.mem_map.mpr ⟨m, hm, rfl⟩

/-- However passes interleave, a pass hands over a worker's pods at most once,
and only when it finds the worker dead; one that ends well and finds it dead
has handed them over. -/
theorem handed_over_once_a_pass (hrun : Run (monitor D sha256 server) (.idle s₀) l p) {k : Nat}
    {q : Code D} (hk : p.thread k = some (.checkNodes, q)) {w : Node} (hw : w ∈ s₀.nodes.rows)
    (hworker : w.role ≠ .master) :
    ((l.calls k).filterMap handover).Nodup ∧
    (∀ pods, (⟨.reschedule w.id pods, ()⟩ : ClusterCall D) ∈ l.calls k →
      pods = podsOn w.id s₀.pods ∧ ∃ now : DateTime, (⟨.now, now⟩ : ClusterCall D) ∈ l.calls k ∧
        60_000_000_000 ≤ now - w.lastHeartbeat) ∧
    (q = .ret (.pass (.ok ())) → (∃ now : DateTime, (⟨.now, now⟩ : ClusterCall D) ∈ l.calls k) ∧
      ∀ now : DateTime, (⟨.now, now⟩ : ClusterCall D) ∈ l.calls k → 60_000_000_000 ≤ now - w.lastHeartbeat →
        podsOn w.id s₀.pods ≠ [] →
          (⟨.reschedule w.id (podsOn w.id s₀.pods), ()⟩ : ClusterCall D) ∈ l.calls k) := by
  have hunmoved := unmoved hrun
  have hfound : ∀ pods, (⟨.store (.listPods none), .ok pods⟩ : ClusterCall D) ∈ l.calls k →
      pods = s₀.pods := by
    intro pods hmem
    obtain ⟨s, req, hmem⟩ := History.mem_calls.mp hmem
    exact hunmoved.found _ _ _ _ hmem
  rcases checkNodes_path (hrun.path hk) with ⟨honly, -, hq⟩ | hpast
  · have hnone : (l.calls k).filterMap handover = [] := by
      refine List.filterMap_eq_nil_iff.mpr fun c hc => ?_
      obtain ⟨ans, rfl⟩ := honly c hc
      rfl
    refine ⟨hnone ▸ List.nodup_nil, fun pods hmem => ?_, fun h => absurd h hq⟩
    obtain ⟨ans, hc⟩ := honly _ hmem
    cases hc
  · obtain ⟨nodes, now, calls, hcalls, hpath⟩ := hpast
    have hpassed := ((checkEach_passed now nodes hpath).cons ⟨.now, now⟩ rfl).cons
      ⟨.store .listNodes, .ok nodes⟩ rfl
    rw [← hcalls] at hpassed
    have hlisted : (⟨.store .listNodes, .ok nodes⟩ : ClusterCall D) ∈ l.calls k :=
      hcalls ▸ List.mem_cons_self
    have hnow : (⟨.now, now⟩ : ClusterCall D) ∈ l.calls k :=
      hcalls ▸ List.mem_cons_of_mem _ List.mem_cons_self
    obtain ⟨s, req, hmem⟩ := History.mem_calls.mp hlisted
    have hperm := hunmoved.listed _ _ _ _ hmem
    have hids : ((nodes.map unmarked).map Node.id).Nodup := by
      rw [(hperm.map Node.id).nodup_iff, map_id_unmarked]
      exact s₀.nodes.ids
    obtain ⟨w', hw', hsame⟩ := List.mem_map.mp (hperm.symm.subset (List.mem_map.mpr ⟨w, hw, rfl⟩))
    obtain ⟨hid, hrole, helapsed⟩ := of_unmarked_eq hsame
    have honly : ∀ now', (⟨.now, now'⟩ : ClusterCall D) ∈ l.calls k → now' = now := by
      intro now' hmem
      rw [hcalls] at hmem
      rcases List.mem_cons.mp hmem with heq | hmem
      · cases heq
      rcases List.mem_cons.mp hmem with heq | hmem
      · cases heq
        rfl
      cases (hpath.every (checkEach_passOp now fun _ h => h)).1 _ hmem
    refine ⟨?_, fun pods hhanded => ?_, fun hq => ⟨⟨now, hnow⟩, fun now' hnow' hdead hne => ?_⟩⟩
    · rw [map_id_unmarked] at hids
      exact hpassed.once.nodup hids
    · obtain ⟨found, hmem, rfl⟩ := hpassed.found _ _ hhanded
      refine ⟨by rw [hfound found hmem], now, hnow, ?_⟩
      rw [hcalls] at hhanded
      rcases List.mem_cons.mp hhanded with heq | hhanded
      · cases heq
      rcases List.mem_cons.mp hhanded with heq | hhanded
      · cases heq
      have hop := (hpath.every (checkEach_passOp now fun _ h => h)).1 _ hhanded
      generalize hwid : w.id = id at hop hid
      cases hop with
      | @handover n _ hn hdead =>
        have heq : unmarked n = unmarked w' := List.inj_on_of_nodup_map hids
          (List.mem_map.mpr ⟨n, hn, rfl⟩) (List.mem_map.mpr ⟨w', hw', rfl⟩) hid.symm
        refine (le_elapsed_iff (by decide)).mp (hdead.trans_eq ?_)
        exact ((of_unmarked_eq heq).2.2 now).trans (helapsed now)
    · rw [honly now' hnow'] at hdead
      obtain ⟨found, hmem, hhanded⟩ := hpassed.ended hq w' hw' (hrole ▸ hworker)
        (helapsed now ▸ (le_elapsed_iff (by decide)).mpr hdead)
      rw [hfound found hmem, hid] at hhanded
      exact hhanded hne

end Run

section Dead

/-- The worker with its pod, a minute after its last heartbeat. -/
def deadWorker : Shared .plain :=
  { oneWorker .notReady with pods := [workerPod], clock := 60_000_000_000 }

/-- The monitor over it. -/
abbrev plainMonitor : Machine (clusterSig .plain) (Shared .plain) Request Reply :=
  monitor .plain (fun _ => []) ⟨""⟩

/-- What a pass over it does alone. -/
theorem dead_pass {now : DateTime} (hnow : deadThreshold ≤ now) :
    (plainMonitor.code .checkNodes).Moves plainMonitor.answer { deadWorker with clock := now }
      [⟨.store .listNodes, .ok [{ worker with status := .notReady }]⟩, ⟨.now, now⟩,
        ⟨.store (.listPods none), .ok [workerPod]⟩, ⟨.reschedule worker.id [workerPod], ()⟩]
      (.ret (.pass (.ok ()))) { deadWorker with clock := now } := by
  have hlist : StoreCall.listNodes.run { deadWorker with clock := now } =
      (.ok [{ worker with status := .notReady }], { deadWorker with clock := now }) := by
    simp only [StoreCall.run, NodeTable.list, deadWorker, oneWorker, List.mergeSort_singleton]
  have hdead : deadThreshold ≤ elapsed now { worker with status := .notReady } := by
    refine le_max_of_le_right ?_
    simpa only [worker, Int.sub_zero] using hnow
  have hcode : checkEach .plain now [{ worker with status := .notReady }] =
      collectPods .plain { worker with status := .notReady } (.ret (.pass (.ok ()))) := by
    simp only [checkEach, if_pos hdead]
    rfl
  refine .call (.store hlist) (.call .now ?_)
  show (checkEach .plain now [{ worker with status := .notReady }]).Moves ..
  rw [hcode]
  exact .call (.store rfl) (.call (.reschedule ..) (.refl ..))

theorem handed_over_once_a_pass_dead : ∃ (l : MasterHistory .plain) (p : MasterPool .plain),
    Run plainMonitor (.idle deadWorker) l p ∧ ((l.calls 0).filterMap handover).Nodup ∧
    p.thread 0 = some (.checkNodes, .ret (.pass (.ok ()))) ∧
    (⟨.reschedule worker.id [workerPod], ()⟩ : ClusterCall .plain) ∈ l.calls 0 := by
  obtain ⟨l, p, hrun, -, hdone, hcalls, -⟩ := Run.served (M := plainMonitor) (k := 0)
    (p := .idle deadWorker) (dead_pass (le_refl deadThreshold)) rfl rfl rfl
  obtain ⟨honce, -, hended⟩ := handed_over_once_a_pass hrun hdone
    (w := { worker with status := .notReady }) List.mem_cons_self (fun h => by cases h)
  have hnow : (⟨.now, deadThreshold⟩ : ClusterCall .plain) ∈ l.calls 0 := by
    rw [hcalls]
    exact List.mem_cons_of_mem _ List.mem_cons_self
  have hpods : podsOn worker.id deadWorker.pods = [workerPod] := by
    simp [podsOn, workerPod, deadWorker]
  have hhanded := (hended rfl).2 deadThreshold hnow (by decide)
    (by rw [hpods]; exact List.cons_ne_nil _ _)
  rw [hpods] at hhanded
  exact ⟨l, p, hrun, honce, hdone, hhanded⟩

/-- Two passes, ten seconds apart, hand over the same pod. -/
theorem handed_over_twice : ∃ (l : MasterHistory .plain) (p : MasterPool .plain),
    Run plainMonitor (.idle deadWorker) l p ∧
    (⟨.now, deadThreshold⟩ : ClusterCall .plain) ∈ l.calls 0 ∧
    (⟨.reschedule worker.id [workerPod], ()⟩ : ClusterCall .plain) ∈ l.calls 0 ∧
    (⟨.now, deadThreshold + 10_000_000_000⟩ : ClusterCall .plain) ∈ l.calls 1 ∧
    (⟨.reschedule worker.id [workerPod], ()⟩ : ClusterCall .plain) ∈ l.calls 1 := by
  have hlater : deadThreshold ≤ deadThreshold + 10_000_000_000 := by decide
  obtain ⟨l, p, hrun, hstate, -, hcalls, hothers⟩ := Run.served (M := plainMonitor) (k := 0)
    (p := .idle deadWorker) (dead_pass (le_refl deadThreshold)) rfl rfl rfl
  have htick : Step plainMonitor p .env ⟨{ p.state with clock := deadThreshold + 10_000_000_000 },
      p.thread⟩ := by
    refine .env (.tick ?_)
    rw [hstate]
    exact hlater
  obtain ⟨l', p', hrun', -, -, hcalls', hothers'⟩ := Run.served (M := plainMonitor) (k := 1)
    (p := ⟨{ p.state with clock := deadThreshold + 10_000_000_000 }, p.thread⟩)
    (dead_pass hlater) (hothers 1 (by decide)).1 rfl (by rw [hstate])
  refine ⟨_, p', (hrun.cons htick).trans hrun', ?_⟩
  have h₀ : (l' ++ (p.state, .env) :: l).calls 0 = l.calls 0 := by
    rw [History.calls_append, (hothers' 0 (by decide)).2, List.append_nil]
    rfl
  have h₁ : (l' ++ (p.state, .env) :: l).calls 1 = l'.calls 1 := by
    rw [History.calls_append, History.calls, (hothers 1 (by decide)).2]
    rfl
  rw [h₀, h₁, hcalls, hcalls']
  exact ⟨List.mem_cons_of_mem _ List.mem_cons_self, by simp,
    List.mem_cons_of_mem _ List.mem_cons_self, by simp⟩

end Dead

end Nexad.Cluster
