import Nexad.Laws.Cluster.Handover

/-!
# One pass of the monitor

A pass that no call fails marks every stale worker and hands over the pods of
every dead one, and does nothing else (`pass_exact`). A write that fails is
ignored, but a failing list of pods ends the pass, so the workers listed behind
that node stay as they are (`marks_stale_iff`).
-/

namespace Nexad.Cluster

open Interleave

variable {D : Domain}

/-- A worker that was last heard of 30 s ago or before. -/
def Stale (now : DateTime) (n : Node) : Prop := n.role ≠ .master ∧ notReadyThreshold ≤ elapsed now n

/-- 60 s ago or before. -/
def Dead (now : DateTime) (n : Node) : Prop := n.role ≠ .master ∧ deadThreshold ≤ elapsed now n

instance (now : DateTime) : DecidablePred (Stale now) := fun _ => inferInstanceAs (Decidable (_ ∧ _))

instance (now : DateTime) : DecidablePred (Dead now) := fun _ => inferInstanceAs (Decidable (_ ∧ _))

theorem Dead.stale {now : DateTime} {n : Node} (h : Dead now n) : Stale now n :=
  ⟨h.1, Int.le_trans (by decide) h.2⟩

theorem stale_iff {now : DateTime} {n : Node} :
    Stale now n ↔ n.role ≠ .master ∧ 30_000_000_000 ≤ now - n.lastHeartbeat :=
  and_congr_right fun _ => le_elapsed_iff (by decide)

theorem dead_iff {now : DateTime} {n : Node} :
    Dead now n ↔ n.role ≠ .master ∧ 60_000_000_000 ≤ now - n.lastHeartbeat :=
  and_congr_right fun _ => le_elapsed_iff (by decide)

/-! ## Calls that fail -/

/-- Which calls of a pass fail: writes by their node, lists of pods by their number. -/
structure Faults where
  updateNode : Uuid → Option NexaError
  listPods : Nat → Option NexaError

/-- None of them. -/
def Faults.never : Faults := ⟨fun _ => none, fun _ => none⟩

/-- How a call fails that comes after so many lists of pods. -/
def Faults.of (faults : Faults) (listed : Nat) : StoreCall → Option NexaError
  | .updateNode n => faults.updateNode n.id
  | .listPods _ => faults.listPods listed
  | _ => none

/-- The lists of pods so far, after a call. -/
def listedAfter (listed : Nat) : StoreCall → Nat
  | .listPods _ => listed + 1
  | _ => listed

/-- How the environment answers when these calls fail and no others do. The state
counts the lists of pods. -/
inductive AnsweredUnder (faults : Faults) :
    Shared D × Nat → (op : Op D) → op.Ans D → Shared D × Nat → Prop
  | store {s s' : Shared D} {listed : Nat} {c : StoreCall} {answer : Except NexaError (c.Res D)}
      (well : faults.of listed c = none) (run : c.run s = (answer, s')) :
      AnsweredUnder faults (s, listed) (.store c) answer (s', listedAfter listed c)
  | fault {s : Shared D} {listed : Nat} {c : StoreCall} {e : NexaError}
      (fails : faults.of listed c = some e) :
      AnsweredUnder faults (s, listed) (.store c) (.error e) (s, listedAfter listed c)
  | other {s s' : Shared D} {listed : Nat} {op : Op D} {ans : op.Ans D} (other : ∀ c, op ≠ .store c)
      (answered : Answered s op ans s') : AnsweredUnder faults (s, listed) op ans (s', listed)

/-- The program alone under some faults. -/
abbrev RunsUnder (faults : Faults) (p : Code D) (s : Shared D × Nat) (calls : List (ClusterCall D))
    (reply : Reply) (s' : Shared D × Nat) : Prop :=
  p.Moves (σ := clusterSig D) (AnsweredUnder faults) s calls (.ret reply) s'

/-- No call of the store was answered with an error. -/
def NoErrors (calls : List (ClusterCall D)) : Prop :=
  ∀ (c : StoreCall) (e : NexaError), (⟨.store c, .error e⟩ : ClusterCall D) ∉ calls

theorem NoErrors.tail {call : ClusterCall D} {calls : List (ClusterCall D)}
    (h : NoErrors (call :: calls)) : NoErrors calls :=
  fun c e hmem => h c e (List.mem_cons_of_mem _ hmem)

theorem NoErrors.head {c : StoreCall} {ans : Except NexaError (c.Res D)} {calls : List (ClusterCall D)}
    (h : NoErrors (⟨.store c, ans⟩ :: calls)) : ∀ e, ans ≠ .error e := by
  rintro e rfl
  exact h c e List.mem_cons_self

/-! ## What a pass does -/

/-- The nodes that the loop gets to: all of them, or those up to the first whose
list of pods fails. -/
def reached (faults : Faults) (now : DateTime) : Nat → List Node → List Node
  | _, [] => []
  | listed, node :: rest =>
    if Dead now node then
      if (faults.listPods listed).isSome then [node]
      else node :: reached faults now (listed + 1) rest
    else node :: reached faults now listed rest

/-- What is left of a row when the loop has got to some nodes. -/
def passed (faults : Faults) (now : DateTime) (nodes : List Node) (r : Node) : Node :=
  if r.id ∈ nodes.map Node.id ∧ Stale now r ∧ faults.updateNode r.id = none ∧ storable r then
    { r with status := .notReady }
  else r

/-- The pods that are handed over, by their nodes. -/
def handovers (now : DateTime) (pods : List (Pod D)) (nodes : List Node) : List (Uuid × List (Pod D)) :=
  (nodes.filter fun n => Dead now n ∧ (podsOn n.id pods).isEmpty = false).map fun n =>
    (n.id, podsOn n.id pods)

/-- What a call hands over. -/
def handed : ClusterCall D → Option (Uuid × List (Pod D))
  | ⟨.reschedule id pods, _⟩ => some (id, pods)
  | _ => none

theorem reached_sublist (faults : Faults) (now : DateTime) (listed : Nat) (nodes : List Node) :
    (reached faults now listed nodes).Sublist nodes := by
  induction nodes generalizing listed with
  | nil => exact .slnil
  | cons node rest ih =>
    unfold reached
    split
    · split
      · exact (List.nil_sublist rest).cons_cons node
      · exact (ih _).cons_cons node
    · exact (ih _).cons_cons node

theorem passed_id (faults : Faults) (now : DateTime) (nodes : List Node) (r : Node) :
    (passed faults now nodes r).id = r.id := by
  unfold passed
  split <;> rfl

/-- One node, and then others. -/
theorem passed_passed {faults : Faults} {now : DateTime} {node : Node} {nodes : List Node}
    (hnode : node.id ∉ nodes.map Node.id) (r : Node) :
    passed faults now nodes (passed faults now [node] r) = passed faults now (node :: nodes) r := by
  by_cases hid : r.id = node.id
  · have hout : (passed faults now [node] r).id ∉ nodes.map Node.id := by
      rw [passed_id, hid]
      exact hnode
    rw [passed, if_neg fun h => hout h.1]
    unfold passed
    simp only [List.map_cons, List.map_nil, List.mem_cons, hid, true_or]
  · have hfirst : passed faults now [node] r = r :=
      if_neg fun h => hid (List.mem_singleton.mp h.1)
    rw [hfirst]
    unfold passed
    simp only [List.map_cons, List.mem_cons, hid, false_or]

/-! ## One node -/

section Node

variable {faults : Faults} {now : DateTime} {s s' : Shared D} {node : Node}

/-- Rows of other nodes stay as they are, so a row is as it was if that of the node is. -/
theorem map_passed_self (hnode : node ∈ s.nodes.rows) (hsame : passed faults now [node] node = node) :
    s.nodes.rows.map (passed faults now [node]) = s.nodes.rows := by
  refine (List.map_congr_left fun r hr => ?_).trans (List.map_id _)
  by_cases hid : r.id = node.id
  · rw [NodeTable.eq_of_id hr hnode hid, hsame]
    rfl
  · exact if_neg fun h => hid (List.mem_singleton.mp h.1)

/-- Nothing is left to do for a node that is not late or is marked already. -/
theorem map_passed_quiet (hnode : node ∈ s.nodes.rows)
    (hquiet : ¬ Stale now node ∨ node.status = .notReady) :
    s.nodes.rows = s.nodes.rows.map (passed faults now [node]) := by
  refine (map_passed_self hnode ?_).symm
  unfold passed
  split
  · next hmarks =>
    rw [← hquiet.resolve_left fun hno => hno hmarks.2.1]
  · rfl

/-- The nodes that are still to come have their rows as they were listed. -/
theorem mem_map_passed {rest : List Node} (hids : ((node :: rest).map Node.id).Nodup)
    (hlisted : ∀ n ∈ node :: rest, n ∈ s.nodes.rows) :
    ∀ n ∈ rest, n ∈ s.nodes.rows.map (passed faults now [node]) := by
  intro n hn
  have hne : n.id ≠ node.id := fun hid =>
    (List.nodup_cons.mp hids).1 (List.mem_map.mpr ⟨n, hn, hid⟩)
  exact List.mem_map.mpr
    ⟨n, hlisted n (List.mem_cons_of_mem _ hn), if_neg fun h => hne (List.mem_singleton.mp h.1)⟩

/-- A row that is written back with another status. -/
theorem update_notReady (hnode : node ∈ s.nodes.rows) :
    (storable node = true → ∃ t, s.nodes.update { node with status := .notReady } = .ok (some t)) ∧
      (storable node = false → s.nodes.update { node with status := .notReady } = .error .notNull) := by
  have hmem : ¬ node.id ∉ s.nodes.rows.map Node.id := fun h => h (List.mem_map.mpr ⟨node, hnode, rfl⟩)
  have hnames : ∀ r ∈ s.nodes.rows, r.id ≠ node.id → r.name ≠ node.name := by
    intro r hr hid hname
    exact hid (congrArg Node.id (List.inj_on_of_nodup_map s.nodes.names hr hnode hname))
  have hsame : storable { node with status := .notReady } = storable node := rfl
  constructor
  · intro hstorable
    rw [NodeTable.update, if_neg hmem, hsame, hstorable, if_neg (by decide), dif_pos hnames]
    exact ⟨_, rfl⟩
  · intro hstorable
    rw [NodeTable.update, if_neg hmem, hsame, hstorable]
    rfl

/-- A stale worker is written back: its row is what the pass leaves of it, and the
write was answered with an error if it could not be. -/
theorem update_passed {listed : Nat} {ans : Except NexaError Unit} {after : Shared D × Nat}
    (h : AnsweredUnder faults (s, listed) (.store (.updateNode { node with status := .notReady })) ans after)
    (hnode : node ∈ s.nodes.rows) (hstale : Stale now node) : ∃ t : NodeTable,
      after = ({ s with nodes := t }, listed) ∧ t.rows = s.nodes.rows.map (passed faults now [node]) ∧
      ((∃ e, ans = .error e) ∨ faults.updateNode node.id = none ∧ storable node = true) := by
  have hkept : (faults.updateNode node.id ≠ none ∨ storable node = false) →
      s.nodes.rows.map (passed faults now [node]) = s.nodes.rows := by
    intro hfails
    refine map_passed_self hnode (if_neg fun h => ?_)
    rcases hfails with hfails | hfails
    · exact hfails h.2.2.1
    · rw [hfails] at h
      exact Bool.false_ne_true h.2.2.2
  cases h with
  | fault fails =>
    refine ⟨s.nodes, rfl, (hkept (.inl ?_)).symm, .inl ⟨_, rfl⟩⟩
    intro hnone
    exact Option.some_ne_none _ (fails.symm.trans hnone)
  | other other => exact absurd rfl (other _)
  | store well run =>
    have well : faults.updateNode node.id = none := well
    obtain ⟨hwrites, hrefuses⟩ := update_notReady (s := s) hnode
    cases hstorable : storable node with
    | false =>
      simp only [StoreCall.run, hrefuses hstorable] at run
      cases run
      exact ⟨s.nodes, rfl, (hkept (.inr hstorable)).symm, .inl ⟨_, rfl⟩⟩
    | true =>
      obtain ⟨t, ht⟩ := hwrites hstorable
      simp only [StoreCall.run, ht] at run
      cases run
      refine ⟨t, rfl, ?_, .inr ⟨well, rfl⟩⟩
      rw [(NodeTable.update_ok ht).2]
      refine List.map_congr_left fun r hr => ?_
      by_cases hid : r.id = node.id
      · obtain rfl := NodeTable.eq_of_id hr hnode hid
        rw [NodeTable.written, if_pos hid, passed, if_pos ⟨List.mem_singleton.mpr rfl, hstale, well, hstorable⟩]
      · rw [NodeTable.written, if_neg hid, passed, if_neg fun h => hid (List.mem_singleton.mp h.1)]

theorem handovers_singleton {pods : List (Pod D)} (hdead : Dead now node) :
    handovers now pods [node] =
      if (podsOn node.id pods).isEmpty then [] else [(node.id, podsOn node.id pods)] := by
  unfold handovers
  cases hempty : (podsOn node.id pods).isEmpty with
  | true =>
    rw [List.filter_cons_of_neg (by simp [hempty])]
    rfl
  | false =>
    rw [List.filter_cons_of_pos (by simp [hempty, hdead])]
    rfl

/-- The pods of a dead worker are listed and handed over, or the list fails and ends the pass. -/
theorem collectPods_runs {listed : Nat} {rest : Code D} {calls : List (ClusterCall D)} {reply : Reply}
    {after : Shared D × Nat}
    (h : RunsUnder faults (collectPods D node rest) (s, listed) calls reply after) (hdead : Dead now node) :
    (∃ e, faults.listPods listed = some e ∧ after = (s, listed + 1) ∧ ¬ NoErrors calls) ∨
      (faults.listPods listed = none ∧ ∃ calls', RunsUnder faults rest (s, listed + 1) calls' reply after ∧
        calls.filterMap handed = handovers now s.pods [node] ++ calls'.filterMap handed ∧
        (NoErrors calls → NoErrors calls')) := by
  unfold RunsUnder collectPods ask at h
  cases h with
  | call answered h =>
  cases answered with
  | other other => exact absurd rfl (other _)
  | @fault _ _ _ e fails =>
    cases h
    exact .inl ⟨e, fails, rfl, fun hok => hok (.listPods none) e List.mem_cons_self⟩
  | store well run =>
    cases run
    refine .inr ⟨well, ?_⟩
    rw [handovers_singleton hdead]
    have h : RunsUnder faults (if (podsOn node.id s.pods).isEmpty then rest
      else .call (.reschedule node.id (podsOn node.id s.pods)) fun _ => rest) (s, listed + 1) _ reply after := h
    by_cases hempty : (podsOn node.id s.pods).isEmpty = true
    · rw [if_pos hempty] at h ⊢
      exact ⟨_, h, rfl, NoErrors.tail⟩
    · rw [if_neg hempty] at h ⊢
      cases h with
      | call answered h =>
      cases answered with
      | other _ answered =>
        cases answered
        exact ⟨_, h, rfl, fun hok => hok.tail.tail⟩

end Node

/-! ## The loop -/

section Loop

variable {faults : Faults} {now : DateTime} {listed listed' : Nat} {node : Node} {left : List Node}
  {s after : Shared D} {calls calls' : List (ClusterCall D)} {reply : Reply}

/-- What the loop has done with the nodes from one on. -/
structure LoopRan (faults : Faults) (now : DateTime) (listed : Nat) (left : List Node) (s : Shared D)
    (calls : List (ClusterCall D)) (reply : Reply) (after : Shared D) : Prop where
  rows : ∃ t : NodeTable, after = { s with nodes := t } ∧
    t.rows = s.nodes.rows.map (passed faults now (reached faults now listed left))
  well : NoErrors calls → reply = .pass (.ok ()) ∧ reached faults now listed left = left ∧
    (∀ n ∈ left, Stale now n → n.status = .notReady ∨ faults.updateNode n.id = none ∧ storable n = true) ∧
    calls.filterMap handed = handovers now s.pods left

/-- One node more, of which the row is what the pass leaves of it. -/
theorem LoopRan.cons {t : NodeTable} (h : LoopRan faults now listed' left { s with nodes := t } calls' reply after)
    (hrows : t.rows = s.nodes.rows.map (passed faults now [node]))
    (hreached : reached faults now listed (node :: left) = node :: reached faults now listed' left)
    (hids : ((node :: left).map Node.id).Nodup)
    (hhanded : calls.filterMap handed = handovers now s.pods [node] ++ calls'.filterMap handed)
    (hwell : NoErrors calls → NoErrors calls' ∧
      (Stale now node → node.status = .notReady ∨ faults.updateNode node.id = none ∧ storable node = true)) :
    LoopRan faults now listed (node :: left) s calls reply after := by
  obtain ⟨⟨t', rfl, hrows'⟩, hrest⟩ := h
  refine ⟨⟨t', rfl, ?_⟩, fun hok => ?_⟩
  · have hout : node.id ∉ (reached faults now listed' left).map Node.id := fun hmem =>
      (List.nodup_cons.mp hids).1 (((reached_sublist _ _ _ _).map Node.id).subset hmem)
    rw [hrows', hrows, List.map_map, hreached]
    exact List.map_congr_left fun r _ => passed_passed hout r
  · obtain ⟨hok', hnode⟩ := hwell hok
    obtain ⟨hreply, hall, hwrites, hcalls⟩ := hrest hok'
    refine ⟨hreply, by rw [hreached, hall], fun n hn => ?_, ?_⟩
    · rcases List.mem_cons.mp hn with rfl | hn
      · exact hnode
      · exact hwrites n hn
    · rw [hhanded, hcalls]
      exact (List.map_append ..).symm.trans (congrArg _ (List.filter_append [node] left).symm)

/-- The list of pods that ends the loop. -/
theorem LoopRan.cut {t : NodeTable} (hrows : t.rows = s.nodes.rows.map (passed faults now [node]))
    (hreached : reached faults now listed (node :: left) = [node]) (herror : ¬ NoErrors calls) :
    LoopRan faults now listed (node :: left) s calls reply { s with nodes := t } :=
  ⟨⟨t, rfl, by rw [hrows, hreached]⟩, fun hok => absurd hok herror⟩

/-- A node that is not dead is not handed over. -/
theorem handovers_not_dead {pods : List (Pod D)} (h : ¬ Dead now node) : handovers now pods [node] = [] := by
  unfold handovers
  rw [List.filter_cons_of_neg (by simp [h])]
  rfl

theorem reached_not_dead (h : ¬ Dead now node) : reached faults now listed (node :: left) =
    node :: reached faults now listed left := by
  rw [reached, if_neg h]

theorem reached_dead (h : Dead now node) (hwell : faults.listPods listed = none) :
    reached faults now listed (node :: left) = node :: reached faults now (listed + 1) left := by
  rw [reached, if_pos h, hwell]
  rfl

/-- A dead worker, once its row is written. -/
theorem LoopRan.dead {counted : Nat} {t : NodeTable}
    (h : RunsUnder faults (collectPods D node (checkEach D now left)) ({ s with nodes := t }, listed) calls'
      reply (after, counted))
    (hcalls : calls.filterMap handed = calls'.filterMap handed)
    (hrows : t.rows = s.nodes.rows.map (passed faults now [node])) (hdead : Dead now node)
    (hids : ((node :: left).map Node.id).Nodup)
    (hwell : NoErrors calls → NoErrors calls' ∧
      (node.status = .notReady ∨ faults.updateNode node.id = none ∧ storable node = true))
    (ih : ∀ calls, RunsUnder faults (checkEach D now left) ({ s with nodes := t }, listed + 1) calls reply
      (after, counted) → LoopRan faults now (listed + 1) left { s with nodes := t } calls reply after) :
    LoopRan faults now listed (node :: left) s calls reply after := by
  rcases collectPods_runs h hdead with ⟨e, hfails, hafter, herror⟩ | ⟨hlists, calls'', hrun, hhanded, hok⟩
  · cases hafter
    refine .cut hrows ?_ fun hok => herror (hwell hok).1
    rw [reached, if_pos hdead, hfails]
    rfl
  · exact (ih calls'' hrun).cons hrows (reached_dead hdead hlists) hids (hcalls.trans hhanded) fun hnone =>
      ⟨hok (hwell hnone).1, fun _ => (hwell hnone).2⟩

theorem checkEach_ran {counted : Nat}
    (h : RunsUnder faults (checkEach D now left) (s, listed) calls reply (after, counted))
    (hids : (left.map Node.id).Nodup) (hleft : ∀ n ∈ left, n ∈ s.nodes.rows) :
    LoopRan faults now listed left s calls reply after := by
  induction left generalizing s listed calls with
  | nil =>
    cases h
    refine ⟨⟨after.nodes, rfl, ?_⟩, fun _ => ⟨rfl, rfl, fun _ hn => absurd hn List.not_mem_nil, rfl⟩⟩
    refine ((List.map_congr_left fun r _ => ?_).trans (List.map_id _)).symm
    exact if_neg fun h => absurd h.1 List.not_mem_nil
  | cons node rest ih =>
    have hnode := hleft node List.mem_cons_self
    have hids' : (rest.map Node.id).Nodup := (List.nodup_cons.mp hids).2
    have hrest : ∀ t : NodeTable, t.rows = s.nodes.rows.map (passed faults now [node]) →
        ∀ n ∈ rest, n ∈ t.rows := by
      intro t hrows
      rw [hrows]
      exact mem_map_passed hids hleft
    have hkept := @map_passed_quiet D faults now s node hnode
    unfold RunsUnder checkEach at h
    by_cases hmaster : node.role = .master
    · rw [if_pos hmaster] at h
      have hstale : ¬ Stale now node := fun hstale => hstale.1 hmaster
      have hdead : ¬ Dead now node := fun hdead => hdead.1 hmaster
      refine (ih h hids' (hrest _ (hkept (.inl hstale)))).cons (hkept (.inl hstale)) (reached_not_dead hdead)
        hids ?_ fun hok => ⟨hok, fun h => absurd h hstale⟩
      rw [handovers_not_dead hdead, List.nil_append]
    · rw [if_neg hmaster] at h
      by_cases hlate : deadThreshold ≤ elapsed now node
      · rw [if_pos hlate] at h
        have hdead : Dead now node := ⟨hmaster, hlate⟩
        by_cases hstatus : node.status ≠ .notReady
        · rw [if_pos hstatus] at h
          cases h with
          | call answered h =>
          obtain ⟨t, rfl, hrows, hanswer⟩ := update_passed answered hnode hdead.stale
          refine LoopRan.dead h rfl hrows hdead hids (fun hok => ⟨hok.tail, .inr ?_⟩) fun calls h =>
            ih h hids' (hrest t hrows)
          exact hanswer.resolve_left fun hfailed => hfailed.elim hok.head
        · rw [if_neg hstatus] at h
          have hrows := hkept (.inr (not_not.mp hstatus))
          exact LoopRan.dead h rfl hrows hdead hids (fun hok => ⟨hok, .inl (not_not.mp hstatus)⟩)
            fun calls h => ih h hids' (hrest _ hrows)
      · rw [if_neg hlate] at h
        have hdead : ¬ Dead now node := fun hdead => hlate hdead.2
        have hreached := @reached_not_dead faults now listed node rest hdead
        by_cases hstale : notReadyThreshold ≤ elapsed now node ∧ node.status ≠ .notReady
        · rw [if_pos hstale] at h
          cases h with
          | call answered h =>
          obtain ⟨t, rfl, hrows, hanswer⟩ := update_passed answered hnode ⟨hmaster, hstale.1⟩
          refine (ih h hids' (hrest t hrows)).cons hrows hreached hids ?_
            fun hok => ⟨hok.tail, fun _ => .inr ?_⟩
          · rw [handovers_not_dead hdead, List.nil_append]
            rfl
          · exact hanswer.resolve_left fun hfailed => hfailed.elim hok.head
        · rw [if_neg hstale] at h
          have hquiet : ¬ Stale now node ∨ node.status = .notReady := by
            by_cases hstatus : node.status = .notReady
            · exact .inr hstatus
            · exact .inl fun h => hstale ⟨h.2, hstatus⟩
          refine (ih h hids' (hrest _ (hkept hquiet))).cons (hkept hquiet) hreached hids ?_
            fun hok => ⟨hok, fun h => .inl (hquiet.resolve_left fun hno => hno h)⟩
          rw [handovers_not_dead hdead, List.nil_append]

end Loop

/-! ## The pass -/

section Pass

variable {faults : Faults} {s after : Shared D} {calls : List (ClusterCall D)} {reply : Reply}

theorem nodup_list_ids (t : NodeTable) : (t.list.map Node.id).Nodup :=
  ((List.mergeSort_perm t.rows _).map Node.id).nodup_iff.mpr t.ids

/-- A pass that could list the nodes goes through all of them. -/
theorem checkNodes_ran {counted : Nat} (h : RunsUnder faults (checkNodes D) (s, 0) calls reply (after, counted)) :
    ∃ calls', LoopRan faults s.clock 0 s.nodes.list s calls' reply after ∧
      calls.filterMap handed = calls'.filterMap handed ∧ (NoErrors calls → NoErrors calls') := by
  unfold RunsUnder checkNodes ask at h
  cases h with
  | call answered h =>
  cases answered with
  | other other => exact absurd rfl (other _)
  | fault fails => cases fails
  | store _ run =>
  cases run
  cases h with
  | call answered h =>
  cases answered with
  | other _ answered =>
  cases answered
  exact ⟨_, checkEach_ran h (nodup_list_ids _) fun n hn => List.mem_mergeSort.mp hn, rfl,
    fun hok => hok.tail.tail⟩

/-- A run without errors is one under no faults. -/
theorem runsUnder_never {p q : Code D} (h : p.Moves (σ := clusterSig D) Answered s calls q after)
    (hok : NoErrors calls) (listed : Nat) : ∃ counted,
      p.Moves (σ := clusterSig D) (AnsweredUnder Faults.never) (s, listed) calls q (after, counted) := by
  induction h generalizing listed with
  | refl => exact ⟨listed, .refl _ _⟩
  | @call op k q s s₁ s₂ ans calls answered rest ih =>
    have hnever : ∀ c, Faults.never.of listed c = none := by
      intro c
      cases c <;> rfl
    by_cases hstore : ∃ c, op = .store c
    · obtain ⟨c, rfl⟩ := hstore
      cases answered with
      | fault => exact absurd rfl (hok.head _)
      | store run =>
        obtain ⟨counted, hrun⟩ := ih hok.tail (listedAfter listed c)
        exact ⟨counted, .call (.store (hnever c) run) hrun⟩
    · obtain ⟨counted, hrun⟩ := ih hok.tail listed
      exact ⟨counted, .call (.other (fun c hc => hstore ⟨c, hc⟩) answered) hrun⟩

/-- A pass of which every call of the store succeeds marks the workers last heard
of 30 s ago or before and no other node, leaves everything else as it is, and hands
over the pods of each worker last heard of 60 s ago or before that has any, in the
order of the list. -/
theorem pass_exact (h : (checkNodes D).Moves (σ := clusterSig D) Answered s calls (.ret reply) after)
    (hok : NoErrors calls) :
    reply = .pass (.ok ()) ∧
    (∃ t : NodeTable, after = { s with nodes := t } ∧ t.rows = s.nodes.rows.map fun n =>
      if n.role ≠ .master ∧ 30_000_000_000 ≤ s.clock - n.lastHeartbeat
      then { n with status := .notReady } else n) ∧
    calls.filterMap handed =
      (s.nodes.list.filter fun n => n.role ≠ .master ∧ 60_000_000_000 ≤ s.clock - n.lastHeartbeat ∧
        (s.pods.filter fun p => p.nodeId = some n.id) ≠ []).map fun n =>
          (n.id, s.pods.filter fun p => p.nodeId = some n.id) := by
  obtain ⟨counted, hrun⟩ := runsUnder_never h hok 0
  obtain ⟨calls', hran, hhanded, hok'⟩ := checkNodes_ran hrun
  obtain ⟨hreply, hall, hwrites, hcalls⟩ := hran.well (hok' hok)
  obtain ⟨t, hafter, hrows⟩ := hran.rows
  refine ⟨hreply, ⟨t, hafter, ?_⟩, (hhanded.trans hcalls).trans ?_⟩
  · rw [hrows, hall]
    refine List.map_congr_left fun r hr => ?_
    have hlisted : r ∈ s.nodes.list := List.mem_mergeSort.mpr hr
    unfold passed
    by_cases hstale : Stale s.clock r
    · rw [if_pos (stale_iff.mp hstale)]
      rcases hwrites r hlisted hstale with hstatus | ⟨hwell, hstorable⟩
      · split
        · rfl
        · rw [← hstatus]
      · rw [if_pos ⟨List.mem_map.mpr ⟨r, hlisted, rfl⟩, hstale, hwell, hstorable⟩]
    · rw [if_neg (mt stale_iff.mpr hstale), if_neg fun h => hstale h.2.1]
  · refine congrArg (List.map _) (List.filter_congr fun n _ => ?_)
    rw [decide_eq_decide, dead_iff, and_assoc, List.isEmpty_eq_false_iff]
    rfl

/-! ### Nodes behind a failing list of pods -/

/-- Marking the node would succeed. -/
def WouldWrite (faults : Faults) (s : Shared D) (n : Node) : Prop :=
  faults.updateNode n.id = none ∧ ∃ t, s.nodes.update { n with status := .notReady } = .ok (some t)

theorem wouldWrite_iff {n : Node} (hn : n ∈ s.nodes.rows) :
    WouldWrite faults s n ↔ faults.updateNode n.id = none ∧ storable n = true := by
  obtain ⟨hwrites, hrefuses⟩ := update_notReady (s := s) hn
  refine and_congr_right fun _ => ⟨fun ⟨t, ht⟩ => ?_, hwrites⟩
  by_contra hnot
  rw [hrefuses (Bool.eq_false_iff.mpr hnot)] at ht
  cases ht

/-- A worker that is to be marked, and could be, is listed behind a dead one whose
list of pods fails. -/
def Blinded (faults : Faults) (s : Shared D) : Prop :=
  ∃ before dead behind, s.nodes.list = before ++ dead :: behind ∧ Dead s.clock dead ∧
    faults.listPods (before.countP fun n => Dead s.clock n) ≠ none ∧
    ∃ w ∈ behind, Stale s.clock w ∧ w.status ≠ .notReady ∧ WouldWrite faults s w

/-- The loop gets to all nodes, or ends at a dead worker whose list of pods fails. -/
theorem reached_cases (faults : Faults) (now : DateTime) (listed : Nat) (nodes : List Node) :
    reached faults now listed nodes = nodes ∨ ∃ before dead behind, nodes = before ++ dead :: behind ∧
      Dead now dead ∧ faults.listPods (listed + before.countP fun n => Dead now n) ≠ none ∧
      reached faults now listed nodes = before ++ [dead] := by
  induction nodes generalizing listed with
  | nil => exact .inl rfl
  | cons node rest ih =>
    by_cases hdead : Dead now node
    · cases hfails : faults.listPods listed with
      | some e =>
        refine .inr ⟨[], node, rest, rfl, hdead, ?_, ?_⟩
        · exact fun hnone => Option.some_ne_none e (hfails.symm.trans hnone)
        · rw [reached, if_pos hdead, hfails]
          rfl
      | none =>
        rw [reached_dead hdead hfails]
        rcases ih (listed + 1) with hall | ⟨before, dead, behind, rfl, hd, hfails', hreached⟩
        · exact .inl (congrArg (node :: ·) hall)
        · refine .inr ⟨node :: before, dead, behind, rfl, hd, ?_, congrArg (node :: ·) hreached⟩
          rw [List.countP_cons_of_pos (by simpa using hdead), ← Nat.add_assoc, Nat.add_right_comm]
          exact hfails'
    · rw [reached_not_dead hdead]
      rcases ih listed with hall | ⟨before, dead, behind, rfl, hd, hfails', hreached⟩
      · exact .inl (congrArg (node :: ·) hall)
      · refine .inr ⟨node :: before, dead, behind, rfl, hd, ?_, congrArg (node :: ·) hreached⟩
        rw [List.countP_cons_of_neg (by simpa using hdead)]
        exact hfails'

/-- It does not get past such a worker. -/
theorem reached_prefix {now : DateTime} {dead : Node} (hdead : Dead now dead) (behind before : List Node)
    (listed : Nat) (hfails : faults.listPods (listed + before.countP fun n => Dead now n) ≠ none) :
    reached faults now listed (before ++ dead :: behind) <+: before ++ [dead] := by
  induction before generalizing listed with
  | nil =>
    obtain ⟨e, he⟩ := Option.ne_none_iff_exists'.mp hfails
    have he : faults.listPods listed = some e := he
    rw [List.nil_append, reached, if_pos hdead, he]
    exact List.prefix_refl _
  | cons node before ih =>
    by_cases hnode : Dead now node
    · rw [List.countP_cons_of_pos (by simpa using hnode), ← Nat.add_assoc, Nat.add_right_comm] at hfails
      cases hlists : faults.listPods listed with
      | some e =>
        rw [List.cons_append, reached, if_pos hnode, hlists]
        exact List.cons_prefix_cons.mpr ⟨rfl, List.nil_prefix⟩
      | none =>
        rw [List.cons_append, reached_dead hnode hlists]
        exact List.cons_prefix_cons.mpr ⟨rfl, ih (listed + 1) hfails⟩
    · rw [List.countP_cons_of_neg (by simpa using hnode)] at hfails
      rw [List.cons_append, reached_not_dead hnode]
      exact List.cons_prefix_cons.mpr ⟨rfl, ih listed hfails⟩

/-- A pass whose list of nodes succeeded, under any faults, marks every stale worker
that it could exactly when none of them is listed behind a dead one whose list of
pods fails. -/
theorem marks_stale_iff {counted : Nat}
    (h : (checkNodes D).Moves (σ := clusterSig D) (AnsweredUnder faults) (s, 0) calls (.ret reply)
      (after, counted)) :
    (∀ w ∈ s.nodes.rows, Stale s.clock w → WouldWrite faults s w →
        ∃ r ∈ after.nodes.rows, r.id = w.id ∧ r.status = .notReady) ↔ ¬ Blinded faults s := by
  obtain ⟨calls', hran, -, -⟩ := checkNodes_ran h
  obtain ⟨t, rfl, hrows⟩ := hran.rows
  have hrow : ∀ w ∈ s.nodes.rows, ∀ r ∈ t.rows, r.id = w.id →
      r = passed faults s.clock (reached faults s.clock 0 s.nodes.list) w := by
    intro w hw r hr hid
    rw [hrows] at hr
    obtain ⟨r', hr', rfl⟩ := List.mem_map.mp hr
    rw [passed_id] at hid
    rw [NodeTable.eq_of_id hr' hw hid]
  constructor
  · rintro hall ⟨before, dead, behind, hlist, hdead, hfails, w, hw, hstale, hstatus, hwould⟩
    have hmem : w ∈ s.nodes.list := by
      rw [hlist]
      exact List.mem_append_right _ (List.mem_cons_of_mem _ hw)
    have hrows_w : w ∈ s.nodes.rows := List.mem_mergeSort.mp hmem
    obtain ⟨r, hr, hid, hmarked⟩ := hall w hrows_w hstale hwould
    -- the loop ends before it, so its row is not written
    have hbegins := reached_prefix hdead behind before 0 (by rwa [Nat.zero_add])
    have hids := nodup_list_ids s.nodes
    rw [hlist, List.append_cons, List.map_append] at hids
    have hout : w.id ∉ (reached faults s.clock 0 s.nodes.list).map Node.id := by
      intro hreached
      rw [hlist] at hreached
      exact (List.nodup_append.mp hids).2.2 _ ((hbegins.map Node.id).subset hreached) _
        (List.mem_map.mpr ⟨w, hw, rfl⟩) rfl
    have hsame : r = w := (hrow w hrows_w r hr hid).trans (if_neg fun h => hout h.1)
    exact hstatus (hsame ▸ hmarked)
  · intro hblinded w hw hstale hwould
    refine ⟨_, hrows ▸ List.mem_map.mpr ⟨w, hw, rfl⟩, passed_id _ _ _ w, ?_⟩
    obtain ⟨hwell, hstorable⟩ := (wouldWrite_iff hw).mp hwould
    unfold passed
    by_cases hreached : w ∈ reached faults s.clock 0 s.nodes.list
    · rw [if_pos ⟨List.mem_map.mpr ⟨w, hreached, rfl⟩, hstale, hwell, hstorable⟩]
    · split
      · rfl
      · -- it is listed behind the end of the loop, so it was marked before
        have hmem : w ∈ s.nodes.list := List.mem_mergeSort.mpr hw
        rcases reached_cases faults s.clock 0 s.nodes.list with hall | hcut
        · exact absurd (hall.symm ▸ hmem) hreached
        · obtain ⟨before, dead, behind, hlist, hdead, hfails, hends⟩ := hcut
          rw [Nat.zero_add] at hfails
          rw [hends] at hreached
          rw [hlist, List.append_cons] at hmem
          have hbehind := (List.mem_append.mp hmem).resolve_left hreached
          by_contra hstatus
          exact hblinded ⟨before, dead, behind, hlist, hdead, hfails, w, hbehind, hstale, hstatus, hwould⟩

end Pass

section Workers

/-- The master, which sends no heartbeats. -/
def ownNode : Node :=
  { worker with id := ⟨1⟩, name := "m", address := "10.0.0.1:6444", role := .master }

/-- A worker silent for 35 s, and one whose clock is ahead. -/
def lateWorker : Node :=
  { worker with id := ⟨3⟩, name := "w2", address := "10.0.0.3:6444", lastHeartbeat := 65_000_000_000 }

def earlyWorker : Node :=
  { worker with id := ⟨4⟩, name := "w3", address := "10.0.0.4:6444", lastHeartbeat := 200_000_000_000 }

/-- They and a dead worker with a pod, 100 s after the epoch. -/
def fourNodes (status₁ status₂ : NodeStatus) : Shared .plain where
  nodes := ⟨[ownNode, { worker with status := status₁ }, { lateWorker with status := status₂ },
    earlyWorker], by simp [ownNode, worker, lateWorker, earlyWorker],
      by simp [ownNode, worker, lateWorker, earlyWorker]⟩
  config := fun _ => none
  pods := [workerPod]
  clock := 100_000_000_000
  drawn := [⟨4⟩, ⟨3⟩, ⟨2⟩, ⟨1⟩]

private theorem fourNodes_pass : (checkNodes .plain).Moves (σ := clusterSig .plain) Answered
    (fourNodes .ready .ready)
    [⟨.store .listNodes, .ok (fourNodes .ready .ready).nodes.rows⟩,
      ⟨.now, (100_000_000_000 : Int)⟩,
      ⟨.store (.updateNode { worker with status := .notReady }), .ok ()⟩,
      ⟨.store (.listPods none), .ok [workerPod]⟩, ⟨.reschedule worker.id [workerPod], ()⟩,
      ⟨.store (.updateNode { lateWorker with status := .notReady }), .ok ()⟩]
    (.ret (.pass (.ok ()))) (fourNodes .notReady .notReady) := by
  have hlist : StoreCall.listNodes.run (fourNodes .ready .ready) =
      (.ok (fourNodes .ready .ready).nodes.rows, fourNodes .ready .ready) := by
    have hsorted : (fourNodes .ready .ready).nodes.list = (fourNodes .ready .ready).nodes.rows :=
      List.mergeSort_of_pairwise (by decide)
    rw [StoreCall.run, hsorted]
  have hmark₁ : (StoreCall.updateNode { worker with status := .notReady }).run
      (fourNodes .ready .ready) = (.ok (), fourNodes .notReady .ready) := rfl
  have hmark₂ : (StoreCall.updateNode { lateWorker with status := .notReady }).run
      (fourNodes .notReady .ready) = (.ok (), fourNodes .notReady .notReady) := rfl
  exact .call (.store hlist) (.call .now (.call (.store hmark₁) (.call (.store rfl)
    (.call (.reschedule ..) (.call (.store hmark₂) (.refl ..))))))

theorem pass_exact_four : ∃ (calls : List (ClusterCall .plain)) (after : Shared .plain),
    (checkNodes .plain).Moves (σ := clusterSig .plain) Answered (fourNodes .ready .ready) calls
      (.ret (.pass (.ok ()))) after ∧
    after.nodes.rows = [ownNode, { worker with status := .notReady },
      { lateWorker with status := .notReady }, earlyWorker] ∧
    calls.filterMap handed = [(worker.id, [workerPod])] := by
  have hok : NoErrors [(⟨.store .listNodes, .ok (fourNodes .ready .ready).nodes.rows⟩ :
      ClusterCall .plain), ⟨.now, (100_000_000_000 : Int)⟩,
      ⟨.store (.updateNode { worker with status := .notReady }), .ok ()⟩,
      ⟨.store (.listPods none), .ok [workerPod]⟩, ⟨.reschedule worker.id [workerPod], ()⟩,
      ⟨.store (.updateNode { lateWorker with status := .notReady }), .ok ()⟩] := by
    intro c e hmem
    simp only [List.mem_cons, List.not_mem_nil, or_false] at hmem
    rcases hmem with h | h | h | h | h | h <;> cases h
  have hsorted : (fourNodes .ready .ready).nodes.list = (fourNodes .ready .ready).nodes.rows :=
    List.mergeSort_of_pairwise (by decide)
  obtain ⟨-, ⟨t, hafter, hrows⟩, hhanded⟩ := pass_exact fourNodes_pass hok
  rw [hsorted] at hhanded
  refine ⟨_, _, fourNodes_pass, ?_, hhanded⟩
  rw [hafter, hrows]
  rfl

/-- A dead worker that is marked, and one that is stale. -/
def markedWorker : Node := { worker with status := .notReady }

def silentWorker : Node :=
  ⟨⟨3⟩, "w2", "10.0.0.3:6444", .worker, .ready, Domain.plain.zeroResources, 30_000_000_000, 0⟩

def twoWorkers : Shared .plain where
  nodes := ⟨[markedWorker, silentWorker], by decide, by decide⟩
  config := fun _ => none
  pods := []
  clock := 60_000_000_000
  drawn := [⟨2⟩, ⟨3⟩]

/-- The first list of pods fails. -/
def unreadablePods : Faults := ⟨fun _ => none, fun listed => if listed = 0 then some (.runtime "bad row") else none⟩

/-- The pass ends at the first worker. -/
private theorem twoWorkers_pass : (checkNodes .plain).Moves (σ := clusterSig .plain)
    (AnsweredUnder unreadablePods) (twoWorkers, 0)
    [⟨.store .listNodes, .ok [markedWorker, silentWorker]⟩, ⟨.now, twoWorkers.clock⟩,
      ⟨.store (.listPods none), .error (.runtime "bad row")⟩]
    (.ret (.pass (.error (.runtime "bad row")))) (twoWorkers, 1) := by
  have hlist : StoreCall.listNodes.run twoWorkers = (.ok [markedWorker, silentWorker], twoWorkers) := by
    have hsorted : twoWorkers.nodes.list = [markedWorker, silentWorker] :=
      List.mergeSort_of_pairwise (by decide)
    rw [StoreCall.run, hsorted]
  have hcode : checkEach .plain twoWorkers.clock [markedWorker, silentWorker] =
      collectPods .plain markedWorker (checkEach .plain twoWorkers.clock [silentWorker]) := by
    rw [checkEach, if_neg (by decide), if_pos (by decide), if_neg (by decide)]
  refine .call (.store rfl hlist) (.call (.other (fun _ hc => by cases hc) .now) ?_)
  show (checkEach .plain twoWorkers.clock [markedWorker, silentWorker]).Moves ..
  rw [hcode]
  exact .call (.fault rfl) (.refl _ _)

private theorem silentWorker_unmarked : Stale twoWorkers.clock silentWorker ∧
    WouldWrite unreadablePods twoWorkers silentWorker ∧
    ¬ ∃ r ∈ twoWorkers.nodes.rows, r.id = silentWorker.id ∧ r.status = .notReady := by
  refine ⟨by decide, (wouldWrite_iff (.tail _ (.head _))).mpr ⟨rfl, rfl⟩, ?_⟩
  rintro ⟨r, hr, hid, hstatus⟩
  rcases List.mem_cons.mp hr with rfl | hr
  · exact absurd hid (by decide)
  · rw [List.mem_singleton.mp hr] at hstatus
    cases hstatus

/-- The stale worker stays ready, though its own write would succeed. -/
theorem pass_leaves_stale : ∃ (calls : List (ClusterCall .plain)) (reply : Reply) (after : Shared .plain)
    (counted : Nat), (checkNodes .plain).Moves (σ := clusterSig .plain)
      (AnsweredUnder unreadablePods) (twoWorkers, 0) calls (.ret reply) (after, counted) ∧
    silentWorker ∈ twoWorkers.nodes.rows ∧ Stale twoWorkers.clock silentWorker ∧
    WouldWrite unreadablePods twoWorkers silentWorker ∧
    ¬ ∃ r ∈ after.nodes.rows, r.id = silentWorker.id ∧ r.status = .notReady :=
  ⟨_, _, _, _, twoWorkers_pass, .tail _ (.head _), silentWorker_unmarked⟩

theorem marks_stale_iff_two : Blinded unreadablePods twoWorkers := by
  by_contra hblinded
  obtain ⟨hstale, hwould, hunmarked⟩ := silentWorker_unmarked
  exact hunmarked ((marks_stale_iff twoWorkers_pass).mpr hblinded _ (.tail _ (.head _)) hstale hwould)

end Workers

end Nexad.Cluster
