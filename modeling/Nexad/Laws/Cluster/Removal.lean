import Nexad.Laws.Cluster.Drain
import Nexad.Laws.Cluster.Registration
import Nexad.Laws.Cluster.Token

/-!
# Removing a node

Tasks that read a node before it was removed write it back afterwards. An
update names the row by its id, and an id that is gone does not come back, so
such a write changes nothing, whoever has taken the name since
(`removed_stays_removed`).

`remove_node` itself judges the row it has read, and exempts the row of a
master (`removed_was_drained`).
-/

namespace Nexad.Cluster

open Interleave

variable {D : Domain} {sha256 : List UInt8 → List UInt8} {server : ClusterServer}

section Run

variable {arrives : Request → Prop} {s₀ s : Shared D} {l : MasterHistory D} {p : MasterPool D}
  {id : Uuid}

/-- The operation names the node with this id. -/
def Concerns (id : Uuid) : Op D → Prop
  | .store (.getNode i) | .store (.deleteNode i) | .reschedule i _ => i = id
  | .store (.updateNode n) => n.id = id
  | _ => False

theorem Removed.append (h : Removed id l) (l' : MasterHistory D) : Removed id (l' ++ l) := by
  obtain ⟨s, e, hmem, hdel⟩ := h
  exact ⟨s, e, List.mem_append_right _ hmem, hdel⟩

/-- A removed node is in no state that comes after. -/
theorem removed_not_visited (h₀ : ∀ r ∈ s₀.nodes.rows, r.id ∈ s₀.drawn)
    (hrun : Run (master D sha256 server arrives) (.idle s₀) l p) (hremoved : Removed id l)
    {l' : MasterHistory D} {p' : MasterPool D}
    (hlater : Run (master D sha256 server arrives) p l' p') (hs : Run.Visited l' p' s) :
    ∀ r ∈ s.nodes.rows, r.id ≠ id := by
  rcases hs with rfl | ⟨e, hmem⟩
  · exact ((Run.origin h₀ (hrun.trans hlater)).1.gone id (hremoved.append l')).2
  · obtain ⟨-, earlier, q, -, -, rfl, hbefore, -, -⟩ := hlater.split hmem
    exact ((Run.origin h₀ (hrun.trans hbefore)).1.gone id (hremoved.append earlier)).2

/-- A call for a node that is not there changes no row. -/
theorem Answered.absent {s' : Shared D} {op : Op D} {ans : op.Ans D} (h : Answered s op ans s')
    (hop : Concerns id op) (habsent : ∀ r ∈ s.nodes.rows, r.id ≠ id) :
    s'.nodes.rows = s.nodes.rows := by
  cases Answered.nodes h with
  | same kept => rw [kept]
  | insert => exact hop.elim
  | update done =>
    obtain ⟨r, hr, hid⟩ := List.mem_map.mp (NodeTable.update_ok done).1
    exact absurd (hid.trans hop) (habsent r hr)
  | delete done =>
    cases hop
    rw [done]
    exact List.filter_eq_self.mpr fun r hr => decide_eq_true (habsent r hr)

/-- Once a node has been removed, no state has a row with its id, and no call
that names it changes any row. -/
theorem removed_stays_removed (h₀ : ∀ r ∈ s₀.nodes.rows, r.id ∈ s₀.drawn)
    (hrun : Run (master D sha256 server arrives) (.idle s₀) l p) (hremoved : Removed id l)
    {l' : MasterHistory D} {p' : MasterPool D}
    (hlater : Run (master D sha256 server arrives) p l' p') :
    (∀ s, Run.Visited l' p' s → ∀ r ∈ s.nodes.rows, r.id ≠ id) ∧
      l'.Steps (fun _ s e s' => ∀ k req op ans, e = .call k req op ans → Concerns id op →
        s'.nodes.rows = s.nodes.rows) p'.state := by
  refine ⟨fun s hs => removed_not_visited h₀ hrun hremoved hlater hs,
    Interleave.Run.steps hlater fun q e q' hstep hmem k req op ans he hop => ?_⟩
  subst he
  have habsent := removed_not_visited h₀ hrun hremoved hlater (.inr ⟨_, hmem⟩)
  cases hstep with
  | call _ answered => exact Answered.absent answered hop habsent

end Run

section Race

/-- The worker, drained. -/
def drainedWorker : Node := { worker with status := .draining }

/-- The store after the removal of its worker. -/
def emptied : Shared .plain :=
  { oneWorker .draining with nodes := (oneWorker .draining).nodes.delete worker.id }

private theorem read_drained : (StoreCall.getNodeByName "w1").run (oneWorker .draining) =
    (.ok (some drainedWorker), oneWorker .draining) := rfl

/-- A drain has read the row when the removal deletes it. -/
private theorem removal_run : ∃ (l : MasterHistory .plain) (p : MasterPool .plain),
    Run openMaster (.idle (oneWorker .draining)) l p ∧ Removed worker.id l ∧ p.state = emptied ∧
    ∃ cont, p.thread 0 = some (.drainNode "w1", ask (.updateNode drainedWorker) cont) := by
  have hdelete : (StoreCall.deleteNode worker.id).run (oneWorker .draining) = (.ok (), emptied) := rfl
  have hrun := (Run.start openMaster (.idle (oneWorker .draining))).arrive 0
      (.drainNode "w1") rfl trivial
    |>.call 0 rfl (.store read_drained) |>.arrive 1 (.removeNode "w1") rfl trivial
    |>.call 1 rfl (.store read_drained) |>.call 1 rfl (.store hdelete)
  exact ⟨_, _, hrun, ⟨_, _, List.mem_cons_self, ⟨1, _, rfl⟩, drainedWorker, List.mem_cons_self, rfl⟩,
    rfl, _, rfl⟩

theorem removed_stays_removed_late_drain : ∃ (l l' : MasterHistory .plain) (p p' : MasterPool .plain),
    Run openMaster (.idle (oneWorker .draining)) l p ∧ Removed worker.id l ∧
    Run openMaster p l' p' ∧ l'.length = 1 ∧
    ∀ s, Run.Visited l' p' s → ∀ r ∈ s.nodes.rows, r.id ≠ worker.id := by
  obtain ⟨l, p, hrun, hremoved, hstate, cont, hthread⟩ := removal_run
  have hwrite : (StoreCall.updateNode drainedWorker).run p.state =
      (.error (.nodeNotFound (Uuid.hyphenated worker.id)), emptied) := by
    rw [hstate]
    rfl
  have hlater := (Run.start openMaster p).call 0 hthread (.store hwrite)
  have hdrawn : ∀ r ∈ (oneWorker .draining).nodes.rows, r.id ∈ (oneWorker .draining).drawn := by
    simp [oneWorker, worker]
  exact ⟨l, _, p, _, hrun, hremoved, hlater, rfl,
    (removed_stays_removed hdrawn hrun hremoved hlater).1⟩

end Race

/-! ## What a removal has looked at -/

/-- Thread `k` reads the row that it is asked to remove. -/
def ReadsDoomed (k : Nat) (e : Event (clusterSig D) Request) : Prop :=
  ∃ name ans, e = .call k (.removeNode name) (.store (.getNodeByName name)) ans

/-- The row of this node was written after the last reading of thread `k`. -/
def RewrittenSince (k : Nat) (id : Uuid) : MasterHistory D → Prop
  | [] => False
  | (_, e) :: l => ¬ ReadsDoomed k e ∧ ((∃ n, Updates n e ∧ n.id = id) ∨ RewrittenSince k id l)

/-- A removal that comes to its deletion has read a row that was draining or
a master's. -/
theorem removeNode_path {name : String} {id : Uuid} {calls : List (ClusterCall D)}
    {cont : Except NexaError Unit → Code D}
    (h : (Api.removeNode D name).Path calls (ask (.deleteNode id) cont)) :
    ∃ n : Node, calls = [⟨.store (.getNodeByName name), .ok (some n)⟩] ∧ n.id = id ∧
      (n.status = .draining ∨ n.role = .master) := by
  unfold Api.removeNode ask at h
  cases h with
  | call found h =>
    match found with
    | .ok none => cases h
    | .error e => cases h
    | .ok (some n) =>
      dsimp only at h
      split at h
      · cases h
      · next hguard =>
        cases h with
        | refl =>
          refine ⟨n, rfl, rfl, ?_⟩
          by_cases hstatus : n.status = .draining
          · exact .inl hstatus
          · exact .inr (not_not.mp fun hrole => hguard ⟨hstatus, hrole⟩)
        | call deleted h =>
          match deleted with
          | .ok () => cases h
          | .error e => cases h

section Run

variable {arrives : Request → Prop} {s₀ s : Shared D} {l : MasterHistory D} {p : MasterPool D}
  {k : Nat} {id : Uuid}

theorem Entered.append {id : Uuid} (h : Entered s₀ id l) (l' : MasterHistory D) :
    Entered s₀ id (l' ++ l) := by
  induction l' with
  | nil => exact h
  | cons x l' ih => exact ih.cons x

/-- A row that no update names is the row it was, as long as it is there. -/
theorem row_kept (h₀ : ∀ r ∈ s₀.nodes.rows, r.id ∈ s₀.drawn)
    (hrun : Run (master D sha256 server arrives) (.idle s₀) l p) {n : Node}
    (hn : n ∈ p.state.nodes.rows) {l' : MasterHistory D} {p' : MasterPool D}
    (hlater : Run (master D sha256 server arrives) p l' p')
    (hkept : ∀ s e, (s, e) ∈ l' → ∀ m, Updates m e → m.id ≠ n.id) :
    ∀ r ∈ p'.state.nodes.rows, r.id = n.id → r = n := by
  have hentered : Entered s₀ n.id l := (Run.origin h₀ hrun).1.entered n hn
  induction hlater with
  | nil => exact fun r hr hid => NodeTable.eq_of_id hr hn hid
  | @cons l' q q' e hrun' hstep ih =>
    have hbefore := ih fun s e hmem => hkept s e (List.mem_cons_of_mem _ hmem)
    have hguar : OriginGuar s₀ (l' ++ l) e :=
      (Run.origin h₀ (hrun.trans (.cons hrun' hstep))).2.1
    cases hstep with
    | arrive => exact hbefore
    | env moves =>
      cases moves
      exact hbefore
    | @call j req op cont ans s' _ answered =>
      intro r hr hid
      cases Answered.nodes answered with
      | same kept => exact hbefore r (kept ▸ hr) hid
      | @insert m done =>
        have hr : r ∈ s'.nodes.rows := hr
        rw [(NodeTable.insert_ok done).1] at hr
        rcases List.mem_append.mp hr with hr | hr
        · exact hbefore r hr hid
        · -- an id that was there is not inserted again
          cases List.mem_singleton.mp hr
          exact absurd (hid ▸ hentered.append l') (hguar.insert j _ ⟨req, rfl⟩).2
      | delete done =>
        have hr : r ∈ s'.nodes.rows := hr
        rw [done] at hr
        exact hbefore r (List.mem_filter.mp hr).1 hid
      | @update m done =>
        rcases NodeTable.mem_update done hr with ⟨-, hold⟩ | ⟨r', -, -, rfl⟩
        · exact hbefore r hold hid
        · exact absurd hid (hkept _ _ List.mem_cons_self m ⟨j, req, rfl⟩)

/-- A write after the thread's last call comes after its reading. -/
theorem rewrittenSince_append {later earlier : MasterHistory D}
    (hnone : ∀ t req op ans, (t, .call k req op ans) ∉ later) {e : Event (clusterSig D) Request}
    {m : Node} (hmem : (s, e) ∈ later) (hup : Updates m e) (hid : m.id = id) :
    RewrittenSince k id (later ++ earlier) := by
  induction later with
  | nil => cases hmem
  | cons x later ih =>
    obtain ⟨t, f⟩ := x
    have hreads : ¬ ReadsDoomed k f := by
      rintro ⟨name, ans, rfl⟩
      exact hnone _ _ _ _ List.mem_cons_self
    refine ⟨hreads, ?_⟩
    rcases List.mem_cons.mp hmem with heq | hmem
    · cases heq
      exact .inl ⟨m, hup, hid⟩
    · exact .inr (ih (fun t req op ans h => hnone t req op ans (List.mem_cons_of_mem _ h)) hmem)

/-- When `remove_node` deletes a row, the row is a master's, or it is
draining, or it has been written since that `remove_node` read it. -/
theorem removed_was_drained (h₀ : ∀ r ∈ s₀.nodes.rows, r.id ∈ s₀.drawn) {name : String}
    {ans : Except NexaError Unit} (hrun : Run (master D sha256 server arrives) (.idle s₀)
      ((s, .call k (.removeNode name) (.store (.deleteNode id)) ans) :: l) p) {r : Node}
    (hr : r ∈ s.nodes.rows) (hid : r.id = id) :
    r.role = .master ∨ r.status = .draining ∨ RewrittenSince k id l := by
  cases hrun with
  | cons hrun hstep =>
  cases hstep with
  | call at_call _ =>
  obtain ⟨n, hcalls, hn, hguard⟩ := removeNode_path (hrun.path at_call)
  have hread : ⟨.store (.getNodeByName name), .ok (some n)⟩ ∈ l.calls k := by
    rw [hcalls]
    exact List.mem_cons_self
  obtain ⟨s', req, hmem⟩ := History.mem_calls.mp hread
  obtain ⟨later, earlier, q, q', rfl, rfl, hbefore, hstep, hafter⟩ := hrun.split hmem
  have hnone : ∀ t req op ans, (t, .call k req op ans) ∉ later := by
    intro t req op ans hcall
    have hlater : ⟨op, ans⟩ ∈ later.calls k := History.mem_calls.mpr ⟨t, req, hcall⟩
    have hlength := congrArg List.length ((History.calls_split k later ..).symm.trans hcalls)
    have hpos := List.length_pos_of_mem hlater
    simp only [List.length_append, List.length_cons, List.length_nil] at hlength
    omega
  by_cases hwritten : ∃ t e m, (t, e) ∈ later ∧ Updates m e ∧ m.id = id
  · obtain ⟨t, e, m, he, hup, hm⟩ := hwritten
    exact .inr (.inr (rewrittenSince_append hnone he hup hm))
  · have hkept : ∀ t e, (t, e) ∈ later → ∀ m, Updates m e → m.id ≠ n.id :=
      fun t e he m hup heq => hwritten ⟨t, e, m, he, hup, heq.trans hn⟩
    have hread : n ∈ q'.state.nodes.rows := by
      cases hstep with
      | call _ answered =>
        cases Answered.nodes answered with
        | same kept =>
          rw [Pool.set, kept]
          exact (Answered.getNodeByName answered).1
    have hrow : r = n := row_kept h₀ (.cons hbefore hstep) hread hafter hkept r hr (hid.trans hn.symm)
    rcases hguard with hstatus | hrole
    · exact .inr (.inl (hrow ▸ hstatus))
    · exact .inl (hrow ▸ hrole)

end Run

section Guard

theorem removed_was_drained_worker : ∃ (l : MasterHistory .plain) (p : MasterPool .plain),
    Run openMaster (.idle (oneWorker .draining)) ((oneWorker .draining, .call 0 (.removeNode "w1")
      (.store (.deleteNode worker.id)) (.ok ())) :: l) p ∧
    (drainedWorker.role = .master ∨ drainedWorker.status = .draining ∨
      RewrittenSince 0 worker.id l) := by
  have hdelete : (StoreCall.deleteNode worker.id).run (oneWorker .draining) = (.ok (), emptied) := rfl
  have hrun := (Run.start openMaster (.idle (oneWorker .draining))).arrive 0
      (.removeNode "w1") rfl trivial
    |>.call 0 rfl (.store read_drained) |>.call 0 rfl (.store hdelete)
  have hdrawn : ∀ r ∈ (oneWorker .draining).nodes.rows, r.id ∈ (oneWorker .draining).drawn := by
    simp [oneWorker, worker]
  exact ⟨_, _, hrun, removed_was_drained hdrawn hrun (r := drainedWorker) List.mem_cons_self rfl⟩

/-- A master is removed without having been drained. -/
theorem master_removed_undrained : ∃ (l : MasterHistory .plain) (p : MasterPool .plain),
    Run openMaster (.idle started) ((started, .call 0 (.removeNode "m1")
      (.store (.deleteNode masterNode.id)) (.ok ())) :: l) p ∧
    masterNode ∈ started.nodes.rows ∧ masterNode.status ≠ .draining := by
  have hread : (StoreCall.getNodeByName "m1").run started = (.ok (some masterNode), started) := rfl
  have hdelete : (StoreCall.deleteNode masterNode.id).run started =
      (.ok (), { started with nodes := started.nodes.delete masterNode.id }) := rfl
  have hrun := (Run.start openMaster (.idle started)).arrive 0 (.removeNode "m1") rfl trivial
    |>.call 0 rfl (.store hread) |>.call 0 rfl (.store hdelete)
  exact ⟨_, _, hrun, List.mem_cons_self, nofun⟩

end Guard

end Nexad.Cluster
