import Nexad.Laws.Cluster.Origin

/-!
# Registrations in any order

`register` looks for the name and then inserts, in two calls, so what keeps
names apart is the table's constraint. A registration that is accepted has
inserted its node (`registered`); one that is not has changed nothing; and two
of one name are both accepted only when the name was removed in between
(`registration_safe`).
-/

namespace Nexad.Cluster

open Interleave

variable {D : Domain} {sha256 : List UInt8 → List UInt8} {server : ClusterServer}

/-- A call of the cluster with its answer. -/
abbrev ClusterCall (D : Domain) := (op : (clusterSig D).Op) × (clusterSig D).Ans op

/-! ## What one registration does -/

/-- The registration draws this node and inserts it, and both succeed. -/
def Registers (reg : RegisterRequest) (n : Node) (calls : List (ClusterCall D)) : Prop :=
  ⟨.newNode reg.nodeName reg.nodeAddress .worker (reg.resources.getD D.zeroResources), n⟩ ∈ calls ∧
    ⟨.store (.insertNode n), .ok ()⟩ ∈ calls

/-- No insertion among the calls has succeeded. -/
def InsertsNothing (calls : List (ClusterCall D)) : Prop :=
  ∀ n, ⟨.store (.insertNode n), .ok ()⟩ ∉ calls

/-- The answer of an accepted registration. -/
def accepted (D : Domain) (n : Node) : Reply := .register ⟨D.uuid.print n.id, true, "registered"⟩

/-- The registration is answered, and not accepted. -/
def Rejected (q : Code D) : Prop :=
  ∃ reply, q = .ret reply ∧ ∀ resp, reply = .register resp → resp.accepted = false

theorem insertsNothing_nil : InsertsNothing ([] : List (ClusterCall D)) := fun _ => List.not_mem_nil

theorem InsertsNothing.cons {c : ClusterCall D} {calls : List (ClusterCall D)}
    (h : InsertsNothing calls) (hc : ∀ n, c ≠ ⟨.store (.insertNode n), .ok ()⟩) :
    InsertsNothing (c :: calls) := by
  intro n hmem
  rcases List.mem_cons.mp hmem with heq | hmem
  · exact hc n heq.symm
  · exact h n hmem

theorem admitNode_path {reg : RegisterRequest} {calls : List (ClusterCall D)} {q : Code D}
    (h : (admitNode D reg).Path calls q) :
    (∃ n, Registers reg n calls ∧ q = .ret (accepted D n)) ∨
      InsertsNothing calls ∧ ((∃ op cont, q = .call op cont) ∨ Rejected q) := by
  unfold admitNode ask at h
  cases h with
  | refl => exact .inr ⟨insertsNothing_nil, .inl ⟨_, _, rfl⟩⟩
  | call node rest =>
    have hdrawn : InsertsNothing [(⟨.newNode reg.nodeName reg.nodeAddress .worker
        (reg.resources.getD D.zeroResources), node⟩ : ClusterCall D)] :=
      insertsNothing_nil.cons fun n he => by cases he
    cases rest with
    | refl => exact .inr ⟨hdrawn, .inl ⟨_, _, rfl⟩⟩
    | call inserted rest =>
      match inserted with
      | .ok () =>
        cases rest
        exact .inl ⟨node, ⟨by simp, by simp⟩, rfl⟩
      | .error e =>
        cases rest
        refine .inr ⟨(insertsNothing_nil.cons fun n he => ?_).cons fun n he => ?_,
          .inr ⟨_, rfl, by simp⟩⟩
        · cases he
        · cases he

/-- A registration is accepted with the node it has inserted, or has inserted
nothing and is not accepted, so far. -/
theorem register_path {reg : RegisterRequest} {calls : List (ClusterCall D)} {q : Code D}
    (h : (server.register D sha256 reg).Path calls q) :
    (∃ n, Registers reg n calls ∧ q = .ret (accepted D n)) ∨
      InsertsNothing calls ∧ ((∃ op cont, q = .call op cont) ∨ Rejected q) := by
  unfold ClusterServer.register at h
  split at h
  · cases h
    exact .inr ⟨insertsNothing_nil, .inr ⟨_, rfl, by simp [refused]⟩⟩
  · unfold ask at h
    cases h with
    | refl => exact .inr ⟨insertsNothing_nil, .inl ⟨_, _, rfl⟩⟩
    | @call _ _ _ calls found rest =>
      have hread : ∀ n, (⟨.store (.getNodeByName reg.nodeName), found⟩ : ClusterCall D) ≠
          ⟨.store (.insertNode n), .ok ()⟩ := fun n he => by cases he
      have hadmit : (admitNode D reg).Path calls q →
          (∃ n, Registers reg n (⟨.store (.getNodeByName reg.nodeName), found⟩ :: calls) ∧
            q = .ret (accepted D n)) ∨
          InsertsNothing (⟨.store (.getNodeByName reg.nodeName), found⟩ :: calls) ∧
            ((∃ op cont, q = .call op cont) ∨ Rejected q) := by
        intro hpath
        rcases admitNode_path hpath with ⟨n, hn, hq⟩ | ⟨hnone, hq⟩
        · exact .inl ⟨n, ⟨List.mem_cons_of_mem _ hn.1, List.mem_cons_of_mem _ hn.2⟩, hq⟩
        · exact .inr ⟨hnone.cons hread, hq⟩
      match found with
      | .ok (some _) =>
        cases rest
        exact .inr ⟨insertsNothing_nil.cons hread, .inr ⟨_, rfl, by simp [refused]⟩⟩
      | .ok none => exact hadmit rest
      | .error _ => exact hadmit rest

/-! ## Runs -/

/-- The registration of thread `k` has been accepted with this id. -/
def IsAccepted (p : MasterPool D) (k : Nat) (reg : RegisterRequest) (nodeId : String) : Prop :=
  ∃ message, p.thread k = some (.register reg, .ret (.register ⟨nodeId, true, message⟩))

/-- The registration of thread `k` has been answered, and not accepted. -/
def IsRejected (p : MasterPool D) (k : Nat) (reg : RegisterRequest) : Prop :=
  ∃ q, p.thread k = some (.register reg, q) ∧ Rejected q

/-- The node is the one that the registration asks for. -/
structure AsRequested (D : Domain) (reg : RegisterRequest) (n : Node) : Prop where
  role : n.role = .worker
  name : n.name = reg.nodeName
  address : n.address = reg.nodeAddress
  resources : n.resources = reg.resources.getD D.zeroResources

/-- A row with this name is deleted. -/
def RemovesName (name : String) (s : Shared D) (e : Event (clusterSig D) Request) : Prop :=
  ∃ id, Deletes id e ∧ ∃ r ∈ s.nodes.rows, r.id = id ∧ r.name = name

/-- A call of thread `k` changes no row, no configuration and no pod. -/
def LeavesAlone (k : Nat) (s : Shared D) (e : Event (clusterSig D) Request) (s' : Shared D) : Prop :=
  ∀ req op ans, e = .call k req op ans →
    s'.nodes = s.nodes ∧ s'.config = s.config ∧ s'.pods = s.pods

section Run

variable {arrives : Request → Prop} {s₀ : Shared D} {l : MasterHistory D} {p : MasterPool D}
  {k : Nat} {reg : RegisterRequest}

/-- An accepted registration has inserted the node it asks for. -/
theorem registered (hrun : Run (master D sha256 server arrives) (.idle s₀) l p) {nodeId : String}
    (h : IsAccepted p k reg nodeId) : ∃ s n, (s, .call k (.register reg)
        (.store (.insertNode n)) (.ok ())) ∈ l ∧ AsRequested D reg n ∧ nodeId = D.uuid.print n.id := by
  obtain ⟨message, hk⟩ := h
  have hpath : (server.register D sha256 reg).Path (l.calls k) _ := hrun.path hk
  rcases register_path hpath with ⟨n, ⟨hnew, hins⟩, hq⟩ | ⟨-, ⟨op, cont, hq⟩ | ⟨reply, hq, hreply⟩⟩
  · cases hq
    obtain ⟨s, req, hmem⟩ := History.mem_calls.mp hins
    obtain ⟨q, hq⟩ := hrun.thread_of_call hmem
    rw [hk] at hq
    cases hq
    refine ⟨s, n, hmem, ?_, rfl⟩
    obtain ⟨s', req', hmem'⟩ := History.mem_calls.mp hnew
    obtain ⟨-, -, q, q', -, -, -, hstep, -⟩ := hrun.split hmem'
    cases hstep with
    | call _ answered =>
      obtain ⟨hname, haddress, hrole, hresources⟩ := Answered.newNode_fields answered
      exact ⟨hrole, hname, haddress, hresources⟩
  · cases hq
  · cases hq
    exact absurd (hreply _ rfl) (by simp)

/-- A call of a registration that does not insert changes nothing. -/
theorem Answered.leavesAlone {s s' : Shared D} {op : Op D} {ans : op.Ans D}
    (h : Answered s op ans s') (hmakes : Makes sha256 (.register reg) op)
    (hins : ∀ n, (⟨op, ans⟩ : ClusterCall D) ≠ ⟨.store (.insertNode n), .ok ()⟩) :
    s'.nodes = s.nodes ∧ s'.config = s.config ∧ s'.pods = s.pods := by
  refine ⟨?_, ?_, Answered.pods h⟩
  · cases Answered.nodes h with
    | same kept => exact kept
    | insert => exact absurd rfl (hins _)
    | update => cases hmakes
    | delete => cases hmakes
  · funext key
    rcases Answered.config h key with hsame | ⟨value, heq, -⟩
    · exact hsame
    · cases heq
      cases hmakes with
      | issueHash issues => exact absurd issues (by simp)
      | issueToken issues => exact absurd issues (by simp)

/-- A registration that is not accepted changes nothing. -/
theorem rejected_leavesAlone (hrun : Run (master D sha256 server arrives) (.idle s₀) l p)
    (h : IsRejected p k reg) : l.Steps (fun _ s e s' => LeavesAlone k s e s') p.state := by
  obtain ⟨q, hk, hrejected⟩ := h
  have hpath : (server.register D sha256 reg).Path (l.calls k) q := hrun.path hk
  have hnone : InsertsNothing (l.calls k) := by
    rcases register_path hpath with ⟨n, -, hq⟩ | ⟨hnone, -⟩
    · obtain ⟨reply, hreply, hresp⟩ := hrejected
      cases hq.symm.trans hreply
      exact absurd (hresp _ rfl) (by simp)
    · exact hnone
  refine Interleave.Run.steps hrun fun q e q' hstep hmem req op ans he => ?_
  subst he
  obtain ⟨r, hr⟩ := hrun.thread_of_call hmem
  rw [hk] at hr
  cases hr
  have hmakes := (Run.makes hrun hmem).2
  have hcall : ⟨op, ans⟩ ∈ l.calls k := History.mem_calls.mpr ⟨_, _, hmem⟩
  cases hstep with
  | call _ answered =>
    exact Answered.leavesAlone answered hmakes fun n heq => hnone n (heq ▸ hcall)

/-- A name that is not removed stays. -/
theorem name_stays (h₀ : ∀ r ∈ s₀.nodes.rows, r.id ∈ s₀.drawn)
    (hrun : Run (master D sha256 server arrives) (.idle s₀) l p) {name : String}
    {l' : MasterHistory D} {p' : MasterPool D}
    (hlater : Run (master D sha256 server arrives) p l' p')
    (hremoved : ∀ s e, (s, e) ∈ l' → ¬ RemovesName name s e)
    (hname : ∃ r ∈ p.state.nodes.rows, r.name = name) :
    ∃ r ∈ p'.state.nodes.rows, r.name = name := by
  induction hlater with
  | nil => exact hname
  | @cons l' q q' e hrun' hstep ih =>
    obtain ⟨r, hr, hrname⟩ := ih fun s e hmem => hremoved s e (List.mem_cons_of_mem _ hmem)
    have hinv := (Run.origin h₀ (hrun.trans hrun')).1
    have hguar : OriginGuar s₀ (l' ++ l) e :=
      (Run.origin h₀ (hrun.trans (.cons hrun' hstep))).2.1
    cases hstep with
    | arrive => exact ⟨r, hr, hrname⟩
    | env moves =>
      cases moves
      exact ⟨r, hr, hrname⟩
    | @call k req op cont ans s' _ answered =>
      have hrows : ∃ r ∈ s'.nodes.rows, r.name = name := by
        cases Answered.nodes answered with
        | same kept => exact ⟨r, kept ▸ hr, hrname⟩
        | insert done =>
          refine ⟨r, ?_, hrname⟩
          rw [(NodeTable.insert_ok done).1]
          exact List.mem_append_left _ hr
        | @delete id done =>
          have hid : r.id ≠ id := fun hid =>
            hremoved _ _ List.mem_cons_self ⟨id, ⟨k, req, rfl⟩, r, hr, hid, hrname⟩
          refine ⟨r, ?_, hrname⟩
          rw [done]
          exact List.mem_filter.mpr ⟨hr, decide_eq_true hid⟩
        | @update n done =>
          refine ⟨NodeTable.written n r, ?_, ?_⟩
          · rw [(NodeTable.update_ok done).2]
            exact List.mem_map.mpr ⟨r, hr, rfl⟩
          · -- what is written over the row is a record of the same machine
            unfold NodeTable.written
            split
            · next hid =>
              have hsame := hinv.same_machine h₀ (hinv.known r hr)
                (hguar.update n ⟨_, _, rfl⟩) hid
              exact hsame.name.symm.trans hrname
            · exact hrname
      exact hrows

/-- A node that is inserted had a free name, and is there afterwards. -/
theorem Step.inserts {q q' : MasterPool D} {e : Event (clusterSig D) Request} {n : Node}
    (h : Step (master D sha256 server arrives) q e q') (hins : Inserts k n e) :
    (∀ r ∈ q.state.nodes.rows, r.name ≠ n.name) ∧ n ∈ q'.state.nodes.rows := by
  obtain ⟨req, rfl⟩ := hins
  cases h with
  | call _ answered =>
    obtain ⟨hrows, -, hname⟩ := NodeTable.insert_ok (Answered.insert answered)
    refine ⟨fun r hr heq => hname (List.mem_map.mpr ⟨r, hr, heq⟩), ?_⟩
    rw [Pool.set, hrows]
    exact List.mem_append_right _ List.mem_cons_self

/-- Two insertions of one name need a removal in between. -/
theorem inserted_once (h₀ : ∀ r ∈ s₀.nodes.rows, r.id ∈ s₀.drawn)
    (hrun : Run (master D sha256 server arrives) (.idle s₀) l p) {name : String}
    {l' : MasterHistory D} {p' : MasterPool D}
    (hlater : Run (master D sha256 server arrives) p l' p')
    (hremoved : ∀ s e, (s, e) ∈ l' → ¬ RemovesName name s e) {s t : Shared D}
    {e f : Event (clusterSig D) Request} {j : Nat} {n m : Node} (he : (s, e) ∈ l')
    (hf : (t, f) ∈ l') (hins : Inserts k n e) (hins' : Inserts j m f) (hn : n.name = name)
    (hm : m.name = name) : k = j := by
  obtain ⟨later, earlier, q, q', rfl, rfl, hbefore, hstep, hafter⟩ := hlater.split he
  obtain ⟨hfree, hadded⟩ := Step.inserts hstep hins
  have hrun' := hrun.trans hbefore
  rcases List.mem_append.mp hf with hf | hf
  · -- the other insertion comes later, and finds the name taken
    obtain ⟨later', between, r, r', rfl, rfl, hbetween, hstep', -⟩ := hafter.split hf
    obtain ⟨hfree', -⟩ := Step.inserts hstep' hins'
    obtain ⟨row, hrow, hname⟩ := name_stays h₀ (hrun'.trans (.cons .nil hstep)) hbetween
      (fun s e hmem => hremoved s e (by simp [hmem])) ⟨n, hadded, hn⟩
    exact absurd (hname.trans hm.symm) (hfree' row hrow)
  · rcases List.mem_cons.mp hf with heq | hf
    · cases heq
      obtain ⟨req, rfl⟩ := hins
      obtain ⟨req', he⟩ := hins'
      cases he
      rfl
    · -- the other insertion came before, and this one finds the name taken
      obtain ⟨between, earlier', r, r', rfl, rfl, hbefore', hstep', hbetween⟩ := hbefore.split hf
      obtain ⟨-, hadded'⟩ := Step.inserts hstep' hins'
      obtain ⟨row, hrow, hname⟩ := name_stays h₀ (hrun.trans (.cons hbefore' hstep')) hbetween
        (fun s e hmem => hremoved s e (by simp [hmem])) ⟨m, hadded', hm⟩
      exact absurd (hname.trans hn.symm) (hfree row hrow)

/-- Registrations are safe in any interleaving: rows never share an id or a
name; an accepted registration has inserted the row that it asked for, with
the id it answers; of the registrations of one name that run while that name
is not removed one is accepted at most; and one that is not accepted has
changed nothing. -/
theorem registration_safe (h₀ : ∀ r ∈ s₀.nodes.rows, r.id ∈ s₀.drawn)
    (hrun : Run (master D sha256 server arrives) (.idle s₀) l p) :
    (∀ s, Run.Visited l p s →
      (s.nodes.rows.map Node.id).Nodup ∧ (s.nodes.rows.map Node.name).Nodup) ∧
    (∀ k reg nodeId, IsAccepted p k reg nodeId → ∃ n, AsRequested D reg n ∧
      nodeId = D.uuid.print n.id ∧ ∃ s s', (s, .call k (.register reg) (.store (.insertNode n))
        (.ok ())) ∈ l ∧ s.nodes.insert n = .ok s' ∧ n ∈ s'.rows) ∧
    (∀ l' p' name, Run (master D sha256 server arrives) p l' p' →
      (∀ s e, (s, e) ∈ l' → ¬ RemovesName name s e) → ∀ j k reg reg' nodeId nodeId',
        p.thread j = none → p.thread k = none → reg.nodeName = name → reg'.nodeName = name →
          IsAccepted p' j reg nodeId → IsAccepted p' k reg' nodeId' → j = k) ∧
    ∀ k reg, IsRejected p k reg → l.Steps (fun _ s e s' => LeavesAlone k s e s') p.state := by
  refine ⟨fun s _ => ⟨s.nodes.ids, s.nodes.names⟩, ?_, ?_, ?_⟩
  · intro k reg nodeId haccepted
    obtain ⟨s, n, hmem, hn, hid⟩ := registered hrun haccepted
    obtain ⟨-, -, q, q', -, rfl, -, hstep, -⟩ := hrun.split hmem
    cases hstep with
    | call _ answered =>
      have hinsert := Answered.insert answered
      refine ⟨n, hn, hid, q.state, _, hmem, hinsert, ?_⟩
      rw [(NodeTable.insert_ok hinsert).1]
      exact List.mem_append_right _ List.mem_cons_self
  · intro l' p' name hlater hremoved j k reg reg' nodeId nodeId' hj hk hreg hreg' haccepted haccepted'
    have hmem : ∀ {i : Nat} {r : RegisterRequest} {id : String}, p.thread i = none →
        IsAccepted p' i r id → ∃ s e n, (s, e) ∈ l' ∧ Inserts i n e ∧ n.name = r.nodeName := by
      intro i r id hi hacc
      obtain ⟨s, n, hmem, hn, -⟩ := registered (hrun.trans hlater) hacc
      rcases List.mem_append.mp hmem with hmem | hmem
      · exact ⟨s, _, n, hmem, ⟨_, rfl⟩, hn.name⟩
      · obtain ⟨q, hq⟩ := hrun.thread_of_call hmem
        rw [hi] at hq
        cases hq
    obtain ⟨s, e, n, he, hins, hn⟩ := hmem hj haccepted
    obtain ⟨t, f, m, hf, hins', hm⟩ := hmem hk haccepted'
    exact inserted_once h₀ hrun hlater hremoved he hf hins hins' (hn.trans hreg) (hm.trans hreg')
  · exact fun k reg hrejected => rejected_leavesAlone hrun hrejected

end Run

section Join

/-- A store without rows. -/
def vacant : Shared .plain := ⟨.empty, fun _ => none, [], 0, []⟩

/-- The registration of the worker. -/
def joining : RegisterRequest := ⟨"w1", "10.0.0.2:6444", "", none⟩

/-- A master whose token hash every token has. -/
abbrev openMaster : Machine (clusterSig .plain) (Shared .plain) Request Reply :=
  master .plain (fun _ => []) ⟨""⟩ fun _ => True

/-- The registration of another machine under the same name. -/
def rival : RegisterRequest := ⟨"w1", "10.0.0.3:6444", "", none⟩

/-- The node of it. -/
def rivalNode : Node := { worker with id := ⟨3⟩, address := "10.0.0.3:6444" }

/-- The store once the first of the two has inserted its node. -/
def firstIn : Shared .plain :=
  { vacant with nodes := ⟨[worker], by simp, by simp⟩, drawn := [⟨3⟩, ⟨2⟩] }

/-- Two registrations of one name both find it free. The first to insert is
accepted, and the other is refused by the table and has changed nothing. -/
theorem registration_safe_join : ∃ (l : MasterHistory .plain) (p : MasterPool .plain),
    Run openMaster (.idle vacant) l p ∧ p.state.nodes.rows = [worker] ∧
    IsAccepted p 0 joining (Uuid.hyphenated ⟨2⟩) ∧ IsRejected p 1 rival ∧
    (∀ s, Run.Visited l p s →
      (s.nodes.rows.map Node.id).Nodup ∧ (s.nodes.rows.map Node.name).Nodup) ∧
    (∃ n, AsRequested .plain joining n ∧ ∃ s s', (s, .call 0 (.register joining)
      (.store (.insertNode n)) (.ok ())) ∈ l ∧ s.nodes.insert n = .ok s' ∧ n ∈ s'.rows) ∧
    (∀ k reg nodeId, reg.nodeName = "w1" → IsAccepted p k reg nodeId → 0 = k) ∧
    l.Steps (fun _ s e s' => LeavesAlone 1 s e s') p.state := by
  have hvacant : ∀ r ∈ vacant.nodes.rows, r.id ∈ vacant.drawn := by simp [vacant, NodeTable.empty]
  have hfind : (StoreCall.getNodeByName "w1").run vacant = (.ok none, vacant) := rfl
  have hworker : (⟨2⟩ : Uuid) ∉ vacant.drawn := List.not_mem_nil
  have hrival : (⟨3⟩ : Uuid) ∉ [(⟨2⟩ : Uuid)] := by decide
  have hinsert : (StoreCall.insertNode worker).run { vacant with drawn := [⟨3⟩, ⟨2⟩] } =
      (.ok (), firstIn) := rfl
  have htaken : (StoreCall.insertNode rivalNode).run firstIn =
      (.error (.invalidSpec "node 'w1' already exists"), firstIn) := rfl
  have hrun := (Run.start openMaster (.idle vacant)).arrive 0 (.register joining) rfl trivial
    |>.arrive 1 (.register rival) rfl trivial |>.call 0 rfl (.store hfind)
    |>.call 1 rfl (.store hfind) |>.call 0 rfl (.newNode hworker 0 0)
    |>.call 1 rfl (.newNode hrival 0 0) |>.call 0 rfl (.store hinsert)
    |>.call 1 rfl (.store htaken)
  obtain ⟨hdistinct, hinserted, -, halone⟩ := registration_safe hvacant hrun
  obtain ⟨-, -, honce, -⟩ := registration_safe hvacant (.nil : Run openMaster (.idle vacant) [] _)
  obtain ⟨n, hn, -, hin⟩ := hinserted 0 joining (Uuid.hyphenated ⟨2⟩) ⟨"registered", rfl⟩
  have hsteps := halone 1 rival ⟨_, rfl, _, rfl, fun _ h => by cases h⟩
  refine ⟨_, _, hrun, rfl, ⟨"registered", rfl⟩, ⟨_, rfl, _, rfl, fun _ h => by cases h⟩,
    hdistinct, ⟨n, hn, hin⟩, ?_, hsteps⟩
  intro k reg nodeId hname hother
  refine honce _ _ "w1" hrun ?_ 0 k joining reg _ nodeId rfl rfl rfl hname ⟨"registered", rfl⟩ hother
  -- nothing is deleted in this run
  rintro s e hmem ⟨id, ⟨k, req, rfl⟩, -⟩
  simp only [List.mem_cons, List.not_mem_nil, or_false, Prod.mk.injEq] at hmem
  rcases hmem with h | h | h | h | h | h | h | h <;> cases h.2

end Join

end Nexad.Cluster
