import Nexad.Laws.Cluster.System

/-!
# Where a row comes from

Every id is drawn once and inserted at most once, by the thread that drew it.
A heartbeat task, a monitor pass and a drain write back a row they have read,
so what they write is some machine that was there when the run began or that a
registration drew: `Known`. No write changes a row's id, name, address or
role, and a row that was deleted does not come back (`OriginInv.gone`).

The proof is an outline whose assertions speak of the history only, which no
step takes back.
-/

namespace Nexad.Cluster

open Interleave

variable {D : Domain} {sha256 : List UInt8 → List UInt8} {server : ClusterServer}

/-! ## Events of nodes -/

/-- Thread `k` draws this node. -/
def Draws (k : Nat) (n : Node) (e : Event (clusterSig D) Request) : Prop :=
  ∃ req name address role resources, e = .call k req (.newNode name address role resources) n

/-- Thread `k` inserts this node. -/
def Inserts (k : Nat) (n : Node) (e : Event (clusterSig D) Request) : Prop :=
  ∃ req, e = .call k req (.store (.insertNode n)) (.ok ())

/-- The node is written over the row with its id. -/
def Updates (n : Node) (e : Event (clusterSig D) Request) : Prop :=
  ∃ k req, e = .call k req (.store (.updateNode n)) (.ok ())

/-- The row with this id is deleted. -/
def Deletes (id : Uuid) (e : Event (clusterSig D) Request) : Prop :=
  ∃ k req, e = .call k req (.store (.deleteNode id)) (.ok ())

/-- Thread `k` drew this node. -/
def Drew (k : Nat) (n : Node) (l : MasterHistory D) : Prop := ∃ s e, (s, e) ∈ l ∧ Draws k n e

/-- A node with this id was inserted. -/
def Inserted (id : Uuid) (l : MasterHistory D) : Prop :=
  ∃ s e k n, (s, e) ∈ l ∧ Inserts k n e ∧ n.id = id

/-- A row with this id was deleted. -/
def Removed (id : Uuid) (l : MasterHistory D) : Prop :=
  ∃ s e, (s, e) ∈ l ∧ Deletes id e ∧ ∃ r ∈ s.nodes.rows, r.id = id

section Cons

variable {k : Nat} {n : Node} {id : Uuid} {s : Shared D} {e : Event (clusterSig D) Request}
  {l : MasterHistory D}

theorem drew_cons : Drew k n ((s, e) :: l) ↔ Draws k n e ∨ Drew k n l := by
  simp [Drew, or_and_right, exists_or]

theorem inserted_cons :
    Inserted id ((s, e) :: l) ↔ (∃ k n, Inserts k n e ∧ n.id = id) ∨ Inserted id l := by
  simp only [Inserted, List.mem_cons, Prod.mk.injEq]
  constructor
  · rintro ⟨s', e', k, n, ⟨rfl, rfl⟩ | hmem, hins, hid⟩
    · exact .inl ⟨k, n, hins, hid⟩
    · exact .inr ⟨s', e', k, n, hmem, hins, hid⟩
  · rintro (⟨k, n, hins, hid⟩ | ⟨s', e', k, n, hmem, hins, hid⟩)
    · exact ⟨s, e, k, n, .inl ⟨rfl, rfl⟩, hins, hid⟩
    · exact ⟨s', e', k, n, .inr hmem, hins, hid⟩

theorem removed_cons : Removed id ((s, e) :: l) ↔
    (Deletes id e ∧ ∃ r ∈ s.nodes.rows, r.id = id) ∨ Removed id l := by
  simp only [Removed, List.mem_cons, Prod.mk.injEq]
  constructor
  · rintro ⟨s', e', ⟨rfl, rfl⟩ | hmem, hdel⟩
    · exact .inl hdel
    · exact .inr ⟨s', e', hmem, hdel⟩
  · rintro (hdel | ⟨s', e', hmem, hdel⟩)
    · exact ⟨s, e, .inl ⟨rfl, rfl⟩, hdel⟩
    · exact ⟨s', e', .inr hmem, hdel⟩

theorem Drew.cons (h : Drew k n l) (x : Shared D × Event (clusterSig D) Request) :
    Drew k n (x :: l) := drew_cons.mpr (.inr h)

/-- A draw inserts nothing. -/
theorem Draws.not_inserts (h : Draws k n e) (j : Nat) (m : Node) : ¬ Inserts j m e := by
  obtain ⟨req, name, address, role, resources, rfl⟩ := h
  rintro ⟨req', he⟩
  cases he

/-- A draw deletes nothing. -/
theorem Draws.not_deletes (h : Draws k n e) (id : Uuid) : ¬ Deletes id e := by
  obtain ⟨req, name, address, role, resources, rfl⟩ := h
  rintro ⟨j, req', he⟩
  cases he

end Cons

/-! ## Machines -/

/-- Two records of one machine. -/
structure SameMachine (n m : Node) : Prop where
  id : n.id = m.id
  name : n.name = m.name
  address : n.address = m.address
  role : n.role = m.role

theorem SameMachine.refl (n : Node) : SameMachine n n := ⟨rfl, rfl, rfl, rfl⟩

theorem SameMachine.symm {n m : Node} (h : SameMachine n m) : SameMachine m n :=
  ⟨h.id.symm, h.name.symm, h.address.symm, h.role.symm⟩

theorem SameMachine.trans {n m r : Node} (h : SameMachine n m) (h' : SameMachine m r) :
    SameMachine n r :=
  ⟨h.id.trans h'.id, h.name.trans h'.name, h.address.trans h'.address, h.role.trans h'.role⟩

/-- A record of a machine that was stored at first or was drawn since. -/
def Known (s₀ : Shared D) (n : Node) (l : MasterHistory D) : Prop :=
  ∃ m, (m ∈ s₀.nodes.rows ∨ ∃ k, Drew k m l) ∧ SameMachine m n

/-- A row with this id was stored at first or was inserted since. -/
def Entered (s₀ : Shared D) (id : Uuid) (l : MasterHistory D) : Prop :=
  (∃ r ∈ s₀.nodes.rows, r.id = id) ∨ Inserted id l

theorem Known.cons {s₀ : Shared D} {n : Node} {l : MasterHistory D} (h : Known s₀ n l)
    (x : Shared D × Event (clusterSig D) Request) : Known s₀ n (x :: l) := by
  obtain ⟨m, hm, hsame⟩ := h
  refine ⟨m, hm.imp_right fun hdrew => ?_, hsame⟩
  obtain ⟨k, hdrew⟩ := hdrew
  exact ⟨k, hdrew.cons x⟩

theorem Known.same {s₀ : Shared D} {n n' : Node} {l : MasterHistory D} (h : Known s₀ n l)
    (hsame : SameMachine n n') : Known s₀ n' l := by
  obtain ⟨m, hm, hmn⟩ := h
  exact ⟨m, hm, hmn.trans hsame⟩

theorem Entered.cons {s₀ : Shared D} {id : Uuid} {l : MasterHistory D} (h : Entered s₀ id l)
    (x : Shared D × Event (clusterSig D) Request) : Entered s₀ id (x :: l) :=
  h.imp_right fun hins => inserted_cons.mpr (.inr hins)

/-! ## The contract -/

/-- What holds before every step of a run from `s₀`. -/
structure OriginInv (s₀ : Shared D) (l : MasterHistory D) (s : Shared D) : Prop where
  drawn : ∀ id ∈ s₀.drawn, id ∈ s.drawn
  drew : ∀ k n, Drew k n l → n.id ∈ s.drawn ∧ n.id ∉ s₀.drawn
  once : ∀ j k n m, Drew j n l → Drew k m l → n.id = m.id → j = k ∧ n = m
  inserted : ∀ id, Inserted id l → ∃ k n, Drew k n l ∧ n.id = id
  known : ∀ r ∈ s.nodes.rows, Known s₀ r l
  entered : ∀ r ∈ s.nodes.rows, Entered s₀ r.id l
  gone : ∀ id, Removed id l → Entered s₀ id l ∧ ∀ r ∈ s.nodes.rows, r.id ≠ id

/-- What every step guarantees. -/
structure OriginGuar (s₀ : Shared D) (l : MasterHistory D) (e : Event (clusterSig D) Request) :
    Prop where
  insert : ∀ k n, Inserts k n e → Drew k n l ∧ ¬ Entered s₀ n.id l
  update : ∀ n, Updates n e → Known s₀ n l

/-- The contract of all runs from `s₀`. -/
def originContract (s₀ : Shared D) : Contract (clusterSig D) (Shared D) Request where
  inv := OriginInv s₀
  allowed := fun _ _ _ => True
  guar := fun l _ e _ => OriginGuar s₀ l e

section Inv

variable {s₀ s s' : Shared D} {l : MasterHistory D} {e : Event (clusterSig D) Request}

/-- An entered id has been drawn. -/
theorem OriginInv.drawn_of_entered (h : OriginInv s₀ l s)
    (h₀ : ∀ r ∈ s₀.nodes.rows, r.id ∈ s₀.drawn) {id : Uuid} (hid : Entered s₀ id l) :
    id ∈ s.drawn := by
  rcases hid with ⟨r, hr, rfl⟩ | hins
  · exact h.drawn _ (h₀ r hr)
  · obtain ⟨k, n, hdrew, rfl⟩ := h.inserted id hins
    exact (h.drew k n hdrew).1

/-- Two records with one id are records of one machine. -/
theorem OriginInv.same_machine (h : OriginInv s₀ l s)
    (h₀ : ∀ r ∈ s₀.nodes.rows, r.id ∈ s₀.drawn) {n m : Node} (hn : Known s₀ n l)
    (hm : Known s₀ m l) (hid : n.id = m.id) : SameMachine n m := by
  obtain ⟨n', hn', hsame⟩ := hn
  obtain ⟨m', hm', hsame'⟩ := hm
  have hid' : n'.id = m'.id := (hsame.id.trans hid).trans hsame'.id.symm
  suffices heq : n' = m' from hsame.symm.trans (heq ▸ hsame')
  rcases hn' with hn' | ⟨j, hn'⟩
  · rcases hm' with hm' | ⟨k, hm'⟩
    · exact NodeTable.eq_of_id hn' hm' hid'
    · exact absurd (hid' ▸ h₀ n' hn') (h.drew k m' hm').2
  · rcases hm' with hm' | ⟨k, hm'⟩
    · exact absurd (hid' ▸ h₀ m' hm') (h.drew j n' hn').2
    · exact (h.once j k n' m' hn' hm' hid').2

/-- The start. -/
theorem originInv_nil (s₀ : Shared D) : OriginInv s₀ [] s₀ where
  drawn := fun _ h => h
  drew := by simp [Drew]
  once := by simp [Drew]
  inserted := by simp [Inserted]
  known := fun r hr => ⟨r, .inl hr, .refl r⟩
  entered := fun r hr => .inl ⟨r, hr, rfl⟩
  gone := by simp [Removed]

/-- Where nothing is inserted, what was inserted was drawn before. -/
theorem OriginInv.inserted_before (h : OriginInv s₀ l s) (hinserts : ∀ k n, ¬ Inserts k n e)
    (id : Uuid) (hid : Inserted id ((s, e) :: l)) : ∃ k n, Drew k n ((s, e) :: l) ∧ n.id = id := by
  rcases inserted_cons.mp hid with ⟨k, n, hins, -⟩ | hins
  · exact absurd hins (hinserts k n)
  · obtain ⟨k, n, hdrew, hid⟩ := h.inserted id hins
    exact ⟨k, n, hdrew.cons _, hid⟩

/-- A step that neither draws, inserts nor deletes keeps the invariant when
its rows are records of rows that were there. -/
theorem OriginInv.step (h : OriginInv s₀ l s) (hdrawn : s'.drawn = s.drawn)
    (hdraws : ∀ k n, ¬ Draws k n e) (hinserts : ∀ k n, ¬ Inserts k n e)
    (hdeletes : ∀ id, Deletes id e → ∀ r ∈ s'.nodes.rows, r.id ≠ id)
    (hrows : ∀ r ∈ s'.nodes.rows, ∃ r' ∈ s.nodes.rows, r'.id = r.id ∧
      (Known s₀ r' l → Known s₀ r l)) : OriginInv s₀ ((s, e) :: l) s' where
  drawn := fun id hid => hdrawn ▸ h.drawn id hid
  drew := by
    intro k n hdrew
    rw [hdrawn]
    exact h.drew k n ((drew_cons.mp hdrew).resolve_left (hdraws k n))
  once := by
    intro j k n m hn hm
    exact h.once j k n m ((drew_cons.mp hn).resolve_left (hdraws j n))
      ((drew_cons.mp hm).resolve_left (hdraws k m))
  inserted := h.inserted_before hinserts
  known := by
    intro r hr
    obtain ⟨r', hr', -, hknown⟩ := hrows r hr
    exact (hknown (h.known r' hr')).cons _
  entered := by
    intro r hr
    obtain ⟨r', hr', hid, -⟩ := hrows r hr
    exact (hid ▸ h.entered r' hr').cons _
  gone := by
    intro id hremoved
    rcases removed_cons.mp hremoved with ⟨hdel, r, hr, rfl⟩ | hremoved
    · exact ⟨(h.entered r hr).cons _, hdeletes _ hdel⟩
    · refine ⟨(h.gone id hremoved).1.cons _, fun r hr hid => ?_⟩
      obtain ⟨r', hr', hid', -⟩ := hrows r hr
      exact (h.gone id hremoved).2 r' hr' (hid'.trans hid)

/-- A step that leaves rows and ids alone. -/
theorem OriginInv.quiet (h : OriginInv s₀ l s) (hdrawn : s'.drawn = s.drawn)
    (hnodes : s'.nodes = s.nodes) (hdraws : ∀ k n, ¬ Draws k n e)
    (hinserts : ∀ k n, ¬ Inserts k n e) (hdeletes : ∀ id, ¬ Deletes id e) :
    OriginInv s₀ ((s, e) :: l) s' := by
  refine h.step hdrawn hdraws hinserts (fun id hdel => absurd hdel (hdeletes id)) fun r hr => ?_
  rw [hnodes] at hr
  exact ⟨r, hr, rfl, id⟩

/-- A node that has just been drawn is not in yet. -/
theorem OriginInv.fresh (h : OriginInv s₀ l s) (h₀ : ∀ r ∈ s₀.nodes.rows, r.id ∈ s₀.drawn) {k : Nat}
    {n : Node} (hdraws : Draws k n e) (hfresh : n.id ∉ s.drawn) :
    Drew k n ((s, e) :: l) ∧ ¬ Entered s₀ n.id ((s, e) :: l) := by
  refine ⟨drew_cons.mpr (.inl hdraws), fun hid => hfresh (h.drawn_of_entered h₀ ?_)⟩
  refine hid.imp_right fun hins => (inserted_cons.mp hins).resolve_left ?_
  rintro ⟨j, m, hins, -⟩
  exact hdraws.not_inserts j m hins

/-- Thread `k` draws an id that is new. -/
theorem OriginInv.draw (h : OriginInv s₀ l s) {k : Nat} {n : Node} (hdraws : Draws k n e)
    (hfresh : n.id ∉ s.drawn) (hdrawn : s'.drawn = n.id :: s.drawn) (hnodes : s'.nodes = s.nodes) :
    OriginInv s₀ ((s, e) :: l) s' := by
  have honly : ∀ j m, Draws j m e → j = k ∧ m = n := by
    obtain ⟨req, name, address, role, resources, rfl⟩ := hdraws
    rintro j m ⟨req', name', address', role', resources', he⟩
    cases he
    exact ⟨rfl, rfl⟩
  have hold : ∀ j m, Drew j m l → m.id ≠ n.id := fun j m hm hid => hfresh (hid ▸ (h.drew j m hm).1)
  refine ⟨fun id hid => ?_, ?_, ?_, h.inserted_before hdraws.not_inserts, ?_, ?_, ?_⟩
  · rw [hdrawn]
    exact List.mem_cons_of_mem _ (h.drawn id hid)
  · intro j m hm
    rw [hdrawn]
    rcases drew_cons.mp hm with hm | hm
    · obtain ⟨rfl, rfl⟩ := honly j m hm
      exact ⟨List.mem_cons_self, fun hid => hfresh (h.drawn _ hid)⟩
    · exact (h.drew j m hm).imp_left (List.mem_cons_of_mem _)
  · intro i j m m' hm hm' hid
    rcases drew_cons.mp hm with hm | hm
    · obtain ⟨rfl, rfl⟩ := honly i m hm
      rcases drew_cons.mp hm' with hm' | hm'
      · obtain ⟨rfl, rfl⟩ := honly j m' hm'
        exact ⟨rfl, rfl⟩
      · exact absurd hid.symm (hold j m' hm')
    · rcases drew_cons.mp hm' with hm' | hm'
      · obtain ⟨rfl, rfl⟩ := honly j m' hm'
        exact absurd hid (hold i m hm)
      · exact h.once i j m m' hm hm' hid
  · intro r hr
    rw [hnodes] at hr
    exact (h.known r hr).cons _
  · intro r hr
    rw [hnodes] at hr
    exact (h.entered r hr).cons _
  · intro id hremoved
    rw [hnodes]
    exact (h.gone id ((removed_cons.mp hremoved).resolve_left fun hdel =>
      hdraws.not_deletes id hdel.1)).imp_left
      fun hid => hid.cons _

/-- Thread `k` inserts the node it drew. -/
theorem OriginInv.insert (h : OriginInv s₀ l s) {k : Nat} {n : Node} (hinserts : Inserts k n e)
    (hdrew : Drew k n l) (hfree : ¬ Entered s₀ n.id l) (hdrawn : s'.drawn = s.drawn)
    (hrows : s'.nodes.rows = s.nodes.rows ++ [n]) : OriginInv s₀ ((s, e) :: l) s' := by
  have hdraws : ∀ j m, ¬ Draws j m e := by
    obtain ⟨req, rfl⟩ := hinserts
    rintro j m ⟨req', name, address, role, resources, he⟩
    cases he
  have hdeletes : ∀ id, ¬ Deletes id e := by
    obtain ⟨req, rfl⟩ := hinserts
    rintro id ⟨j, req', he⟩
    cases he
  have honly : ∀ j m, Inserts j m e → m = n := by
    obtain ⟨req, rfl⟩ := hinserts
    rintro j m ⟨req', he⟩
    cases he
    rfl
  have hstep : ∀ {j m}, Drew j m ((s, e) :: l) → Drew j m l :=
    fun {j m} hm => (drew_cons.mp hm).resolve_left (hdraws j m)
  have hrow : ∀ {r}, r ∈ s'.nodes.rows → r ∈ s.nodes.rows ∨ r = n := by
    intro r hr
    rw [hrows] at hr
    simpa using hr
  refine ⟨fun id hid => hdrawn ▸ h.drawn id hid, fun j m hm => hdrawn ▸ h.drew j m (hstep hm),
    fun i j m m' hm hm' => h.once i j m m' (hstep hm) (hstep hm'), ?_, ?_, ?_, ?_⟩
  · intro id hins
    rcases inserted_cons.mp hins with ⟨j, m, hins, hid⟩ | hins
    · exact ⟨k, n, hdrew.cons _, honly j m hins ▸ hid⟩
    · obtain ⟨j, m, hm, hid⟩ := h.inserted id hins
      exact ⟨j, m, hm.cons _, hid⟩
  · intro r hr
    rcases hrow hr with hr | rfl
    · exact (h.known r hr).cons _
    · exact ⟨r, .inr ⟨k, hdrew.cons _⟩, .refl r⟩
  · intro r hr
    rcases hrow hr with hr | rfl
    · exact (h.entered r hr).cons _
    · exact .inr (inserted_cons.mpr (.inl ⟨k, r, hinserts, rfl⟩))
  · intro id hremoved
    have hbefore := (removed_cons.mp hremoved).resolve_left fun hdel => hdeletes id hdel.1
    refine ⟨(h.gone id hbefore).1.cons _, fun r hr hid => ?_⟩
    rcases hrow hr with hr | rfl
    · exact (h.gone id hbefore).2 r hr hid
    · exact hfree (hid ▸ (h.gone id hbefore).1)

/-- A call that keeps the contract keeps the invariant. -/
theorem OriginInv.call (h : OriginInv s₀ l s) {k : Nat} {req : Request} {op : Op D}
    {ans : op.Ans D} (hguar : OriginGuar s₀ l (.call k req op ans)) (hanswered : Answered s op ans s') :
    OriginInv s₀ ((s, .call k req op ans) :: l) s' := by
  cases op with
  | newNode name address role resources =>
    cases hanswered with
    | newNode fresh => exact h.draw ⟨_, _, _, _, _, rfl⟩ fresh rfl rfl
  | store c =>
    have hdrawn : s'.drawn = s.drawn := by
      cases hanswered with
      | store run =>
        have hsame := c.run_drawn s
        rw [run] at hsame
        exact hsame
      | fault => rfl
    have hdeletes : ∀ id, Deletes id (.call k req (.store c) ans) → ∀ r ∈ s'.nodes.rows, r.id ≠ id := by
      rintro id ⟨j, req', he⟩ r hr
      cases he
      rw [Answered.delete hanswered] at hr
      exact of_decide_eq_true (List.mem_filter.mp hr).2
    by_cases hinserts : ∃ n, Inserts k n (.call k req (.store c) ans)
    · obtain ⟨n, hins⟩ := hinserts
      obtain ⟨hdrew, hfree⟩ := hguar.insert k n hins
      obtain ⟨req', he⟩ := id hins
      cases he
      exact h.insert hins hdrew hfree hdrawn (NodeTable.insert_ok (Answered.insert hanswered)).1
    · refine h.step hdrawn (fun j m hdraws => ?_) (fun j m hins => ?_) hdeletes fun r hr => ?_
      · obtain ⟨req', name, address, role, resources, he⟩ := hdraws
        cases he
      · obtain ⟨req', he⟩ := id hins
        cases he
        exact hinserts ⟨m, hins⟩
      · cases Answered.nodes hanswered with
        | same kept => exact ⟨r, kept ▸ hr, rfl, id⟩
        | insert done => exact absurd ⟨_, _, rfl⟩ hinserts
        | delete done =>
          rw [done] at hr
          exact ⟨r, (List.mem_filter.mp hr).1, rfl, id⟩
        | @update n done =>
          rcases NodeTable.mem_update done hr with ⟨-, hold⟩ | ⟨r', hr', hid, rfl⟩
          · exact ⟨r, hold, rfl, id⟩
          · exact ⟨r', hr', hid, fun _ => (hguar.update n ⟨_, _, rfl⟩).same ⟨rfl, rfl, rfl, rfl⟩⟩
  | _ =>
    cases hanswered
    exact h.quiet rfl rfl (by rintro j m ⟨_, _, _, _, _, he⟩; cases he)
      (by rintro j m ⟨_, he⟩; cases he) (by rintro id ⟨_, _, he⟩; cases he)

end Inv

/-! ## Outlines -/

section Outline

variable {M : Machine (clusterSig D) (Shared D) Request Reply} {s₀ : Shared D} {k : Nat}
  {req : Request} {P : MasterHistory D → Prop}

/-- A call that inserts nothing, and writes only a machine that is known by
what its thread knows. -/
theorem valid_known (hM : M.answer = Answered) {op : Op D} {cont : op.Ans D → Code D}
    (hmono : ∀ l x, P l → P (x :: l)) (hinsert : ∀ n, op ≠ .store (.insertNode n))
    (hupdate : ∀ n, op = .store (.updateNode n) → ∀ l, P l → Known s₀ n l)
    (hcont : ∀ l s ans s', OriginInv s₀ l s → P l → Answered s op ans s' →
      ∃ Q : MasterHistory D → Shared D → Prop, Q ((s, .call k req op ans) :: l) s' ∧
        Valid M (originContract s₀) k req (cont ans) Q) :
    Valid M (originContract s₀) k req (.call op cont) fun l _ => P l := by
  refine ⟨fun l s e s' _ _ hP _ _ => hmono l (s, e) hP, fun l s ans s' hinv hP _ hanswer => ?_⟩
  rw [hM] at hanswer
  have hguar : OriginGuar s₀ l (.call k req op ans : Event (clusterSig D) Request) := by
    refine ⟨fun j n hins => ?_, fun n hup => ?_⟩
    · obtain ⟨req', he⟩ := hins
      cases he
      exact absurd rfl (hinsert n)
    · obtain ⟨j, req', he⟩ := hup
      cases he
      exact hupdate n rfl l hP
  exact ⟨hguar, OriginInv.call hinv hguar hanswer, hcont l s ans s' hinv hP hanswer⟩

/-- Nothing is known. -/
def Nothing (_ : MasterHistory D) : Prop := True

/-- A call that neither inserts nor writes. -/
theorem valid_nothing (hM : M.answer = Answered) {op : Op D} {cont : op.Ans D → Code D}
    (hinsert : ∀ n, op ≠ .store (.insertNode n))
    (hupdate : ∀ n, op ≠ .store (.updateNode n))
    (hcont : ∀ l s ans s', OriginInv s₀ l s → Answered s op ans s' →
      ∃ Q : MasterHistory D → Shared D → Prop, Q ((s, .call k req op ans) :: l) s' ∧
        Valid M (originContract s₀) k req (cont ans) Q) :
    Valid M (originContract s₀) k req (.call op cont) fun l _ => Nothing l :=
  valid_known hM (fun _ _ _ => trivial) hinsert (fun n hop => absurd hop (hupdate n))
    fun l s ans s' hinv _ hanswer => hcont l s ans s' hinv hanswer

/-- A thread that has nothing more to do. -/
theorem valid_done (reply : Reply) (l : MasterHistory D) (s : Shared D) :
    ∃ Q : MasterHistory D → Shared D → Prop, Q l s ∧
      Valid M (originContract s₀) k req (.ret reply) Q := ⟨fun _ _ => True, trivial, trivial⟩

/-- The registration of a node that its thread has drawn. -/
theorem valid_insert (hM : M.answer = Answered) {n : Node} {cont : Except NexaError Unit → Code D}
    (hcont : ∀ ans, ∃ reply, cont ans = .ret reply) :
    Valid M (originContract s₀) k req (ask (.insertNode n) cont)
      fun l _ => Drew k n l ∧ ¬ Entered s₀ n.id l := by
  refine ⟨fun l s e s' hforeign hinv hP _ hguar => ?_, fun l s ans s' hinv hP _ hanswer => ?_⟩
  · obtain ⟨hdrew, hfree⟩ := hP
    refine ⟨hdrew.cons _, fun hentered => hfree (hentered.imp_right fun hins => ?_)⟩
    refine (inserted_cons.mp hins).resolve_left ?_
    rintro ⟨j, m, hins, hid⟩
    -- only the thread that drew an id inserts it
    obtain ⟨rfl, -⟩ := hinv.once j k m n (hguar.insert j m hins).1 hdrew hid
    obtain ⟨req', he⟩ := hins
    exact hforeign _ _ _ he
  · rw [hM] at hanswer
    have hguar : OriginGuar s₀ l
        (.call k req (.store (.insertNode n)) ans : Event (clusterSig D) Request) := by
      refine ⟨fun j m hins => ?_, fun m hup => ?_⟩
      · obtain ⟨req', he⟩ := hins
        cases he
        exact hP
      · obtain ⟨j, req', he⟩ := hup
        cases he
    obtain ⟨reply, hreply⟩ := hcont ans
    rw [hreply]
    exact ⟨hguar, OriginInv.call hinv hguar hanswer, valid_done reply _ _⟩

theorem valid_register (hM : M.answer = Answered) (h₀ : ∀ r ∈ s₀.nodes.rows, r.id ∈ s₀.drawn)
    (reg : RegisterRequest) : Valid M (originContract s₀) k req
      (server.register D sha256 reg) fun l _ => Nothing l := by
  have hnew : Valid M (originContract s₀) k req (admitNode D reg) fun l _ => Nothing l := by
    refine ⟨fun _ _ _ _ _ _ _ _ _ => trivial, fun l s node s' hinv _ _ hanswer => ?_⟩
    rw [hM] at hanswer
    have hguar : OriginGuar s₀ l (.call k req (.newNode reg.nodeName reg.nodeAddress .worker
        (reg.resources.getD D.zeroResources)) node : Event (clusterSig D) Request) := by
      refine ⟨fun j m hins => ?_, fun m hup => ?_⟩
      · obtain ⟨req', he⟩ := hins
        cases he
      · obtain ⟨j, req', he⟩ := hup
        cases he
    refine ⟨hguar, OriginInv.call hinv hguar hanswer, _, ?_, valid_insert hM fun ans => ?_⟩
    · cases hanswer with
      | newNode fresh => exact hinv.fresh h₀ ⟨_, _, _, _, _, rfl⟩ fresh
    · cases ans with
      | ok => exact ⟨_, rfl⟩
      | error => exact ⟨_, rfl⟩
  unfold ClusterServer.register
  split
  · exact trivial
  · refine valid_nothing hM (by simp) (by simp) fun l s found s' _ _ => ?_
    match found with
    | .ok (some _) => exact valid_done _ _ _
    | .ok none => exact ⟨_, trivial, hnew⟩
    | .error _ => exact ⟨_, trivial, hnew⟩

theorem valid_drain (hM : M.answer = Answered) (name : String) :
    Valid M (originContract s₀) k req (Api.drainNode D name) fun l _ => Nothing l := by
  refine valid_nothing hM (by simp) (by simp) fun l s found s' hinv hanswer => ?_
  match found with
  | .ok none => exact valid_done _ _ _
  | .error _ => exact valid_done _ _ _
  | .ok (some node) =>
    have hknown := hinv.known node (Answered.getNodeByName hanswer).1
    refine ⟨fun l _ => Known s₀ node l, hknown.cons _, ?_⟩
    refine valid_known hM (fun l x hP => hP.cons x) (by simp) (fun n hop l hP => ?_)
      fun l s ans s' _ _ _ => ?_
    · cases hop
      exact hP.same ⟨rfl, rfl, rfl, rfl⟩
    · match ans with
      | .ok () => exact valid_done _ _ _
      | .error _ => exact valid_done _ _ _

theorem valid_remove (hM : M.answer = Answered) (name : String) :
    Valid M (originContract s₀) k req (Api.removeNode D name) fun l _ => Nothing l := by
  refine valid_nothing hM (by simp) (by simp) fun l s found s' _ _ => ?_
  match found with
  | .ok none => exact valid_done _ _ _
  | .error _ => exact valid_done _ _ _
  | .ok (some node) =>
    dsimp only
    split
    · exact valid_done _ _ _
    · refine ⟨fun l _ => Nothing l, trivial, valid_nothing hM (by simp) (by simp)
        fun l s ans s' _ _ => ?_⟩
      match ans with
      | .ok () => exact valid_done _ _ _
      | .error _ => exact valid_done _ _ _

theorem valid_pings (hM : M.answer = Answered) (pings : List HeartbeatPing) :
    Valid M (originContract s₀) k req (ClusterServer.heartbeat D pings) fun l _ => Nothing l := by
  refine heartbeat_rule (C := fun p => Valid M (originContract s₀) k req p fun l _ => Nothing l)
    trivial fun ping _ id rest hrest => ?_
  have hpong : Valid M (originContract s₀) k req (sendPong D rest) fun l _ => Nothing l := by
    refine valid_nothing hM (by simp) (by simp) fun l s closed s' _ _ => ?_
    match closed with
    | true => exact valid_done _ _ _
    | false => exact ⟨_, trivial, hrest⟩
  refine valid_nothing hM (by simp) (by simp) fun l s found s' hinv hanswer => ?_
  match found with
  | .ok none => exact ⟨_, trivial, hpong⟩
  | .error _ => exact ⟨_, trivial, hpong⟩
  | .ok (some node) =>
    have hknown := hinv.known node (Answered.getNode hanswer).1
    refine ⟨fun l _ => Known s₀ node l, hknown.cons _, ?_⟩
    refine valid_known hM (fun l x hP => hP.cons x) (by simp) (by simp)
      fun l s now s' _ hP _ => ⟨fun l _ => Known s₀ node l, hP.cons _, ?_⟩
    refine valid_known hM (fun l x hP => hP.cons x) (by simp) (fun n hop l hP => ?_)
      fun l s ans s' _ _ _ => ⟨_, trivial, hpong⟩
    cases hop
    exact hP.same ⟨rfl, rfl, rfl, rfl⟩

section Monitor

variable {nodes : List Node}

/-- Every listed node is known. -/
def AllKnown (s₀ : Shared D) (nodes : List Node) (l : MasterHistory D) : Prop :=
  ∀ n ∈ nodes, Known s₀ n l

theorem AllKnown.cons {l : MasterHistory D} (h : AllKnown s₀ nodes l)
    (x : Shared D × Event (clusterSig D) Request) : AllKnown s₀ nodes (x :: l) :=
  fun n hn => (h n hn).cons x

theorem valid_monitorWrite (hM : M.answer = Answered) {node : Node} {rest : Code D}
    (hnode : node ∈ nodes)
    (hrest : Valid M (originContract s₀) k req rest fun l _ => AllKnown s₀ nodes l) :
    Valid M (originContract s₀) k req
      (ask (.updateNode { node with status := .notReady }) fun _ => rest)
      fun l _ => AllKnown s₀ nodes l := by
  refine valid_known hM (fun l x hP => hP.cons x) (by simp) (fun n hop l hP => ?_)
    fun l s ans s' _ hP _ => ⟨_, hP.cons _, hrest⟩
  cases hop
  exact (hP node hnode).same ⟨rfl, rfl, rfl, rfl⟩

theorem valid_monitorPods (hM : M.answer = Answered) {node : Node} {rest : Code D}
    (hrest : Valid M (originContract s₀) k req rest fun l _ => AllKnown s₀ nodes l) :
    Valid M (originContract s₀) k req (collectPods D node rest)
      fun l _ => AllKnown s₀ nodes l := by
  refine valid_known hM (fun l x hP => hP.cons x) (by simp) (by simp) fun l s found s' _ hP _ => ?_
  match found with
  | .error _ => exact valid_done _ _ _
  | .ok pods =>
    refine ⟨fun l _ => AllKnown s₀ nodes l, hP.cons _, ?_⟩
    dsimp only
    split
    · exact hrest
    · exact valid_known hM (fun l x hP => hP.cons x) (by simp) (by simp)
        fun l s ans s' _ hP _ => ⟨_, hP.cons _, hrest⟩

theorem valid_monitorEach (hM : M.answer = Answered) (now : DateTime) {left : List Node}
    (hleft : ∀ n ∈ left, n ∈ nodes) :
    Valid M (originContract s₀) k req (checkEach D now left) fun l _ => AllKnown s₀ nodes l := by
  refine checkEach_rule
    (C := fun p => Valid M (originContract s₀) k req p fun l _ => AllKnown s₀ nodes l)
    trivial (fun node hnode _ rest hrest => ?_) fun node _ _ rest hrest => ?_
  · exact valid_monitorWrite hM (hleft node hnode) hrest
  · exact valid_monitorPods hM hrest

theorem valid_monitor (hM : M.answer = Answered) :
    Valid M (originContract s₀) k req (checkNodes D) fun l _ => Nothing l := by
  refine valid_nothing hM (by simp) (by simp) fun l s found s' hinv hanswer => ?_
  match found with
  | .error _ => exact valid_done _ _ _
  | .ok nodes =>
    have hknown : AllKnown s₀ nodes l := by
      rw [Answered.listNodes hanswer]
      exact fun n hn => hinv.known n (List.mem_mergeSort.mp hn)
    refine ⟨fun l _ => AllKnown s₀ nodes l, hknown.cons _, ?_⟩
    exact valid_known hM (fun l x hP => hP.cons x) (by simp) (by simp)
      fun l s now s' _ hP _ => ⟨_, hP.cons _, valid_monitorEach hM now fun _ h => h⟩

end Monitor

theorem valid_issue (hM : M.answer = Answered) :
    Valid M (originContract s₀) k req (Api.issueToken D sha256) fun l _ => Nothing l := by
  refine valid_nothing hM (by simp) (by simp) fun l s bytes s' _ _ =>
    ⟨fun l _ => Nothing l, trivial, ?_⟩
  refine valid_nothing hM (by simp) (by simp) fun l s stored s' _ _ => ?_
  match stored with
  | .error _ => exact valid_done _ _ _
  | .ok () =>
    exact ⟨fun l _ => Nothing l, trivial, valid_nothing hM (by simp) (by simp)
      fun l s ans s' _ _ => valid_done _ _ _⟩

theorem valid_show (hM : M.answer = Answered) :
    Valid M (originContract s₀) k req (Api.clusterTokenShow D) fun l _ => Nothing l := by
  refine valid_nothing hM (by simp) (by simp) fun l s found s' _ _ => ?_
  match found with
  | .ok (some _) => exact valid_done _ _ _
  | .ok none => exact valid_done _ _ _
  | .error _ => exact valid_done _ _ _

end Outline

/-- Every run keeps the contract. -/
theorem Run.origin {arrives : Request → Prop} {s₀ : Shared D} {l : MasterHistory D}
    {p : MasterPool D} (h₀ : ∀ r ∈ s₀.nodes.rows, r.id ∈ s₀.drawn)
    (h : Run (master D sha256 server arrives) (.idle s₀) l p) :
    OriginInv s₀ l p.state ∧ l.Steps (fun l _ e _ => OriginGuar s₀ l e) p.state := by
  have hquiet : ∀ {l : MasterHistory D} {s s' : Shared D} {e : Event (clusterSig D) Request},
      (∀ k req op ans, e ≠ .call k req op ans) → s'.drawn = s.drawn → s'.nodes = s.nodes →
      OriginInv s₀ l s → OriginGuar s₀ l e ∧ OriginInv s₀ ((s, e) :: l) s' := by
    intro l s s' e he hdrawn hnodes hinv
    have hdraws : ∀ k n, ¬ Draws k n e := fun k n ⟨req, _, _, _, _, heq⟩ => he _ _ _ _ heq
    have hinserts : ∀ k n, ¬ Inserts k n e := fun k n ⟨req, heq⟩ => he _ _ _ _ heq
    have hupdates : ∀ n, ¬ Updates n e := fun n ⟨k, req, heq⟩ => he _ _ _ _ heq
    have hdeletes : ∀ id, ¬ Deletes id e := fun id ⟨k, req, heq⟩ => he _ _ _ _ heq
    exact ⟨⟨fun k n hins => absurd hins (hinserts k n), fun n hup => absurd hup (hupdates n)⟩,
      hinv.quiet hdrawn hnodes hdraws hinserts hdeletes⟩
  refine Run.outline (C := originContract s₀) (fun l s k req _ hinv _ => ?_)
    (fun l s s' hticks hinv _ => ?_) (originInv_nil s₀) h ?_
  · obtain ⟨hguar, hinv'⟩ := hquiet (e := .arrive k req) (fun _ _ _ _ he => by cases he) rfl rfl hinv
    refine ⟨hguar, hinv', fun l _ => Nothing l, trivial, ?_⟩
    cases req with
    | register reg => exact valid_register rfl h₀ reg
    | heartbeat pings => exact valid_pings rfl pings
    | checkNodes => exact valid_monitor rfl
    | drainNode name => exact valid_drain rfl name
    | removeNode name => exact valid_remove rfl name
    | clusterInit => exact valid_issue rfl
    | clusterTokenShow => exact valid_show rfl
    | clusterTokenRotate => exact valid_issue rfl
  · cases hticks with
    | tick => exact hquiet (fun _ _ _ _ he => by cases he) rfl rfl hinv
  · clear h
    induction l with
    | nil => exact trivial
    | cons x l ih => exact ⟨trivial, ih⟩

end Nexad.Cluster
