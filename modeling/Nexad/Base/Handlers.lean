import Mathlib.Data.List.Forall2
import Nexad.Base.Interleave

/-!
# Programs carried out over another signature

A `Handler` carries out the calls of one signature by programs over another,
and `Prog.via` puts it under a program. Where every call comes to a single call
(`Handler.Single`), a pool of the carried out programs can be followed, event
by event, by a pool of the programs themselves: `Simulates` says what one call
and one move of the environment owe to it, and `Run.simulated` is what every
run has.
-/

namespace Interleave

variable {σ κ : Sig} {S T ρ α β : Type}

/-- A program, and then what follows on its answer. -/
def Prog.bind : Prog σ α → (α → Prog σ β) → Prog σ β
  | .ret a, k => k a
  | .call op next, k => .call op fun ans => (next ans).bind k

/-- How the calls of one signature are carried out over another. -/
abbrev Handler (σ κ : Sig) := (op : σ.Op) → Prog κ (σ.Ans op)

/-- A program whose calls a handler carries out. -/
def Prog.via (H : Handler σ κ) : Prog σ α → Prog κ α
  | .ret a => .ret a
  | .call op k => (H op).bind fun ans => (k ans).via H

/-- What the calls of a program, and of what follows, need from the answers before them. -/
theorem Prog.Given.bind {A : (op : σ.Op) → σ.Ans op → Prop} {P : σ.Op → Prop} {p : Prog σ α}
    {k : α → Prog σ β} (hp : p.Given A P) (hk : ∀ a, (k a).Given A P) : (p.bind k).Given A P := by
  induction p with
  | ret a => exact hk a
  | call op next ih => exact ⟨hp.1, fun ans hans => ih ans (hp.2 ans hans)⟩

/-- What every call of a program satisfies, and every call of what follows on the
answers that it may come to. -/
theorem Prog.Every.bind {P : σ.Op → Prop} {p : Prog σ α} {k : α → Prog σ β} (hp : p.Every P)
    (hk : ∀ l a, p.Path l (.ret a) → (k a).Every P) : (p.bind k).Every P := by
  induction p with
  | ret a => exact hk [] a (.refl _)
  | call op next ih => exact ⟨hp.1, fun ans => ih ans (hp.2 ans) fun l a h => hk _ a (.call ans h)⟩

/-- The calls of a program, and then those of what follows on its answer. -/
theorem Prog.Path.of_bind {p : Prog σ α} {k : α → Prog σ β} {l : List ((op : σ.Op) × σ.Ans op)} {b : β}
    (h : (p.bind k).Path l (.ret b)) :
    ∃ l₁ l₂ a, l = l₁ ++ l₂ ∧ p.Path l₁ (.ret a) ∧ (k a).Path l₂ (.ret b) := by
  induction p generalizing l with
  | ret a => exact ⟨[], l, a, rfl, .refl _, h⟩
  | call op next ih =>
    cases h with
    | call ans rest =>
      obtain ⟨l₁, l₂, a, rfl, hpath, hk⟩ := ih ans rest
      exact ⟨_, l₂, a, rfl, .call ans hpath, hk⟩

/-- A program whose answer is only rewritten makes the calls of the program. -/
theorem Prog.Path.of_bind_ret {f : α → β} {p : Prog σ α} {l : List ((op : σ.Op) × σ.Ans op)} {b : β}
    (h : (p.bind fun a => .ret (f a)).Path l (.ret b)) : ∃ a, p.Path l (.ret a) ∧ b = f a := by
  obtain ⟨l₁, _, a, rfl, hpath, hend⟩ := h.of_bind
  cases hend
  exact ⟨a, (List.append_nil l₁).symm ▸ hpath, rfl⟩

/-- Calls, and the calls that they were carried out by. -/
inductive CarriedOut (H : Handler σ κ) :
    List ((op : σ.Op) × σ.Ans op) → List ((op : κ.Op) × κ.Ans op) → Prop
  | nil : CarriedOut H [] []
  | cons {op : σ.Op} {ans : σ.Ans op} {calls : List ((op : σ.Op) × σ.Ans op)}
      {l₁ l₂ : List ((op : κ.Op) × κ.Ans op)} (path : (H op).Path l₁ (.ret ans))
      (rest : CarriedOut H calls l₂) : CarriedOut H (⟨op, ans⟩ :: calls) (l₁ ++ l₂)

section Via

variable {H : Handler σ κ}

/-- The calls of a carried out program carry out calls of the program. -/
theorem Prog.Path.of_via {p : Prog σ α} {l : List ((op : κ.Op) × κ.Ans op)} {a : α}
    (h : (p.via H).Path l (.ret a)) : ∃ calls, p.Path calls (.ret a) ∧ CarriedOut H calls l := by
  induction p generalizing l with
  | ret b =>
    cases h
    exact ⟨[], .refl _, .nil⟩
  | call op k ih =>
    rw [Prog.via] at h
    obtain ⟨l₁, l₂, ans, rfl, hop, hrest⟩ := h.of_bind
    obtain ⟨calls, hpath, hcarried⟩ := ih ans hrest
    exact ⟨⟨op, ans⟩ :: calls, .call ans hpath, .cons hop hcarried⟩

/-- What carried out some calls and then others. -/
theorem CarriedOut.of_append {calls calls' : List ((op : σ.Op) × σ.Ans op)}
    {l : List ((op : κ.Op) × κ.Ans op)} (h : CarriedOut H (calls ++ calls') l) :
    ∃ l₁ l₂, l = l₁ ++ l₂ ∧ CarriedOut H calls l₁ ∧ CarriedOut H calls' l₂ := by
  induction calls generalizing l with
  | nil => exact ⟨[], l, rfl, .nil, h⟩
  | cons call calls ih =>
    cases h with
    | @cons _ _ _ l₁ _ path rest =>
      obtain ⟨l₂, l₃, rfl, hcalls, hcalls'⟩ := ih rest
      exact ⟨l₁ ++ l₂, l₃, (List.append_assoc ..).symm, .cons path hcalls, hcalls'⟩

/-- What every call of a carried out program satisfies, where the calls of the
program have what they need. -/
theorem Prog.Given.via {A : (op : σ.Op) → σ.Ans op → Prop} {P : σ.Op → Prop} {Q : κ.Op → Prop}
    (hevery : ∀ op, P op → (H op).Every Q)
    (hans : ∀ op l ans, P op → (H op).Path l (.ret ans) → A op ans) {p : Prog σ α} (hp : p.Given A P) :
    (p.via H).Every Q := by
  induction p with
  | ret a => exact trivial
  | call op k ih =>
    exact (hevery op hp.1).bind fun l ans h => ih ans (hp.2 ans (hans op l ans hp.1 h))

end Via

/-- Every call is carried out by a single one. -/
structure Handler.Single (H : Handler σ κ) where
  op : σ.Op → κ.Op
  ans : (o : σ.Op) → κ.Ans (op o) → σ.Ans o
  eq : ∀ o, H o = .call (op o) fun a => .ret (ans o a)

section Single

variable {H : Handler σ κ} (C : H.Single)
include C

theorem Handler.Single.via_call (o : σ.Op) (k : σ.Ans o → Prog σ α) :
    (Prog.call o k).via H = .call (C.op o) fun a => (k (C.ans o a)).via H := by
  rw [Prog.via, C.eq]
  rfl

/-- Only a program at its end is carried out by one at its end. -/
theorem Handler.Single.via_eq_ret {q : Prog σ α} {a : α} (h : q.via H = .ret a) : q = .ret a := by
  cases q with
  | ret b =>
    rw [Prog.via] at h
    cases h
    rfl
  | call o k =>
    rw [C.via_call] at h
    cases h

/-- A call at the level below is one of the level above. -/
theorem Handler.Single.of_via_call {q : Prog σ α} {op : κ.Op} {cont : κ.Ans op → Prog κ α}
    (h : q.via H = .call op cont) : ∃ (o : σ.Op) (k : σ.Ans o → Prog σ α), q = .call o k ∧
      (Prog.call op cont : Prog κ α) = .call (C.op o) fun a => (k (C.ans o a)).via H := by
  cases q with
  | ret b => cases h
  | call o k => exact ⟨o, k, rfl, h.symm.trans (C.via_call o k)⟩

end Single

/-- One event at both levels. -/
inductive Mirrors {H : Handler σ κ} (C : H.Single) (R : T → S → Prop) :
    T × Event κ ρ → S × Event σ ρ → Prop
  | arrive {t : T} {s : S} (k : Nat) (req : ρ) (related : R t s) :
      Mirrors C R (t, .arrive k req) (s, .arrive k req)
  | call {t : T} {s : S} (k : Nat) (req : ρ) (o : σ.Op) (a : κ.Ans (C.op o)) (related : R t s) :
      Mirrors C R (t, .call k req (C.op o) a) (s, .call k req o (C.ans o a))
  | env {t : T} {s : S} (related : R t s) : Mirrors C R (t, .env) (s, .env)

section Mirrors

variable {H : Handler σ κ} {C : H.Single} {R : T → S → Prop}

/-- The event below that mirrors a call. -/
theorem Mirrors.of_call {t : T} {s : S} {e : Event κ ρ} {k : Nat} {req : ρ} {o : σ.Op} {ans : σ.Ans o}
    (h : Mirrors C R (t, e) (s, .call k req o ans)) :
    ∃ a, e = .call k req (C.op o) a ∧ C.ans o a = ans := by
  cases h with
  | call _ _ _ a => exact ⟨a, rfl, rfl⟩

/-- The history below around the event that mirrors one above. -/
theorem Mirrors.split {l : History κ T ρ} {later earlier : History σ S ρ} {e : S × Event σ ρ}
    (h : List.Forall₂ (Mirrors C R) l (later ++ e :: earlier)) :
    ∃ later' e' earlier', l = later' ++ e' :: earlier' ∧
      List.Forall₂ (Mirrors C R) later' later ∧ Mirrors C R e' e := by
  have hlater := List.forall₂_take_append l later (e :: earlier) h
  obtain ⟨e', earlier', he, -, heq⟩ := List.forall₂_cons_right_iff.mp
    (List.forall₂_drop_append l later (e :: earlier) h)
  exact ⟨_, e', earlier', by rw [← heq, List.take_append_drop], hlater, he⟩

/-- A call above is mirrored below. -/
theorem Mirrors.of_mem {l : History κ T ρ} {l' : History σ S ρ} (h : List.Forall₂ (Mirrors C R) l l')
    {s : S} {k : Nat} {req : ρ} {o : σ.Op} {ans : σ.Ans o} (hmem : (s, .call k req o ans) ∈ l') :
    ∃ t a, (t, .call k req (C.op o) a) ∈ l ∧ C.ans o a = ans := by
  obtain ⟨later, earlier, rfl⟩ := List.append_of_mem hmem
  obtain ⟨later', ⟨t, e⟩, earlier', rfl, -, hevent⟩ := Mirrors.split h
  obtain ⟨a, rfl, hans⟩ := hevent.of_call
  exact ⟨t, a, List.mem_append_right _ List.mem_cons_self, hans⟩

end Mirrors

/-- The level above can follow the one below. What a call needs (`P`) comes from
what the answers before it say (`A`). -/
structure Simulates {H : Handler σ κ} (C : H.Single) (N : Machine κ T ρ α) (M : Machine σ S ρ α)
    (A : (o : σ.Op) → σ.Ans o → Prop) (P : σ.Op → Prop) (R : T → S → Prop) : Prop where
  code : ∀ req, N.code req = (M.code req).via H
  arrives : ∀ req, N.arrives req → M.arrives req
  given : ∀ req, N.arrives req → (M.code req).Given A P
  call : ∀ {t s o a t'}, R t s → P o → N.answer t (C.op o) a t' →
    A o (C.ans o a) ∧ ∃ s', M.answer s o (C.ans o a) s' ∧ R t' s'
  env : ∀ {t s t'}, R t s → N.env t t' → ∃ s', M.env s s' ∧ R t' s'

section Simulated

variable {H : Handler σ κ} {C : H.Single} {N : Machine κ T ρ α} {M : Machine σ S ρ α}
  {A : (o : σ.Op) → σ.Ans o → Prop} {P : σ.Op → Prop} {R : T → S → Prop}

/-- The pool above stands where the one below does. -/
structure Follows (H : Handler σ κ) (A : (o : σ.Op) → σ.Ans o → Prop) (P : σ.Op → Prop)
    (R : T → S → Prop) (p : Pool κ T ρ α) (p' : Pool σ S ρ α) : Prop where
  state : R p.state p'.state
  thread : ∀ k, p.thread k = (p'.thread k).map fun t => (t.1, t.2.via H)
  given : ∀ k req q, p'.thread k = some (req, q) → q.Given A P

/-- A thread of the pool below, in the one above. -/
theorem Follows.of_thread {p : Pool κ T ρ α} {p' : Pool σ S ρ α} (h : Follows H A P R p p') {k : Nat}
    {req : ρ} {q : Prog κ α} (hk : p.thread k = some (req, q)) :
    ∃ q', p'.thread k = some (req, q') ∧ q = q'.via H := by
  rw [h.thread k] at hk
  obtain ⟨⟨req', q'⟩, hk', heq⟩ := Option.map_eq_some_iff.mp hk
  cases heq
  exact ⟨q', hk', rfl⟩

/-- A thread of one pool has come to its end as it has in the other. -/
theorem Follows.ret_iff {p : Pool κ T ρ α} {p' : Pool σ S ρ α} (h : Follows H A P R p p') (C : H.Single) {k : Nat}
    {req : ρ} {a : α} : p.thread k = some (req, .ret a) ↔ p'.thread k = some (req, .ret a) := by
  constructor
  · intro hk
    obtain ⟨q, hk', hq⟩ := h.of_thread hk
    rw [hk', C.via_eq_ret hq.symm]
  · intro hk
    rw [h.thread k, hk]
    rfl

/-- The pools stand alike after thread `k` has come to stand alike. -/
theorem Follows.set {p : Pool κ T ρ α} {p' : Pool σ S ρ α} (h : Follows H A P R p p') {t : T} {s : S}
    (hstate : R t s) (k : Nat) {req : ρ} {q : Prog σ α} (hq : q.Given A P) :
    Follows H A P R (p.set t k (req, q.via H)) (p'.set s k (req, q)) where
  state := hstate
  thread := by
    intro j
    by_cases hj : j = k
    · subst hj
      rw [Pool.set_thread_self, Pool.set_thread_self]
      rfl
    · rw [Pool.set_thread_ne _ _ _ hj, Pool.set_thread_ne _ _ _ hj]
      exact h.thread j
  given := by
    intro j req' q' hj'
    by_cases hj : j = k
    · subst hj
      rw [Pool.set_thread_self] at hj'
      cases hj'
      exact hq
    · rw [Pool.set_thread_ne _ _ _ hj] at hj'
      exact h.given j req' q' hj'

/-- One step is followed by one step. -/
theorem Simulates.step (h : Simulates C N M A P R) {p q : Pool κ T ρ α} {p' : Pool σ S ρ α}
    {e : Event κ ρ} (hp : Follows H A P R p p') (hstep : Step N p e q) :
    ∃ e' q', Step M p' e' q' ∧ Mirrors C R (p.state, e) (p'.state, e') ∧ Follows H A P R q q' := by
  cases hstep with
  | @arrive k req free arrives =>
    have hfree : p'.thread k = none := by
      have heq := hp.thread k
      rw [free] at heq
      exact Option.map_eq_none_iff.mp heq.symm
    refine ⟨_, _, .arrive hfree (h.arrives req arrives), .arrive k req hp.state, ?_⟩
    rw [h.code req]
    exact hp.set hp.state k (h.given req arrives)
  | @call k req op cont ans t' at_call answered =>
    obtain ⟨prog, hk, hvia⟩ := hp.of_thread at_call
    obtain ⟨o, next, rfl, heq⟩ := C.of_via_call hvia.symm
    cases heq
    obtain ⟨hneeds, hnext⟩ := hp.given k req _ hk
    obtain ⟨htells, s', hanswer, hrelated⟩ := h.call hp.state hneeds answered
    exact ⟨_, _, .call hk hanswer, .call k req o ans hp.state, hp.set hrelated k (hnext _ htells)⟩
  | env moves =>
    obtain ⟨s', hmoves, hrelated⟩ := h.env hp.state moves
    exact ⟨_, _, .env hmoves, .env hp.state, { state := hrelated, thread := hp.thread, given := hp.given }⟩

/-- Every run of the level below is one of the level above. -/
theorem Run.simulated (h : Simulates C N M A P R) {t₀ : T} {s₀ : S} (h₀ : R t₀ s₀)
    {l : History κ T ρ} {p : Pool κ T ρ α} (hrun : Run N (.idle t₀) l p) :
    ∃ l' p', Run M (.idle s₀) l' p' ∧ List.Forall₂ (Mirrors C R) l l' ∧ Follows H A P R p p' := by
  induction hrun with
  | nil =>
    exact ⟨[], .idle s₀, .nil, .nil,
      { state := h₀, thread := fun _ => rfl, given := fun _ _ _ hk => by cases hk }⟩
  | cons _ hs ih =>
    obtain ⟨l', p', hrun', hmirror, hfollows⟩ := ih
    obtain ⟨e', q', hstep, hevent, hnext⟩ := h.step hfollows hs
    exact ⟨_, q', .cons hrun' hstep, .cons hevent hmirror, hnext⟩

end Simulated

end Interleave
