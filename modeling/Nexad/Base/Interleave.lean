/-!
# Programs over a signature, and pools of them

A program is a tree of calls: it asks one operation of its environment and
goes on from the answer. `Prog.Trace` runs it alone against answers that may
be anything, `Prog.Exec` alone against a state, and `Run` in a pool: requests
arrive at any moment, and each step lets one thread make its next call or
lets the environment move. A call is atomic; nothing else is, so a pool's
runs are exactly the interleavings of the threads' calls.

A run carries its history, newest first, each event with the state it
happened in. So a property of a whole run is a property of one list.

Three rules carry the proofs.

- `Run.every`: a predicate that every call of every request's code satisfies,
  whatever was answered before, holds of every call in the history.
- `Run.given`: an invariant of the state that the calls keep, each of them
  trusting what the answers before it said while the invariant held.
- `Run.outline`: the rely and guarantee rule. A `Contract` names an invariant,
  what each step guarantees, and which steps the runs under study may take. A
  thread carries an assertion that the OTHER threads' guarantees keep
  (`Stable`); its code is `Valid` when each call, from the assertion in front
  of it, keeps the contract and establishes an assertion for what follows.
-/

namespace Interleave

/-- Operations, and the type each one answers in. -/
structure Sig where
  Op : Type
  Ans : Op → Type

/-- A program: an answer, or a call and what follows each answer to it. -/
inductive Prog (σ : Sig) (α : Type) where
  | ret (a : α) : Prog σ α
  | call (op : σ.Op) (k : σ.Ans op → Prog σ α) : Prog σ α

namespace Prog

variable {σ : Sig} {S α : Type}

/-- Every call the program can reach satisfies `P`, whatever the answers. -/
def Every (P : σ.Op → Prop) : Prog σ α → Prop
  | ret _ => True
  | call op k => P op ∧ ∀ ans, (k ans).Every P

/-- Every call satisfies `P` that the program comes to by answers that satisfy `A`. -/
def Given (A : (op : σ.Op) → σ.Ans op → Prop) (P : σ.Op → Prop) : Prog σ α → Prop
  | ret _ => True
  | call op k => P op ∧ ∀ ans, A op ans → (k ans).Given A P

/-- One complete run of the program alone, each call answered somehow. -/
inductive Trace : Prog σ α → List ((op : σ.Op) × σ.Ans op) → α → Prop
  | ret (a : α) : Trace (.ret a) [] a
  | call {op : σ.Op} {k : σ.Ans op → Prog σ α} {l : List ((op : σ.Op) × σ.Ans op)} {a : α}
      (ans : σ.Ans op) : Trace (k ans) l a → Trace (.call op k) (⟨op, ans⟩ :: l) a

/-- One complete run of the program alone over a state. -/
inductive Exec (answer : S → (op : σ.Op) → σ.Ans op → S → Prop) : Prog σ α → S → α → S → Prop
  | ret (a : α) (s : S) : Exec answer (.ret a) s a s
  | call {op : σ.Op} {k : σ.Ans op → Prog σ α} {s s' s'' : S} {ans : σ.Ans op} {a : α} :
      answer s op ans s' → Exec answer (k ans) s' a s'' → Exec answer (.call op k) s a s''

/-- What may be left to do of a program after some answers. -/
inductive Reaches : Prog σ α → Prog σ α → Prop
  | refl (p : Prog σ α) : Reaches p p
  | call {op : σ.Op} {k : σ.Ans op → Prog σ α} {q : Prog σ α} (ans : σ.Ans op)
      (rest : Reaches (k ans) q) : Reaches (.call op k) q

/-- The calls that lead from a program to what is left of it, oldest first. -/
inductive Path : Prog σ α → List ((op : σ.Op) × σ.Ans op) → Prog σ α → Prop
  | refl (p : Prog σ α) : Path p [] p
  | call {op : σ.Op} {k : σ.Ans op → Prog σ α} {q : Prog σ α} {l : List ((op : σ.Op) × σ.Ans op)}
      (ans : σ.Ans op) (rest : Path (k ans) l q) : Path (.call op k) (⟨op, ans⟩ :: l) q

/-- What some calls lead to is what may be left. -/
theorem Path.reaches {p q : Prog σ α} {l : List ((op : σ.Op) × σ.Ans op)} (h : Path p l q) :
    Reaches p q := by
  induction h with
  | refl p => exact .refl p
  | call ans _ ih => exact .call ans ih

/-- Some calls of the program alone over a state, and what is left of it. -/
inductive Moves (answer : S → (op : σ.Op) → σ.Ans op → S → Prop) :
    Prog σ α → S → List ((op : σ.Op) × σ.Ans op) → Prog σ α → S → Prop
  | refl (p : Prog σ α) (s : S) : Moves answer p s [] p s
  | call {op : σ.Op} {k : σ.Ans op → Prog σ α} {q : Prog σ α} {s s' s'' : S} {ans : σ.Ans op}
      {l : List ((op : σ.Op) × σ.Ans op)} (answered : answer s op ans s')
      (rest : Moves answer (k ans) s' l q s'') : Moves answer (.call op k) s (⟨op, ans⟩ :: l) q s''

/-- The answer of a program that has come to its end. -/
def result : Prog σ α → Option α
  | ret a => some a
  | call .. => none

/-- One complete run of the program alone over a state, each call with the
state it is made in. -/
inductive Takes (answer : S → (op : σ.Op) → σ.Ans op → S → Prop) :
    Prog σ α → S → List (S × ((op : σ.Op) × σ.Ans op)) → α → S → Prop
  | ret (a : α) (s : S) : Takes answer (.ret a) s [] a s
  | call {op : σ.Op} {k : σ.Ans op → Prog σ α} {s s' s'' : S} {ans : σ.Ans op}
      {l : List (S × ((op : σ.Op) × σ.Ans op))} {a : α} (answered : answer s op ans s')
      (rest : Takes answer (k ans) s' l a s'') :
      Takes answer (.call op k) s ((s, ⟨op, ans⟩) :: l) a s''

/-- Some calls of the program over a state that others move along `R` before
each of them, and after the last. -/
inductive Among (answer : S → (op : σ.Op) → σ.Ans op → S → Prop) (R : S → S → Prop) :
    Prog σ α → S → List ((op : σ.Op) × σ.Ans op) → Prog σ α → S → Prop
  | refl (p : Prog σ α) {s s' : S} (moved : R s s') : Among answer R p s [] p s'
  | call {op : σ.Op} {k : σ.Ans op → Prog σ α} {q : Prog σ α} {s s₁ s₂ s' : S} {ans : σ.Ans op}
      {l : List ((op : σ.Op) × σ.Ans op)} (moved : R s s₁) (answered : answer s₁ op ans s₂)
      (rest : Among answer R (k ans) s₂ l q s') : Among answer R (.call op k) s (⟨op, ans⟩ :: l) q s'

/-- Nothing comes after the end. -/
theorem Path.ret_eq {a b : α} {l : List ((op : σ.Op) × σ.Ans op)} (h : Path (.ret a) l (.ret b)) :
    a = b := by
  cases h
  rfl

/-- One more call. -/
theorem Path.snoc {op : σ.Op} {k : σ.Ans op → Prog σ α} {p : Prog σ α}
    {l : List ((op : σ.Op) × σ.Ans op)} (h : Path p l (.call op k)) (ans : σ.Ans op) :
    Path p (l ++ [⟨op, ans⟩]) (k ans) := by
  generalize hq : Prog.call op k = q at h
  induction h with
  | refl p =>
    subst hq
    exact .call ans (.refl _)
  | call ans' _ ih => exact .call ans' (ih hq)

/-- What holds of every reachable call holds of every call of a trace. -/
theorem Trace.every {P : σ.Op → Prop} {p : Prog σ α} {l : List ((op : σ.Op) × σ.Ans op)} {a : α}
    (h : Trace p l a) (hp : p.Every P) : ∀ e ∈ l, P e.1 := by
  induction h with
  | ret => exact fun e he => absurd he List.not_mem_nil
  | call ans _ ih =>
    obtain ⟨hop, hk⟩ := hp
    intro e he
    rcases List.mem_cons.mp he with rfl | he
    · exact hop
    · exact ih (hk ans) e he

/-- What holds of every reachable call holds of those made and of those left. -/
theorem Path.every {P : σ.Op → Prop} {p q : Prog σ α} {l : List ((op : σ.Op) × σ.Ans op)}
    (h : Path p l q) (hp : p.Every P) : (∀ e ∈ l, P e.1) ∧ q.Every P := by
  induction h with
  | refl => exact ⟨fun e he => absurd he List.not_mem_nil, hp⟩
  | call ans _ ih =>
    obtain ⟨hop, hk⟩ := hp
    obtain ⟨hmade, hleft⟩ := ih (hk ans)
    refine ⟨fun e he => ?_, hleft⟩
    rcases List.mem_cons.mp he with rfl | he
    · exact hop
    · exact hmade e he

section Among

variable {answer : S → (op : σ.Op) → σ.Ans op → S → Prop} {R : S → S → Prop} {p q : Prog σ α}
  {s s' s'' : S} {l : List ((op : σ.Op) × σ.Ans op)}

/-- Calls among others are calls. -/
theorem Among.path (h : Among answer R p s l q s') : p.Path l q := by
  induction h with
  | refl => exact .refl _
  | call _ _ _ ih => exact .call _ ih

/-- The others move once more. -/
theorem Among.moved (hR : ∀ a b c, R a b → R b c → R a c) (h : Among answer R p s l q s')
    (hmoved : R s' s'') : Among answer R p s l q s'' := by
  induction h with
  | refl p hbefore => exact .refl p (hR _ _ _ hbefore hmoved)
  | call hbefore answered _ ih => exact .call hbefore answered (ih hmoved)

/-- A state is related to one that comes later. -/
theorem Among.related (hR : ∀ a b c, R a b → R b c → R a c)
    (hanswer : ∀ s op ans s', answer s op ans s' → R s s') (h : Among answer R p s l q s') : R s s' := by
  induction h with
  | refl _ moved => exact moved
  | call moved answered _ ih => exact hR _ _ _ moved (hR _ _ _ (hanswer _ _ _ _ answered) ih)

/-- A call was answered in a state that is related to the first. -/
theorem Among.answered (hR : ∀ a b c, R a b → R b c → R a c)
    (hanswer : ∀ s op ans s', answer s op ans s' → R s s') (h : Among answer R p s l q s') :
    ∀ e ∈ l, ∃ s₁ s₂, R s s₁ ∧ answer s₁ e.1 e.2 s₂ := by
  induction h with
  | refl => exact fun e he => absurd he List.not_mem_nil
  | call moved answered _ ih =>
    intro e he
    rcases List.mem_cons.mp he with rfl | he
    · exact ⟨_, _, moved, answered⟩
    · obtain ⟨s₁, s₂, hmoved, hansw⟩ := ih e he
      exact ⟨s₁, s₂, hR _ _ _ moved (hR _ _ _ (hanswer _ _ _ _ answered) hmoved), hansw⟩

/-- Others that move less are others that move. -/
theorem Among.mono {R' : S → S → Prop} (himp : ∀ a b, R a b → R' a b) (h : Among answer R p s l q s') :
    Among answer R' p s l q s' := by
  induction h with
  | refl p moved => exact .refl p (himp _ _ moved)
  | call moved answered _ ih => exact .call (himp _ _ moved) answered ih

/-- One more call. -/
theorem Among.snoc (hR : ∀ a, R a a) {op : σ.Op} {k : σ.Ans op → Prog σ α}
    (h : Among answer R p s l (.call op k) s') {ans : σ.Ans op} (answered : answer s' op ans s'') :
    Among answer R p s (l ++ [⟨op, ans⟩]) (k ans) s'' := by
  generalize hq : Prog.call op k = q at h
  induction h with
  | refl p hbefore =>
    subst hq
    exact .call hbefore answered (.refl _ (hR _))
  | call hbefore answered' _ ih => exact .call hbefore answered' (ih answered hq)

end Among

/-- A weaker predicate holds of every call too. -/
theorem Every.imp {P Q : σ.Op → Prop} (hPQ : ∀ op, P op → Q op) {p : Prog σ α}
    (h : p.Every P) : p.Every Q := by
  induction p with
  | ret => exact trivial
  | call op k ih => exact ⟨hPQ op h.1, fun ans => ih ans (h.2 ans)⟩

/-- Calls that lead to the end are a complete run. -/
theorem Moves.exec {answer : S → (op : σ.Op) → σ.Ans op → S → Prop} {p : Prog σ α} {s s' : S}
    {l : List ((op : σ.Op) × σ.Ans op)} {a : α} (h : Moves answer p s l (.ret a) s') :
    p.Exec answer s a s' := by
  generalize hq : Prog.ret a = q at h
  induction h with
  | refl p s =>
    subst hq
    exact .ret a s
  | call answered _ ih => exact .call answered (ih hq)

/-- Answers that are possible in another way too make the same runs. -/
theorem Exec.mono {answer answer' : S → (op : σ.Op) → σ.Ans op → S → Prop} {P : σ.Op → Prop}
    (himp : ∀ s op ans s', P op → answer s op ans s' → answer' s op ans s') {p : Prog σ α} {s s' : S}
    {a : α} (hP : p.Every P) (h : p.Exec answer s a s') : p.Exec answer' s a s' := by
  induction h with
  | ret a s => exact .ret a s
  | call answered _ ih => exact .call (himp _ _ _ _ hP.1 answered) (ih (hP.2 _))

/-- Run alone against a strategy that knows the calls made so far: the calls
with their answers, and the result. -/
def answeredBy (f : List ((op : σ.Op) × σ.Ans op) → (op : σ.Op) → σ.Ans op) :
    Prog σ α → List ((op : σ.Op) × σ.Ans op) → List ((op : σ.Op) × σ.Ans op) × α
  | ret a, made => (made, a)
  | call op k, made => (k (f made op)).answeredBy f (made ++ [⟨op, f made op⟩])

/-- Two programs that make the same calls, whatever the answers, and end with
related results. -/
inductive Agree {β : Type} (R : α → β → Prop) : Prog σ α → Prog σ β → Prop
  | ret {a : α} {b : β} (related : R a b) : Agree R (.ret a) (.ret b)
  | call {op : σ.Op} {k : σ.Ans op → Prog σ α} {k' : σ.Ans op → Prog σ β}
      (rest : ∀ ans, Agree R (k ans) (k' ans)) : Agree R (.call op k) (.call op k')

/-- The calls made so far stay, and the rest follow. -/
theorem answeredBy_made (f : List ((op : σ.Op) × σ.Ans op) → (op : σ.Op) → σ.Ans op)
    (p : Prog σ α) (made : List ((op : σ.Op) × σ.Ans op)) : made <+: (p.answeredBy f made).1 := by
  induction p generalizing made with
  | ret => exact List.prefix_refl made
  | call op k ih => exact (List.prefix_append made _).trans (ih _ _)

/-- No strategy tells programs that agree apart. -/
theorem Agree.answeredBy {β : Type} {R : α → β → Prop} {p : Prog σ α} {q : Prog σ β}
    (h : Agree R p q) (f : List ((op : σ.Op) × σ.Ans op) → (op : σ.Op) → σ.Ans op)
    (made : List ((op : σ.Op) × σ.Ans op)) :
    (p.answeredBy f made).1 = (q.answeredBy f made).1 ∧
      R (p.answeredBy f made).2 (q.answeredBy f made).2 := by
  induction h generalizing made with
  | ret related => exact ⟨rfl, related⟩
  | call _ ih => exact ih _ _

end Prog

/-- What serves the requests: each request's code, which requests arrive, how
a call is answered, and how the environment moves by itself. -/
structure Machine (σ : Sig) (S τ α : Type) where
  code : τ → Prog σ α
  arrives : τ → Prop
  answer : S → (op : σ.Op) → σ.Ans op → S → Prop
  env : S → S → Prop

/-- What happened in one step. Thread `k` serves the request `req`. -/
inductive Event (σ : Sig) (τ : Type) where
  | arrive (k : Nat) (req : τ)
  | call (k : Nat) (req : τ) (op : σ.Op) (ans : σ.Ans op)
  | env

/-- A history, newest first: each event with the state it happened in. -/
abbrev History (σ : Sig) (S τ : Type) := List (S × Event σ τ)

/-- The shared state, and for each thread its request and what is left to do. -/
structure Pool (σ : Sig) (S τ α : Type) where
  state : S
  thread : Nat → Option (τ × Prog σ α)

variable {σ : Sig} {S τ α : Type}

namespace Pool

/-- The pool in which no request has arrived. -/
def idle (s : S) : Pool σ S τ α := ⟨s, fun _ => none⟩

/-- The pool with the state `s` and thread `k` at `t`. -/
def set (p : Pool σ S τ α) (s : S) (k : Nat) (t : τ × Prog σ α) : Pool σ S τ α :=
  ⟨s, fun j => if j = k then some t else p.thread j⟩

@[simp] theorem set_thread_self (p : Pool σ S τ α) (s : S) (k : Nat) (t : τ × Prog σ α) :
    (p.set s k t).thread k = some t := if_pos rfl

theorem set_thread_ne (p : Pool σ S τ α) (s : S) {j k : Nat} (t : τ × Prog σ α) (h : j ≠ k) :
    (p.set s k t).thread j = p.thread j := if_neg h

/-- Of two settings of one thread the later stays. -/
theorem set_set (p : Pool σ S τ α) (s s' : S) (k : Nat) (t t' : τ × Prog σ α) :
    (p.set s k t).set s' k t' = p.set s' k t' := by
  unfold set
  congr 1
  funext j
  by_cases hj : j = k
  · simp only [if_pos hj]
  · simp only [if_neg hj]

end Pool

/-- One step of the pool. -/
inductive Step (M : Machine σ S τ α) : Pool σ S τ α → Event σ τ → Pool σ S τ α → Prop
  | arrive {p : Pool σ S τ α} {k : Nat} {req : τ} (free : p.thread k = none)
      (arrives : M.arrives req) :
      Step M p (.arrive k req) (p.set p.state k (req, M.code req))
  | call {p : Pool σ S τ α} {k : Nat} {req : τ} {op : σ.Op} {cont : σ.Ans op → Prog σ α}
      {ans : σ.Ans op} {s' : S} (at_call : p.thread k = some (req, .call op cont))
      (answered : M.answer p.state op ans s') :
      Step M p (.call k req op ans) (p.set s' k (req, cont ans))
  | env {p : Pool σ S τ α} {s' : S} (moves : M.env p.state s') :
      Step M p .env ⟨s', p.thread⟩

/-- A run from `p₀`, with its history. -/
inductive Run (M : Machine σ S τ α) (p₀ : Pool σ S τ α) : History σ S τ → Pool σ S τ α → Prop
  | nil : Run M p₀ [] p₀
  | cons {l : History σ S τ} {p p' : Pool σ S τ α} {e : Event σ τ} :
      Run M p₀ l p → Step M p e p' → Run M p₀ ((p.state, e) :: l) p'

namespace Run

variable {M : Machine σ S τ α} {p₀ p : Pool σ S τ α} {l : History σ S τ}

/-- The run without a step. -/
theorem start (M : Machine σ S τ α) (p : Pool σ S τ α) : Run M p [] p := .nil

/-- A run after a run is a run. -/
theorem trans {l' : History σ S τ} {p' : Pool σ S τ α} (h : Run M p₀ l p) (h' : Run M p l' p') :
    Run M p₀ (l' ++ l) p' := by
  induction h' with
  | nil => exact h
  | cons _ hs ih => exact .cons ih hs

/-- A request arrives at the end of a run. -/
theorem arrive (h : Run M p₀ l p) (k : Nat) (req : τ) (free : p.thread k = none)
    (arrives : M.arrives req) :
    Run M p₀ ((p.state, .arrive k req) :: l) (p.set p.state k (req, M.code req)) :=
  .cons h (.arrive free arrives)

/-- Thread `k` makes its next call at the end of a run. -/
theorem call (h : Run M p₀ l p) (k : Nat) {req : τ} {op : σ.Op} {cont : σ.Ans op → Prog σ α}
    {ans : σ.Ans op} {s' : S} (at_call : p.thread k = some (req, .call op cont))
    (answered : M.answer p.state op ans s') :
    Run M p₀ ((p.state, .call k req op ans) :: l) (p.set s' k (req, cont ans)) :=
  .cons h (.call at_call answered)

/-- The states a run with this history and end has been in. -/
def Visited (l : History σ S τ) (p : Pool σ S τ α) (s : S) : Prop :=
  s = p.state ∨ ∃ e, (s, e) ∈ l

/-- A predicate that the start has and that steps of a kind keep holds in every
state of a run of such steps. -/
theorem visited {I : S → Prop} {A : S → Event σ τ → Prop} (h₀ : I p₀.state)
    (hstep : ∀ q e q', Step M q e q' → A q.state e → I q.state → I q'.state) (h : Run M p₀ l p)
    (hall : ∀ s e, (s, e) ∈ l → A s e) {s : S} (hs : Visited l p s) : I s := by
  induction h generalizing s with
  | nil =>
    rcases hs with rfl | ⟨e, he⟩
    · exact h₀
    · cases he
  | @cons l q q' e _ hs' ih =>
    have hbefore : ∀ {s}, Visited l q s → I s :=
      ih fun s e he => hall s e (List.mem_cons_of_mem _ he)
    rcases hs with rfl | ⟨e', he'⟩
    · exact hstep _ _ _ hs' (hall _ _ List.mem_cons_self) (hbefore (.inl rfl))
    · rcases List.mem_cons.mp he' with heq | hmem
      · cases heq
        exact hbefore (.inl rfl)
      · exact hbefore (.inr ⟨e', hmem⟩)

/-- A run visits its start. -/
theorem visited_start (h : Run M p₀ l p) : Visited l p p₀.state := by
  induction h with
  | nil => exact .inl rfl
  | @cons l q q' e _ _ ih =>
    rcases ih with heq | ⟨e', he'⟩
    · exact .inr ⟨e, heq ▸ List.mem_cons_self⟩
    · exact .inr ⟨e', List.mem_cons_of_mem _ he'⟩

/-- The induction over runs: what the start has and every step keeps. -/
theorem induct {I : History σ S τ → Pool σ S τ α → Prop} (h₀ : I [] p₀)
    (hstep : ∀ l p e p', Run M p₀ l p → I l p → Step M p e p' → I ((p.state, e) :: l) p')
    (h : Run M p₀ l p) : I l p := by
  induction h with
  | nil => exact h₀
  | cons hr hs ih => exact hstep _ _ _ _ hr ih hs

end Run

/-- A run with a step in its history: what came before, the step, and the rest. -/
theorem Run.around {M : Machine σ S τ α} {p₀ p : Pool σ S τ α} {later earlier : History σ S τ} {s : S}
    {e : Event σ τ} (h : Run M p₀ (later ++ (s, e) :: earlier) p) :
    ∃ q q', q.state = s ∧ Run M p₀ earlier q ∧ Step M q e q' ∧ Run M q' later p := by
  induction later generalizing p with
  | nil =>
    cases h with
    | cons hrun hstep => exact ⟨_, _, rfl, hrun, hstep, .nil⟩
  | cons step later ih =>
    cases h with
    | cons hrun hstep =>
      obtain ⟨q, q', hq, hbefore, hat, hafter⟩ := ih hrun
      exact ⟨q, q', hq, hbefore, hat, .cons hafter hstep⟩

/-- A run through a step of its history: what came before it, the step, and
the rest. -/
theorem Run.split {M : Machine σ S τ α} {p₀ p : Pool σ S τ α} {l : History σ S τ}
    (h : Run M p₀ l p) {s : S} {e : Event σ τ} (hmem : (s, e) ∈ l) :
    ∃ later earlier q q', l = later ++ (s, e) :: earlier ∧ q.state = s ∧
      Run M p₀ earlier q ∧ Step M q e q' ∧ Run M q' later p := by
  induction h with
  | nil => cases hmem
  | @cons l q q' e' hrun hstep ih =>
    rcases List.mem_cons.mp hmem with heq | hmem
    · cases heq
      exact ⟨[], l, q, q', rfl, rfl, hrun, hstep, .nil⟩
    · obtain ⟨later, earlier, r, r', hl, hr, hbefore, hstep', hafter⟩ := ih hmem
      exact ⟨(q.state, e') :: later, earlier, r, r', by rw [hl, List.cons_append], hr, hbefore,
        hstep', .cons hafter hstep⟩

/-- A run visits the state after each of its steps. -/
theorem Run.visited_after {M : Machine σ S τ α} {p₀ p : Pool σ S τ α} {l : History σ S τ}
    (h : Run M p₀ l p) {s : S} {e : Event σ τ} (hmem : (s, e) ∈ l) :
    ∃ q q', q.state = s ∧ Step M q e q' ∧ Visited l p q'.state := by
  obtain ⟨later, earlier, q, q', rfl, hq, -, hstep, hafter⟩ := h.split hmem
  refine ⟨q, q', hq, hstep, ?_⟩
  rcases hafter.visited_start with heq | ⟨e', he'⟩
  · exact .inl heq
  · exact .inr ⟨e', List.mem_append_left _ he'⟩

/-! ## The calls of one thread -/

/-- The calls of thread `k` with their answers, oldest first. -/
def History.calls (k : Nat) : History σ S τ → List ((op : σ.Op) × σ.Ans op)
  | [] => []
  | (_, .call j _ op ans) :: l => if j = k then calls k l ++ [⟨op, ans⟩] else calls k l
  | (_, .arrive ..) :: l => calls k l
  | (_, .env) :: l => calls k l

theorem History.calls_self (k : Nat) (s : S) (req : τ) (op : σ.Op) (ans : σ.Ans op)
    (l : History σ S τ) :
    History.calls k ((s, .call k req op ans) :: l) = l.calls k ++ [⟨op, ans⟩] := if_pos rfl

theorem History.calls_ne {j k : Nat} (h : j ≠ k) (s : S) (req : τ) (op : σ.Op) (ans : σ.Ans op)
    (l : History σ S τ) : History.calls k ((s, .call j req op ans) :: l) = l.calls k := if_neg h

theorem History.calls_append (k : Nat) (l' l : History σ S τ) :
    History.calls k (l' ++ l) = l.calls k ++ l'.calls k := by
  induction l' with
  | nil => rw [List.nil_append, History.calls, List.append_nil]
  | cons step l' ih =>
    obtain ⟨s, e⟩ := step
    cases e with
    | arrive => exact ih
    | env => exact ih
    | call j req op ans =>
      rw [List.cons_append]
      by_cases hj : j = k
      · subst hj
        rw [History.calls_self, History.calls_self, ih, List.append_assoc]
      · rw [History.calls_ne hj, History.calls_ne hj, ih]

/-- The calls around one of them. -/
theorem History.calls_split (k : Nat) (l' : History σ S τ) (s : S) (req : τ) (op : σ.Op)
    (ans : σ.Ans op) (l : History σ S τ) :
    History.calls k (l' ++ (s, .call k req op ans) :: l) = l.calls k ++ ⟨op, ans⟩ :: l'.calls k := by
  rw [History.calls_append, History.calls_self, List.append_assoc, List.singleton_append]

/-- The event of one of a thread's calls, with the thread's calls around it. -/
theorem History.exists_split {k : Nat} {op : σ.Op} {ans : σ.Ans op}
    {before after : List ((op : σ.Op) × σ.Ans op)} {l : History σ S τ}
    (h : l.calls k = before ++ ⟨op, ans⟩ :: after) :
    ∃ later s req earlier, l = later ++ (s, .call k req op ans) :: earlier ∧
      History.calls k earlier = before ∧ History.calls k later = after := by
  induction l generalizing after with
  | nil => exact absurd h.symm (List.append_ne_nil_of_right_ne_nil _ (List.cons_ne_nil _ _))
  | cons step l ih =>
    obtain ⟨s, e⟩ := step
    cases e with
    | arrive j req =>
      obtain ⟨later, s', req', earlier, rfl, hearlier, hlater⟩ := ih h
      exact ⟨(s, .arrive j req) :: later, s', req', earlier, rfl, hearlier, hlater⟩
    | env =>
      obtain ⟨later, s', req', earlier, rfl, hearlier, hlater⟩ := ih h
      exact ⟨(s, .env) :: later, s', req', earlier, rfl, hearlier, hlater⟩
    | call j req op' ans' =>
      by_cases hj : j = k
      · subst hj
        rw [History.calls_self] at h
        rcases List.eq_nil_or_concat after with rfl | ⟨after, last, rfl⟩
        · obtain ⟨hearlier, hlast⟩ := List.append_inj' h rfl
          cases hlast
          exact ⟨[], s, req, l, rfl, hearlier, rfl⟩
        · have hsplit : History.calls j l ++ [⟨op', ans'⟩] = (before ++ ⟨op, ans⟩ :: after) ++ [last] := by
            rw [h, List.concat_eq_append, List.append_assoc, List.cons_append]
          obtain ⟨hcalls, hlast⟩ := List.append_inj' hsplit rfl
          cases hlast
          obtain ⟨later, s', req', earlier, rfl, hearlier, hlater⟩ := ih hcalls
          refine ⟨(s, .call j req op' ans') :: later, s', req', earlier, rfl, hearlier, ?_⟩
          rw [History.calls_self, hlater, List.concat_eq_append]
      · rw [History.calls_ne hj] at h
        obtain ⟨later, s', req', earlier, rfl, hearlier, hlater⟩ := ih h
        exact ⟨(s, .call j req op' ans') :: later, s', req', earlier, rfl, hearlier,
          (History.calls_ne hj ..).trans hlater⟩

/-- The calls of a thread are those of its events. -/
theorem History.mem_calls {k : Nat} {l : History σ S τ} {op : σ.Op} {ans : σ.Ans op} :
    ⟨op, ans⟩ ∈ l.calls k ↔ ∃ s req, (s, .call k req op ans) ∈ l := by
  induction l with
  | nil => simp [History.calls]
  | cons step l ih =>
    obtain ⟨s, e⟩ := step
    cases e with
    | arrive => simp [History.calls, ih]
    | env => simp [History.calls, ih]
    | call j req op' ans' =>
      by_cases hj : j = k
      · subst hj
        rw [History.calls_self, List.mem_append, ih, List.mem_singleton]
        constructor
        · rintro (⟨s', req', hmem⟩ | heq)
          · exact ⟨s', req', List.mem_cons_of_mem _ hmem⟩
          · cases heq
            exact ⟨s, req, List.mem_cons_self⟩
        · rintro ⟨s', req', hmem⟩
          rcases List.mem_cons.mp hmem with heq | hmem
          · cases heq
            exact .inr rfl
          · exact .inl ⟨s', req', hmem⟩
      · rw [History.calls_ne hj, ih]
        constructor
        · rintro ⟨s', req', hmem⟩
          exact ⟨s', req', List.mem_cons_of_mem _ hmem⟩
        · rintro ⟨s', req', hmem⟩
          rcases List.mem_cons.mp hmem with heq | hmem
          · cases heq
            exact absurd rfl hj
          · exact ⟨s', req', hmem⟩

/-- A thread runs among the others: where the environment and every answer move
the state along a preorder, so it moves between the calls of a thread. -/
theorem Run.among {M : Machine σ S τ α} {R : S → S → Prop} (hrefl : ∀ s, R s s)
    (htrans : ∀ a b c, R a b → R b c → R a c) (henv : ∀ s s', M.env s s' → R s s')
    (hanswer : ∀ s op ans s', M.answer s op ans s' → R s s') {s₀ : S} {l : History σ S τ}
    {p : Pool σ S τ α} (h : Run M (.idle s₀) l p) {k : Nat} {req : τ} {q : Prog σ α}
    (hk : p.thread k = some (req, q)) :
    R s₀ p.state ∧ (M.code req).Among M.answer R s₀ (l.calls k) q p.state := by
  suffices hall : R s₀ p.state ∧ (p.thread k = none → l.calls k = []) ∧ ∀ req q,
      p.thread k = some (req, q) → (M.code req).Among M.answer R s₀ (l.calls k) q p.state from
    ⟨hall.1, hall.2.2 req q hk⟩
  clear hk
  induction h with
  | nil => exact ⟨hrefl s₀, fun _ => rfl, nofun⟩
  | @cons l p p' e _ hs ih =>
    obtain ⟨hmoved, hnone, hsome⟩ := ih
    cases hs with
    | @arrive j req' free _ =>
      refine ⟨hmoved, ?_⟩
      by_cases hj : k = j
      · subst hj
        rw [Pool.set_thread_self]
        refine ⟨nofun, fun req q hk => ?_⟩
        cases hk
        rw [History.calls, hnone free]
        exact .refl _ hmoved
      · rw [Pool.set_thread_ne _ _ _ hj]
        exact ⟨hnone, hsome⟩
    | @call j req' op cont ans s' at_call answered =>
      have hstep := hanswer _ _ _ _ answered
      refine ⟨htrans _ _ _ hmoved hstep, ?_⟩
      by_cases hj : k = j
      · subst hj
        rw [Pool.set_thread_self]
        refine ⟨nofun, fun req q hk => ?_⟩
        cases hk
        rw [History.calls_self]
        exact (hsome _ _ at_call).snoc hrefl answered
      · rw [Pool.set_thread_ne _ _ _ hj, History.calls_ne (Ne.symm hj)]
        exact ⟨hnone, fun req q hk => (hsome req q hk).moved htrans hstep⟩
    | env moves =>
      have hstep := henv _ _ moves
      exact ⟨htrans _ _ _ hmoved hstep, hnone, fun req q hk => (hsome req q hk).moved htrans hstep⟩

/-- A thread is where its calls have led it. -/
theorem Run.path {M : Machine σ S τ α} {s₀ : S} {l : History σ S τ} {p : Pool σ S τ α}
    (h : Run M (.idle s₀) l p) {k : Nat} {req : τ} {q : Prog σ α}
    (hk : p.thread k = some (req, q)) : (M.code req).Path (l.calls k) q := by
  have hamong := h.among (R := fun _ _ => True) (fun _ => trivial) (fun _ _ _ _ _ => trivial)
    (fun _ _ _ => trivial) (fun _ _ _ _ _ => trivial) hk
  exact hamong.2.path

/-- A thread has left to do what its request's code may come to. -/
theorem Run.reaches {M : Machine σ S τ α} {s₀ : S} {l : History σ S τ} {p : Pool σ S τ α}
    (h : Run M (.idle s₀) l p) {k : Nat} {req : τ} {q : Prog σ α}
    (hk : p.thread k = some (req, q)) : (M.code req).Reaches q := (h.path hk).reaches

/-- A thread keeps its request. -/
theorem Step.thread {M : Machine σ S τ α} {p p' : Pool σ S τ α} {e : Event σ τ}
    (h : Step M p e p') {k : Nat} {req : τ} {q : Prog σ α} (hk : p.thread k = some (req, q)) :
    ∃ q', p'.thread k = some (req, q') := by
  cases h with
  | @arrive j req' free _ =>
    have hj : k ≠ j := by
      rintro rfl
      rw [free] at hk
      cases hk
    exact ⟨q, (Pool.set_thread_ne _ _ _ hj).trans hk⟩
  | @call j req' op cont ans s' at_call _ =>
    by_cases hj : k = j
    · subst hj
      rw [at_call] at hk
      cases hk
      exact ⟨_, Pool.set_thread_self ..⟩
    · exact ⟨q, (Pool.set_thread_ne _ _ _ hj).trans hk⟩
  | env => exact ⟨q, hk⟩

/-- A thread may make any calls it could make alone, with no other step in
between. -/
theorem Run.alone {M : Machine σ S τ α} {p : Pool σ S τ α} {k : Nat} {req : τ} {q q' : Prog σ α}
    {s s' : S} {calls : List ((op : σ.Op) × σ.Ans op)} (h : q.Moves M.answer s calls q' s')
    (hk : p.thread k = some (req, q)) (hs : p.state = s) :
    ∃ l p', Run M p l p' ∧ p'.state = s' ∧ p'.thread k = some (req, q') ∧ l.calls k = calls ∧
      ∀ j, j ≠ k → p'.thread j = p.thread j ∧ l.calls j = [] := by
  induction h generalizing p with
  | refl => exact ⟨[], p, .nil, hs, hk, rfl, fun _ _ => ⟨rfl, rfl⟩⟩
  | @call op cont q' s s₁ s₂ ans calls answered _ ih =>
    subst hs
    obtain ⟨l, p', hrun, hs', hk', hcalls, hothers⟩ :=
      ih (p := p.set s₁ k (req, cont ans)) (Pool.set_thread_self ..) rfl
    refine ⟨_, p', (Run.nil.call k hk answered).trans hrun, hs', hk', ?_, fun j hj => ?_⟩
    · rw [History.calls_split, hcalls]
      rfl
    · obtain ⟨hsame, hnone⟩ := hothers j hj
      rw [History.calls_append, History.calls_ne (Ne.symm hj), hnone]
      exact ⟨hsame.trans (Pool.set_thread_ne _ _ _ hj), rfl⟩

/-- A request may arrive at a free thread and be served alone for a while. -/
theorem Run.served {M : Machine σ S τ α} {p : Pool σ S τ α} {k : Nat} {req : τ} {q : Prog σ α}
    {s s' : S} {calls : List ((op : σ.Op) × σ.Ans op)}
    (h : (M.code req).Moves M.answer s calls q s') (hfree : p.thread k = none)
    (harrives : M.arrives req) (hs : p.state = s) :
    ∃ l p', Run M p l p' ∧ p'.state = s' ∧ p'.thread k = some (req, q) ∧ l.calls k = calls ∧
      ∀ j, j ≠ k → p'.thread j = p.thread j ∧ l.calls j = [] := by
  obtain ⟨l, p', hrun, hs', hk', hcalls, hothers⟩ :=
    Run.alone (p := p.set p.state k (req, M.code req)) h (Pool.set_thread_self ..) hs
  refine ⟨_, p', (Run.nil.arrive k req hfree harrives).trans hrun, hs', hk', ?_, fun j hj => ?_⟩
  · rw [History.calls_append, hcalls]
    rfl
  · obtain ⟨hsame, hnone⟩ := hothers j hj
    rw [History.calls_append, hnone]
    exact ⟨hsame.trans (Pool.set_thread_ne _ _ _ hj), rfl⟩

/-- Two threads may take turns. -/
theorem Run.turns {M : Machine σ S τ α} {p : Pool σ S τ α} {j k : Nat} (hjk : j ≠ k) {req req' : τ}
    {a₀ a₁ a₂ b₀ b₁ b₂ b₃ : Prog σ α} {s₀ s₁ s₂ s₃ s₄ s₅ : S}
    {c₁ c₂ c₃ c₄ c₅ : List ((op : σ.Op) × σ.Ans op)} (hs : p.state = s₀)
    (hj : p.thread j = some (req, a₀)) (hk : p.thread k = some (req', b₀))
    (h₁ : b₀.Moves M.answer s₀ c₁ b₁ s₁) (h₂ : a₀.Moves M.answer s₁ c₂ a₁ s₂)
    (h₃ : b₁.Moves M.answer s₂ c₃ b₂ s₃) (h₄ : a₁.Moves M.answer s₃ c₄ a₂ s₄)
    (h₅ : b₂.Moves M.answer s₄ c₅ b₃ s₅) :
    ∃ l p', Run M p l p' ∧ p'.state = s₅ ∧ p'.thread j = some (req, a₂) ∧
      p'.thread k = some (req', b₃) := by
  obtain ⟨l₁, p₁, hrun₁, hs₁, hk₁, -, hothers₁⟩ := Run.alone h₁ hk hs
  obtain ⟨l₂, p₂, hrun₂, hs₂, hj₂, -, hothers₂⟩ := Run.alone h₂ ((hothers₁ j hjk).1.trans hj) hs₁
  obtain ⟨l₃, p₃, hrun₃, hs₃, hk₃, -, hothers₃⟩ := Run.alone h₃ ((hothers₂ k hjk.symm).1.trans hk₁) hs₂
  obtain ⟨l₄, p₄, hrun₄, hs₄, hj₄, -, hothers₄⟩ := Run.alone h₄ ((hothers₃ j hjk).1.trans hj₂) hs₃
  obtain ⟨l₅, p₅, hrun₅, hs₅, hk₅, -, hothers₅⟩ := Run.alone h₅ ((hothers₄ k hjk.symm).1.trans hk₃) hs₄
  exact ⟨_, p₅, (((hrun₁.trans hrun₂).trans hrun₃).trans hrun₄).trans hrun₅, hs₅,
    (hothers₅ j hjk).1.trans hj₄, hk₅⟩

/-- The request of a call is the one its thread serves. -/
theorem Run.thread_of_call {M : Machine σ S τ α} {p₀ p : Pool σ S τ α} {l : History σ S τ}
    (h : Run M p₀ l p) {s : S} {k : Nat} {req : τ} {op : σ.Op} {ans : σ.Ans op}
    (hmem : (s, .call k req op ans) ∈ l) : ∃ q, p.thread k = some (req, q) := by
  induction h with
  | nil => cases hmem
  | cons _ hs ih =>
    rcases List.mem_cons.mp hmem with heq | hmem
    · cases heq
      cases hs with
      | call => exact ⟨_, Pool.set_thread_self ..⟩
    · obtain ⟨q, hq⟩ := ih hmem
      exact hs.thread hq

/-- A thread makes its calls for the request it serves. -/
theorem Run.request_eq {M : Machine σ S τ α} {p₀ p : Pool σ S τ α} {l : History σ S τ}
    (h : Run M p₀ l p) {s : S} {k : Nat} {req req' : τ} {q : Prog σ α} {op : σ.Op} {ans : σ.Ans op}
    (hk : p.thread k = some (req, q)) (hmem : (s, .call k req' op ans) ∈ l) : req' = req := by
  obtain ⟨q', hk'⟩ := h.thread_of_call hmem
  rw [hk] at hk'
  cases hk'
  rfl

/-- The event of a call of a thread is one for its request. -/
theorem Run.event_of_call {M : Machine σ S τ α} {p₀ p : Pool σ S τ α} {l : History σ S τ}
    (h : Run M p₀ l p) {k : Nat} {req : τ} {q : Prog σ α} (hk : p.thread k = some (req, q)) {op : σ.Op}
    {ans : σ.Ans op} (hmem : ⟨op, ans⟩ ∈ l.calls k) : ∃ s, (s, .call k req op ans) ∈ l := by
  obtain ⟨s, req', hevent⟩ := History.mem_calls.mp hmem
  obtain rfl := h.request_eq hk hevent
  exact ⟨s, hevent⟩

/-! ## Predicates of every call -/

/-- Every call a thread can still make satisfies the predicate of its request. -/
def Pool.Every (P : τ → σ.Op → Prop) (p : Pool σ S τ α) : Prop :=
  ∀ k req q, p.thread k = some (req, q) → q.Every (P req)

/-- A step keeps the predicate, and the call it makes satisfies it. -/
theorem Step.every {M : Machine σ S τ α} {P : τ → σ.Op → Prop}
    (hcode : ∀ req, M.arrives req → (M.code req).Every (P req))
    {p p' : Pool σ S τ α} {e : Event σ τ} (hs : Step M p e p') (hp : p.Every P) :
    p'.Every P ∧ ∀ k req op ans, e = .call k req op ans → P req op := by
  cases hs with
  | @arrive k req free arrives =>
    refine ⟨fun j req' q hj => ?_, fun _ _ _ _ he => by cases he⟩
    by_cases h : j = k
    · subst h
      rw [Pool.set_thread_self] at hj
      cases hj
      exact hcode req arrives
    · rw [Pool.set_thread_ne _ _ _ h] at hj
      exact hp j req' q hj
  | @call k req op cont ans s' at_call answered =>
    obtain ⟨hop, hcont⟩ := hp k req _ at_call
    refine ⟨fun j req' q hj => ?_, fun _ _ _ _ he => by cases he; exact hop⟩
    by_cases h : j = k
    · subst h
      rw [Pool.set_thread_self] at hj
      cases hj
      exact hcont ans
    · rw [Pool.set_thread_ne _ _ _ h] at hj
      exact hp j req' q hj
  | env moves => exact ⟨hp, fun _ _ _ _ he => by cases he⟩

/-- What the code of every arriving request satisfies at each call, every call
of every run satisfies. -/
theorem Run.every {M : Machine σ S τ α} {P : τ → σ.Op → Prop}
    (hcode : ∀ req, M.arrives req → (M.code req).Every (P req)) {p₀ p : Pool σ S τ α}
    {l : History σ S τ} (h₀ : p₀.Every P) (h : Run M p₀ l p) :
    p.Every P ∧ ∀ s k req op ans, (s, Event.call k req op ans) ∈ l → P req op := by
  induction h with
  | nil => exact ⟨h₀, fun _ _ _ _ _ hm => absurd hm List.not_mem_nil⟩
  | cons _ hs ih =>
    obtain ⟨hp, hcall⟩ := hs.every hcode ih.1
    refine ⟨hp, fun s k req op ans hm => ?_⟩
    rcases List.mem_cons.mp hm with he | hm
    · cases he
      exact hcall k req op ans rfl
    · exact ih.2 s k req op ans hm

/-- What each call needs comes from the answers before it, and what an answer
says from an invariant that the calls keep: then the invariant holds in every
state of every run of steps of a kind, and every call has what it needs. -/
theorem Run.given {M : Machine σ S τ α} {A : (op : σ.Op) → σ.Ans op → Prop}
    {P : τ → σ.Op → Prop} {I : S → Prop} {allowed : S → Event σ τ → Prop}
    (hcode : ∀ req, M.arrives req → (M.code req).Given A (P req))
    (hcall : ∀ s k req op ans s', I s → P req op → allowed s (.call k req op ans) →
      M.answer s op ans s' → A op ans ∧ I s')
    (henv : ∀ s s', I s → M.env s s' → I s') {s₀ : S} (h₀ : I s₀) {l : History σ S τ}
    {p : Pool σ S τ α} (h : Run M (.idle s₀) l p) (hall : ∀ s e, (s, e) ∈ l → allowed s e) :
    (∀ s, Run.Visited l p s → I s) ∧
      ∀ s k req op ans, (s, Event.call k req op ans) ∈ l → P req op := by
  suffices hall : (∀ s, Run.Visited l p s → I s) ∧
      (∀ s k req op ans, (s, Event.call k req op ans) ∈ l → P req op) ∧
      ∀ k req q, p.thread k = some (req, q) → q.Given A (P req) from ⟨hall.1, hall.2.1⟩
  induction h with
  | nil =>
    refine ⟨fun s hs => ?_, fun _ _ _ _ _ hm => absurd hm List.not_mem_nil, fun _ _ _ hq => by cases hq⟩
    rcases hs with rfl | ⟨e, he⟩
    · exact h₀
    · cases he
  | @cons l p p' e _ hs ih =>
    obtain ⟨hinv, hmade, hthreads⟩ := ih fun s e he => hall s e (List.mem_cons_of_mem _ he)
    have hbefore : I p.state := hinv _ (.inl rfl)
    have hafter : I p'.state → ∀ s, Run.Visited ((p.state, e) :: l) p' s → I s := by
      rintro hnow s (rfl | ⟨e', he'⟩)
      · exact hnow
      · rcases List.mem_cons.mp he' with heq | hmem
        · cases heq
          exact hbefore
        · exact hinv s (.inr ⟨e', hmem⟩)
    have hmade' : (∀ k req op ans, e = .call k req op ans → P req op) →
        ∀ s k req op ans, (s, Event.call k req op ans) ∈ (p.state, e) :: l → P req op := by
      intro hnow s k req op ans hm
      rcases List.mem_cons.mp hm with heq | hm
      · cases heq
        exact hnow k req op ans rfl
      · exact hmade s k req op ans hm
    cases hs with
    | @arrive k req free arrives =>
      refine ⟨hafter hbefore, hmade' fun _ _ _ _ he => (by cases he), fun j req' q hj => ?_⟩
      by_cases h : j = k
      · subst h
        rw [Pool.set_thread_self] at hj
        cases hj
        exact hcode req arrives
      · rw [Pool.set_thread_ne _ _ _ h] at hj
        exact hthreads j req' q hj
    | @call k req op cont ans s' at_call answered =>
      obtain ⟨hop, hcont⟩ := hthreads k req _ at_call
      obtain ⟨hans, hnow⟩ := hcall _ k req op ans s' hbefore hop (hall _ _ List.mem_cons_self) answered
      refine ⟨hafter hnow, hmade' fun _ _ _ _ he => (by cases he; exact hop), fun j req' q hj => ?_⟩
      by_cases h : j = k
      · subst h
        rw [Pool.set_thread_self] at hj
        cases hj
        exact hcont ans hans
      · rw [Pool.set_thread_ne _ _ _ h] at hj
        exact hthreads j req' q hj
    | @env s' moves =>
      exact ⟨hafter (henv _ s' hbefore moves), hmade' fun _ _ _ _ he => (by cases he), hthreads⟩

/-- The idle pool makes no call. -/
theorem Pool.idle_every (P : τ → σ.Op → Prop) (s : S) :
    (Pool.idle s : Pool σ S τ α).Every P := fun _ _ _ h => by cases h

/-! ## The rely and guarantee rule -/

/-- Every step of the history is one of `A`, judged by what came before it. -/
def History.All (A : History σ S τ → S → Event σ τ → Prop) : History σ S τ → Prop
  | [] => True
  | (s, e) :: l => A l s e ∧ History.All A l

/-- Every step of the history, the last one into `s'`, is one of `G`. -/
def History.Steps (G : History σ S τ → S → Event σ τ → S → Prop) : History σ S τ → S → Prop
  | [], _ => True
  | (s, e) :: l, s' => G l s e s' ∧ History.Steps G l s

theorem History.All.imp {A A' : History σ S τ → S → Event σ τ → Prop}
    (h : ∀ l s e, A l s e → A' l s e) {l : History σ S τ} (hall : History.All A l) :
    History.All A' l := by
  induction l with
  | nil => exact trivial
  | cons step l ih => exact ⟨h _ _ _ hall.1, ih hall.2⟩

/-- What steps of a kind guarantee may be weakened. -/
theorem History.Steps.imp {A : History σ S τ → S → Event σ τ → Prop}
    {G G' : History σ S τ → S → Event σ τ → S → Prop}
    (h : ∀ l s e s', A l s e → G l s e s' → G' l s e s') {l : History σ S τ} {s' : S}
    (hall : History.All A l) (hsteps : History.Steps G l s') : History.Steps G' l s' := by
  induction l generalizing s' with
  | nil => exact trivial
  | cons step l ih => exact ⟨h _ _ _ _ hall.1 hsteps.1, ih hall.2 hsteps.2⟩

/-- What every step guarantees, every step is. -/
theorem History.Steps.all {A : History σ S τ → S → Event σ τ → Prop}
    {G : History σ S τ → S → Event σ τ → S → Prop} (h : ∀ l s e s', G l s e s' → A l s e)
    {l : History σ S τ} {s' : S} (hsteps : History.Steps G l s') : History.All A l := by
  induction l generalizing s' with
  | nil => exact trivial
  | cons step l ih => exact ⟨h _ _ _ _ hsteps.1, ih hsteps.2⟩

/-- What every step of a run does, every step of its history does. -/
theorem Run.steps {M : Machine σ S τ α} {p₀ p : Pool σ S τ α} {l : History σ S τ}
    {G : S → Event σ τ → S → Prop} (h : Run M p₀ l p)
    (hstep : ∀ q e q', Step M q e q' → (q.state, e) ∈ l → G q.state e q'.state) :
    l.Steps (fun _ s e s' => G s e s') p.state := by
  induction h with
  | nil => exact trivial
  | cons _ hs ih =>
    exact ⟨hstep _ _ _ hs List.mem_cons_self,
      ih fun q e q' hs' hmem => hstep q e q' hs' (List.mem_cons_of_mem _ hmem)⟩

/-- The terms the threads of a pool agree on: an invariant, the steps the runs
under study take, and what each such step guarantees the others. -/
structure Contract (σ : Sig) (S τ : Type) where
  inv : History σ S τ → S → Prop
  allowed : History σ S τ → S → Event σ τ → Prop
  guar : History σ S τ → S → Event σ τ → S → Prop

/-- An event that is not a call of thread `k`. -/
def Event.Foreign (k : Nat) (e : Event σ τ) : Prop :=
  ∀ req op ans, e ≠ .call k req op ans

/-- The assertion `P` of thread `k` survives every step of the others. -/
def Stable (C : Contract σ S τ) (k : Nat) (P : History σ S τ → S → Prop) : Prop :=
  ∀ l s e s', e.Foreign k → C.inv l s → P l s → C.allowed l s e → C.guar l s e s' →
    P ((s, e) :: l) s'

/-- Code that keeps the contract from the assertion in front of it: each call
does, and establishes an assertion for what follows its answer. -/
def Valid (M : Machine σ S τ α) (C : Contract σ S τ) (k : Nat) (req : τ) :
    Prog σ α → (History σ S τ → S → Prop) → Prop
  | .ret _, _ => True
  | .call op cont, P => Stable C k P ∧ ∀ l s ans s', C.inv l s → P l s →
      C.allowed l s (.call k req op ans) → M.answer s op ans s' →
      C.guar l s (.call k req op ans) s' ∧ C.inv ((s, .call k req op ans) :: l) s' ∧
      ∃ Q, Q ((s, .call k req op ans) :: l) s' ∧ Valid M C k req (cont ans) Q

/-- Thread `k` has an assertion that holds now and carries its code. -/
private def Outlined (M : Machine σ S τ α) (C : Contract σ S τ) (l : History σ S τ)
    (p : Pool σ S τ α) (k : Nat) : Prop :=
  ∀ req q, p.thread k = some (req, q) → ∃ P, P l p.state ∧ Valid M C k req q P

/-- A foreign step keeps a thread outlined. -/
private theorem Outlined.foreign {M : Machine σ S τ α} {C : Contract σ S τ} {l : History σ S τ}
    {p p' : Pool σ S τ α} {k : Nat} {e : Event σ τ} (h : Outlined M C l p k)
    (same : p'.thread k = p.thread k) (foreign : e.Foreign k) (hinv : C.inv l p.state)
    (hallowed : C.allowed l p.state e) (hguar : C.guar l p.state e p'.state) :
    Outlined M C ((p.state, e) :: l) p' k := by
  intro req q hq
  rw [same] at hq
  obtain ⟨P, hP, hv⟩ := h req q hq
  cases q with
  | ret => exact ⟨fun _ _ => True, trivial, trivial⟩
  | call op cont => exact ⟨P, hv.1 _ _ _ _ foreign hinv hP hallowed hguar, hv⟩

/-- THE RULE. When the code of every arriving request is valid from an
assertion its arrival establishes, and the environment keeps the contract,
every run of allowed steps keeps the invariant and every step of it
guarantees what the contract says. -/
theorem Run.outline {M : Machine σ S τ α} {C : Contract σ S τ}
    (harrive : ∀ l s k req, M.arrives req → C.inv l s → C.allowed l s (.arrive k req) →
      C.guar l s (.arrive k req) s ∧ C.inv ((s, .arrive k req) :: l) s ∧
      ∃ P, P ((s, .arrive k req) :: l) s ∧ Valid M C k req (M.code req) P)
    (henv : ∀ l s s', M.env s s' → C.inv l s → C.allowed l s .env →
      C.guar l s .env s' ∧ C.inv ((s, .env) :: l) s')
    {s₀ : S} (h₀ : C.inv [] s₀) {l : History σ S τ} {p : Pool σ S τ α}
    (h : Run M (.idle s₀) l p) (hall : History.All C.allowed l) :
    C.inv l p.state ∧ History.Steps C.guar l p.state := by
  suffices hout : C.inv l p.state ∧ History.Steps C.guar l p.state ∧ ∀ k, Outlined M C l p k from
    ⟨hout.1, hout.2.1⟩
  induction h with
  | nil => exact ⟨h₀, trivial, fun k req q hq => by cases hq⟩
  | @cons l p p' e _ hs ih =>
    obtain ⟨hallowed, hrest⟩ := hall
    obtain ⟨hinv, hguars, hthreads⟩ := ih hrest
    cases hs with
    | @arrive k req free arrives =>
      obtain ⟨hguar, hinv', P, hP, hv⟩ := harrive l _ k req arrives hinv hallowed
      refine ⟨hinv', ⟨hguar, hguars⟩, fun j => ?_⟩
      by_cases hj : j = k
      · subst hj
        intro req' q hq
        rw [Pool.set_thread_self] at hq
        cases hq
        exact ⟨P, hP, hv⟩
      · exact (hthreads j).foreign (Pool.set_thread_ne _ _ _ hj) (fun _ _ _ he => by cases he)
          hinv hallowed hguar
    | @call k req op cont ans s' at_call answered =>
      obtain ⟨P, hP, -, hv⟩ := hthreads k req _ at_call
      obtain ⟨hguar, hinv', Q, hQ, hv'⟩ := hv l _ ans s' hinv hP hallowed answered
      refine ⟨hinv', ⟨hguar, hguars⟩, fun j => ?_⟩
      by_cases hj : j = k
      · subst hj
        intro req' q hq
        rw [Pool.set_thread_self] at hq
        cases hq
        exact ⟨Q, hQ, hv'⟩
      · refine (hthreads j).foreign (Pool.set_thread_ne _ _ _ hj) (fun _ _ _ he => ?_)
          hinv hallowed hguar
        cases he
        exact hj rfl
    | @env s' moves =>
      obtain ⟨hguar, hinv'⟩ := henv l _ s' moves hinv hallowed
      exact ⟨hinv', ⟨hguar, hguars⟩, fun j =>
        (hthreads j).foreign rfl (fun _ _ _ he => by cases he) hinv hallowed hguar⟩

end Interleave
