/-!
# Runs of a labelled step relation

One party takes step after step. A run carries its history, newest first: each
label with the state it was taken in. `Run.visited` is the induction that
carries an invariant through the steps of a kind.

Where a step is a function that also answers, `answers` is the run, and
`answers_related` carries a simulation through it.
-/

namespace Runs

variable {S E : Type} {step : S → E → S → Prop}

/-- A run from `s₀`, with its history. -/
inductive Run (step : S → E → S → Prop) (s₀ : S) : List (S × E) → S → Prop
  | nil : Run step s₀ [] s₀
  | cons {l : List (S × E)} {s s' : S} {e : E} (run : Run step s₀ l s) (next : step s e s') :
      Run step s₀ ((s, e) :: l) s'

/-- The states a run with this history and end has been in. -/
def Visited (l : List (S × E)) (s s' : S) : Prop := s' = s ∨ ∃ e, (s', e) ∈ l

variable {s₀ s : S} {l : List (S × E)}

/-- What the start has and steps of a kind keep holds wherever a run of such
steps has been. -/
theorem Run.visited {I : S → Prop} {A : S → E → Prop} (h : Run step s₀ l s) (h₀ : I s₀)
    (hstep : ∀ s e s', step s e s' → A s e → I s → I s') (hall : ∀ s e, (s, e) ∈ l → A s e) {s' : S}
    (hs' : Visited l s s') : I s' := by
  induction h generalizing s' with
  | nil =>
    rcases hs' with rfl | ⟨e, he⟩
    · exact h₀
    · cases he
  | @cons l q q' e _ hnext ih =>
    have hbefore : ∀ {s}, Visited l q s → I s :=
      ih fun s e he => hall s e (List.mem_cons_of_mem _ he)
    rcases hs' with rfl | ⟨e', he'⟩
    · exact hstep _ _ _ hnext (hall _ _ List.mem_cons_self) (hbefore (.inl rfl))
    · rcases List.mem_cons.mp he' with heq | hmem
      · cases heq
        exact hbefore (.inl rfl)
      · exact hbefore (.inr ⟨e', hmem⟩)

/-- A run has been in the states around each of its steps. -/
theorem Run.around (h : Run step s₀ l s) {q : S} {e : E} (hmem : (q, e) ∈ l) :
    ∃ q', step q e q' ∧ Visited l s q' := by
  induction h with
  | nil => cases hmem
  | @cons l r r' e' _ hnext ih =>
    rcases List.mem_cons.mp hmem with heq | hmem
    · cases heq
      exact ⟨r', hnext, .inl rfl⟩
    · obtain ⟨q', hstep, rfl | ⟨e'', he''⟩⟩ := ih hmem
      · exact ⟨_, hstep, .inr ⟨e', List.mem_cons_self⟩⟩
      · exact ⟨q', hstep, .inr ⟨e'', List.mem_cons_of_mem _ he''⟩⟩

/-! ## Steps that answer -/

section Answers

variable {S' A : Type}

/-- Step after step, with what each answers. -/
def answers (step : S → E → S × A) : S → List E → S × List A
  | s, [] => (s, [])
  | s, e :: es =>
    let rest := answers step (step s e).1 es
    (rest.1, (step s e).2 :: rest.2)

/-- Two systems whose steps answer alike and stay related run alike. -/
theorem answers_related {step : S → E → S × A} {step' : S' → E → S' × A} {R : S → S' → Prop}
    (hstep : ∀ s s' e, R s s' → (step s e).2 = (step' s' e).2 ∧ R (step s e).1 (step' s' e).1)
    (es : List E) {s : S} {s' : S'} (h : R s s') :
    (answers step s es).2 = (answers step' s' es).2 ∧
      R (answers step s es).1 (answers step' s' es).1 := by
  induction es generalizing s s' with
  | nil => exact ⟨rfl, h⟩
  | cons e es ih =>
    obtain ⟨hanswer, hrelated⟩ := hstep s s' e h
    obtain ⟨hanswers, hend⟩ := ih hrelated
    exact ⟨by rw [answers, answers, hanswer, hanswers], hend⟩

end Answers

end Runs
