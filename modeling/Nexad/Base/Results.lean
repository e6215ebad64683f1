import Mathlib.Data.List.Basic

/-!
# Computations that may fail

When a guarded computation returns, what becomes of its result and of its
error, and what a loop over a list returns when each of its steps does.
-/

namespace Results

variable {α β ε ε' : Type}

/-- A guarded error succeeds when the guard fails and the rest succeeds. -/
theorem ite_error_eq_ok {p : Prop} [Decidable p] {e : ε} {x : Except ε α} {a : α} :
    (if p then .error e else x) = .ok a ↔ ¬ p ∧ x = .ok a := by
  by_cases hp : p
  · simp [hp]
  · simp [hp]

/-- What is made of the result and of the error. -/
theorem map_mapError (x : Except ε α) (f : α → β) (g : ε → ε') :
    (x.mapError g).map f = (x.map f).mapError g := by
  cases x <;> rfl

/-- A loop in which every step goes well. -/
theorem mapM_eq_ok {f : α → Except ε β} {g : α → β} {l : List α} (h : ∀ a ∈ l, f a = .ok (g a)) :
    l.mapM f = .ok (l.map g) := by
  induction l with
  | nil => rfl
  | cons a l ih =>
    rw [List.mapM_cons, h a List.mem_cons_self, ih fun b hb => h b (List.mem_cons_of_mem _ hb)]
    rfl

/-- A loop that reads back what was written. -/
theorem mapM_map_eq_ok {read : β → Except ε α} {write : α → β} (h : ∀ a, read (write a) = .ok a)
    (l : List α) : (l.map write).mapM read = .ok l := by
  have hread : ∀ a ∈ l, (read ∘ write) a = .ok (id a) := fun a _ => h a
  rw [List.mapM_map, mapM_eq_ok hread, List.map_id]

/-- What a loop returns are the results of its steps. -/
theorem exists_mapM_eq_ok {f : α → Except ε β} {l : List α} (h : ∀ a ∈ l, ∃ b, f a = .ok b) :
    ∃ bs, l.mapM f = .ok bs ∧ ∀ b, b ∈ bs ↔ ∃ a ∈ l, f a = .ok b := by
  induction l with
  | nil => exact ⟨[], rfl, by simp⟩
  | cons a l ih =>
    obtain ⟨b, hb⟩ := h a (List.mem_cons_self ..)
    obtain ⟨bs, hbs, hmem⟩ := ih fun a' ha' => h a' (List.mem_cons_of_mem _ ha')
    refine ⟨b :: bs, by rw [List.mapM_cons, hb, hbs]; rfl, fun b' => ?_⟩
    have hfirst : b' = b ↔ f a = .ok b' := by rw [hb, Except.ok.injEq, eq_comm]
    simp only [List.mem_cons, exists_eq_or_imp, hmem, hfirst]

/-- A quantity of the results of a loop is one of what they were made from. -/
theorem map_of_mapM_eq_ok {γ : Type} {f : α → Except ε β} {key : α → γ} {key' : β → γ} {l : List α}
    {bs : List β} (h : l.mapM f = .ok bs) (hkey : ∀ a ∈ l, ∀ b, f a = .ok b → key' b = key a) :
    bs.map key' = l.map key := by
  induction l generalizing bs with
  | nil =>
    cases h
    rfl
  | cons a l ih =>
    rw [List.mapM_cons] at h
    cases ha : f a with
    | error e =>
      rw [ha] at h
      cases h
    | ok b =>
      rw [ha] at h
      cases hl : l.mapM f with
      | error e =>
        rw [hl] at h
        cases h
      | ok rest =>
        rw [hl] at h
        cases h
        rw [List.map_cons, List.map_cons, hkey a List.mem_cons_self b ha,
          ih hl fun a' ha' => hkey a' (List.mem_cons_of_mem _ ha')]

end Results
