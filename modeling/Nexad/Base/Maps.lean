import Mathlib.Data.Finmap

/-!
# Maps filled from a list

`insertAll` inserts the elements of a list one after the other under keys made
from them. A key then holds the LAST element that has it
(`lookup_insertAll`), so an element is found under its own key when no other
element has the same one.
-/

namespace Maps

variable {α β κ : Type} [DecidableEq κ] (key : α → κ) (val : α → β)

/-- Insert each element of the list in turn. -/
def insertAll (l : List α) (m : Finmap fun _ : κ => β) : Finmap fun _ : κ => β :=
  l.foldl (fun m a => m.insert (key a) (val a)) m

theorem lookup_insertAll (l : List α) (m : Finmap fun _ : κ => β) (k : κ) :
    (insertAll key val l m).lookup k =
      ((l.reverse.find? fun a => key a = k).map val).or (m.lookup k) := by
  induction l generalizing m with
  | nil => rfl
  | cons a l ih =>
    show (insertAll key val l (m.insert (key a) (val a))).lookup k = _
    rw [ih, List.reverse_cons, List.find?_append]
    cases l.reverse.find? fun a => key a = k with
    | some b => rfl
    | none =>
      by_cases hk : key a = k
      · subst hk
        simp [Finmap.lookup_insert]
      · rw [Finmap.lookup_insert_of_ne _ (Ne.symm hk)]
        simp [hk]

variable {key val}

/-- What a key holds was put there, or stands there from before. -/
theorem exists_of_lookup_insertAll {l : List α} {k : κ} {b : β}
    (h : (insertAll key val l ∅).lookup k = some b) : ∃ a ∈ l, key a = k ∧ val a = b := by
  rw [lookup_insertAll, Finmap.lookup_empty, Option.or_none] at h
  obtain ⟨a, ha, hb⟩ := Option.map_eq_some_iff.mp h
  refine ⟨a, List.mem_reverse.mp (List.mem_of_find?_eq_some ha), ?_, hb⟩
  simpa using List.find?_some ha

theorem lookup_insertAll_eq_none_iff {l : List α} {k : κ} :
    (insertAll key val l ∅).lookup k = none ↔ ∀ a ∈ l, key a ≠ k := by
  rw [lookup_insertAll, Finmap.lookup_empty, Option.or_none, Option.map_eq_none_iff,
    List.find?_eq_none]
  simp

/-- An element is found under its key when it is the only one with it. -/
theorem lookup_insertAll_of_unique {l : List α} {m : Finmap fun _ : κ => β} {a : α} (ha : a ∈ l)
    (hunique : ∀ a' ∈ l, key a' = key a → a' = a) :
    (insertAll key val l m).lookup (key a) = some (val a) := by
  rw [lookup_insertAll]
  cases hf : l.reverse.find? fun a' => key a' = key a with
  | none =>
    have hself := List.find?_eq_none.mp hf a (List.mem_reverse.mpr ha)
    exact absurd (decide_eq_true rfl) hself
  | some a' =>
    have hkey : key a' = key a := by simpa using List.find?_some hf
    have hmem := List.mem_reverse.mp (List.mem_of_find?_eq_some hf)
    rw [hunique a' hmem hkey, Option.map_some, Option.some_or]

/-- The last element with a key is found under it. -/
theorem lookup_insertAll_of_last {earlier later : List α} {m : Finmap fun _ : κ => β} {a : α}
    (hlast : ∀ a' ∈ later, key a' ≠ key a) :
    (insertAll key val (earlier ++ a :: later) m).lookup (key a) = some (val a) := by
  have hlater : (later.reverse.find? fun a' => key a' = key a) = none := by
    refine List.find?_eq_none.mpr fun a' ha' => ?_
    simpa using hlast a' (List.mem_reverse.mp ha')
  rw [lookup_insertAll, List.reverse_append, List.reverse_cons, List.append_assoc,
    List.find?_append, hlater, Option.none_or, List.singleton_append]
  simp

end Maps
