/-!
# Checked access to a sequence

An index or a range outside of a slice is a panic, not a value. A run that
returns has made no such access.
-/

namespace Slice

variable {α : Type}

/-- Why a run was abandoned. -/
inductive Panic where
  | outOfRange
  deriving DecidableEq, Repr

/-- `data[i]` -/
def index (data : List α) (i : Nat) : Except Panic α :=
  match data[i]? with
  | some a => .ok a
  | none => .error .outOfRange

/-- `data[start..stop]` -/
def range (data : List α) (start stop : Nat) : Except Panic (List α) :=
  if start ≤ stop ∧ stop ≤ data.length then .ok ((data.take stop).drop start)
  else .error .outOfRange

/-- `data.split_at(middle)` -/
def splitAt (data : List α) (middle : Nat) : Except Panic (List α × List α) :=
  if middle ≤ data.length then .ok (data.take middle, data.drop middle) else .error .outOfRange

/-- `[T; n]` -/
abbrev ArrayOf (α : Type) (n : Nat) := { data : List α // data.length = n }

/-- A slice as an array of its length: another length is a panic. -/
def fromSlice (n : Nat) (data : List α) : Except Panic (ArrayOf α n) :=
  if h : data.length = n then .ok ⟨data, h⟩ else .error .outOfRange

/-- A run goes on from an access that was made. -/
@[simp] theorem ok_bind {β : Type} (a : α) (f : α → Except Panic β) :
    (Except.ok a >>= f) = f a := rfl

/-- A run that returns has come through its first step. -/
theorem bind_eq_ok {β : Type} {x : Except Panic α} {f : α → Except Panic β} {b : β}
    (h : (x >>= f) = .ok b) : ∃ a, x = .ok a ∧ f a = .ok b := by
  cases x with
  | error e => cases h
  | ok a => exact ⟨a, rfl, h⟩

/-- The element after the first ones. -/
theorem index_append (front : List α) (a : α) (rest : List α) :
    index (front ++ a :: rest) front.length = .ok a := by
  unfold index
  rw [List.getElem?_append_right (Nat.le_refl _), Nat.sub_self, List.getElem?_cons_zero]

/-- The part between two others. -/
theorem range_append (front middle rest : List α) :
    range (front ++ (middle ++ rest)) front.length (front.length + middle.length) = .ok middle := by
  unfold range
  rw [if_pos ⟨Nat.le_add_right _ _, by simp only [List.length_append]; omega⟩, ← List.append_assoc,
    ← List.length_append, List.take_left, List.drop_left]

/-- A slice that begins with an array is split behind it. -/
theorem splitAt_append {n : Nat} (front : ArrayOf α n) (rest : List α) :
    splitAt (front.1 ++ rest) n = .ok (front.1, rest) := by
  obtain ⟨front, rfl⟩ := front
  rw [splitAt, if_pos (by rw [List.length_append]; exact Nat.le_add_right _ _), List.take_left,
    List.drop_left]

theorem fromSlice_coe {n : Nat} (data : ArrayOf α n) : fromSlice n data.1 = .ok data :=
  dif_pos data.2

/-- A slice that is long enough begins with an array. -/
theorem exists_array_append {n : Nat} {data : List α} (h : n ≤ data.length) :
    ∃ (front : ArrayOf α n) (rest : List α), data = front.1 ++ rest :=
  ⟨⟨data.take n, List.length_take_of_le h⟩, data.drop n, (List.take_append_drop n data).symm⟩

/-- An access that returns is one that was made. -/
theorem index_eq_ok_iff {data : List α} {i : Nat} {a : α} :
    index data i = .ok a ↔ data[i]? = some a := by
  unfold index
  cases data[i]? with
  | none =>
    constructor
    · intro h
      cases h
    · intro h
      cases h
  | some b =>
    constructor
    · intro h
      cases h
      rfl
    · intro h
      cases h
      rfl

theorem range_eq_ok_iff {data part : List α} {start stop : Nat} :
    range data start stop = .ok part ↔
      start ≤ stop ∧ stop ≤ data.length ∧ part = (data.take stop).drop start := by
  unfold range
  split
  · next h =>
    constructor
    · intro hpart
      exact ⟨h.1, h.2, (Except.ok.inj hpart).symm⟩
    · rintro ⟨-, -, rfl⟩
      rfl
  · next h =>
    constructor
    · intro hpart
      cases hpart
    · rintro ⟨hstart, hstop, -⟩
      exact absurd ⟨hstart, hstop⟩ h

/-- A part is what comes up to a place in it, and the rest. -/
theorem part_split (data : List α) {start middle stop : Nat} (hstart : start ≤ middle)
    (hstop : middle ≤ stop) : (data.take stop).drop start =
      (data.take middle).drop start ++ (data.take stop).drop middle := by
  obtain ⟨m, rfl⟩ := Nat.exists_eq_add_of_le hstart
  obtain ⟨n, rfl⟩ := Nat.exists_eq_add_of_le hstop
  rw [List.drop_take, List.drop_take, List.drop_take, Nat.add_sub_cancel_left,
    Nat.add_sub_cancel_left, Nat.add_assoc, Nat.add_sub_cancel_left, List.take_add, List.drop_drop]

/-- A part begins with its first element. -/
theorem part_cons {data : List α} {start stop : Nat} {a : α} (h : data[start]? = some a)
    (hstop : start < stop) : (data.take stop).drop start = a :: (data.take stop).drop (start + 1) := by
  obtain ⟨hlt, rfl⟩ := List.getElem?_eq_some_iff.mp h
  have hlength : start < (data.take stop).length := by
    rw [List.length_take]
    omega
  rw [List.drop_eq_getElem_cons hlength, List.getElem_take]

/-- The sequences have the same elements from one place up to another. -/
def AgreeOn (data data' : List α) (start stop : Nat) : Prop :=
  ∀ i, start ≤ i → i < stop → data'[i]? = data[i]?

theorem AgreeOn.mono {data data' : List α} {start stop start' stop' : Nat}
    (h : AgreeOn data data' start stop) (hstart : start ≤ start') (hstop : stop' ≤ stop) :
    AgreeOn data data' start' stop' :=
  fun i hi hi' => h i (Nat.le_trans hstart hi) (Nat.lt_of_lt_of_le hi' hstop)

/-- A sequence that agrees with another up to a place is as long. -/
theorem AgreeOn.le_length {data data' : List α} {start stop : Nat}
    (h : AgreeOn data data' start stop) (hstart : start < stop) (hstop : stop ≤ data.length) :
    stop ≤ data'.length := by
  have hlast := h (stop - 1) (by omega) (by omega)
  rw [List.getElem?_eq_getElem (show stop - 1 < data.length by omega)] at hlast
  obtain ⟨hlt, -⟩ := List.getElem?_eq_some_iff.mp hlast
  omega

/-- Sequences that agree on a part have the same part there. -/
theorem AgreeOn.part {data data' : List α} {start stop : Nat} (h : AgreeOn data data' start stop) :
    (data'.take stop).drop start = (data.take stop).drop start := by
  refine List.ext_getElem? fun i => ?_
  rw [List.getElem?_drop, List.getElem?_drop, List.getElem?_take, List.getElem?_take]
  split
  · next hi => exact h _ (Nat.le_add_right _ _) hi
  · rfl

end Slice
