import Nexad.Base.Slice
import Nexad.Base.Text

/-!
# Texts by byte offset

A text is cut at a byte offset: one outside of it, or within a character, is a
panic. An offset that a search has found is neither (`splitAt_append`).
-/

namespace Text

open Slice

/-- The bytes of a text. -/
def byteLength (s : List Char) : Nat := (s.map Char.utf8Size).sum

/-- `s.split_at(offset)` -/
def splitAt : List Char → Nat → Except Panic (List Char × List Char)
  | s, 0 => .ok ([], s)
  | [], _ + 1 => .error .outOfRange
  | c :: s, offset + 1 =>
    if c.utf8Size ≤ offset + 1 then do
      let (front, rest) ← splitAt s (offset + 1 - c.utf8Size)
      return (c :: front, rest)
    else .error .outOfRange

/-- `&s[offset..]` -/
def sliceFrom (s : List Char) (offset : Nat) : Except Panic (List Char) := do
  let (_, rest) ← splitAt s offset
  return rest

/-- `&s[..offset]` -/
def sliceTo (s : List Char) (offset : Nat) : Except Panic (List Char) := do
  let (front, _) ← splitAt s offset
  return front

/-- `s.rfind(c)`: where the last occurrence begins. -/
def rfind (c : Char) : List Char → Option Nat
  | [] => none
  | d :: s =>
    match rfind c s with
    | some offset => some (d.utf8Size + offset)
    | none => if d = c then some 0 else none

theorem byteLength_append (s t : List Char) : byteLength (s ++ t) = byteLength s + byteLength t := by
  rw [byteLength, List.map_append, List.sum_append]
  rfl

/-- A text is cut between its characters. -/
theorem splitAt_append (front rest : List Char) :
    splitAt (front ++ rest) (byteLength front) = .ok (front, rest) := by
  induction front with
  | nil =>
    cases rest with
    | nil => rfl
    | cons c rest => rfl
  | cons c front ih =>
    have hpos := c.utf8Size_pos
    obtain ⟨offset, hoffset⟩ : ∃ offset, byteLength (c :: front) = offset + 1 :=
      ⟨c.utf8Size - 1 + byteLength front, by rw [byteLength, List.map_cons, List.sum_cons, byteLength]; omega⟩
    have hrest : offset + 1 - c.utf8Size = byteLength front := by
      rw [← hoffset, byteLength, List.map_cons, List.sum_cons, Nat.add_sub_cancel_left]
      rfl
    have hle : c.utf8Size ≤ offset + 1 := by
      rw [← hoffset, byteLength, List.map_cons, List.sum_cons]
      exact Nat.le_add_right _ _
    rw [hoffset, List.cons_append, splitAt, if_pos hle, hrest, ih]
    rfl

theorem rfind_eq_none {c : Char} {s : List Char} (h : c ∉ s) : rfind c s = none := by
  induction s with
  | nil => rfl
  | cons d s ih =>
    rw [List.mem_cons, not_or] at h
    rw [rfind, ih h.2]
    dsimp only
    rw [if_neg (Ne.symm h.1)]

/-- The last occurrence is the one that no other follows. -/
theorem rfind_append {c : Char} (front : List Char) {rest : List Char} (h : c ∉ rest) :
    rfind c (front ++ c :: rest) = some (byteLength front) := by
  induction front with
  | nil =>
    rw [List.nil_append, rfind, rfind_eq_none h]
    dsimp only
    rw [if_pos rfl]
    rfl
  | cons d front ih =>
    rw [List.cons_append, rfind, ih]
    rfl

/-- The offset of a character of one byte, and the parts around it. -/
theorem rfind_eq {c : Char} (hsize : c.utf8Size = 1) (s : List Char) :
    (rsplitOnce c s = none ∧ rfind c s = none) ∨
      ∃ front rest, rsplitOnce c s = some (front, rest) ∧ rfind c s = some (byteLength front) ∧
        sliceTo s (byteLength front) = .ok front ∧ sliceFrom s (byteLength front + 1) = .ok rest := by
  cases hsplit : rsplitOnce c s with
  | none =>
    refine .inl ⟨rfl, rfind_eq_none fun hmem => ?_⟩
    obtain ⟨last, front, hreverse, hlast⟩ := List.eq_append_cons_of_mem (List.mem_reverse.mpr hmem)
    have hs : s = front.reverse ++ c :: last.reverse := by
      rw [← List.reverse_reverse s, hreverse, List.reverse_append, List.reverse_cons,
        List.append_assoc, List.singleton_append]
    have hsome := rsplitOnce_eq_some_iff.mpr ⟨hs, fun h => hlast (List.mem_reverse.mp h)⟩
    rw [hsplit] at hsome
    cases hsome
  | some parts =>
    obtain ⟨front, rest⟩ := parts
    obtain ⟨rfl, hrest⟩ := rsplitOnce_eq_some_iff.mp hsplit
    refine .inr ⟨front, rest, rfl, rfind_append front hrest, ?_, ?_⟩
    · rw [sliceTo, splitAt_append]
      rfl
    · have hafter : byteLength front + 1 = byteLength (front ++ [c]) := by
        rw [byteLength_append, byteLength, byteLength, List.map_singleton, List.sum_singleton, hsize]
      rw [sliceFrom, hafter, List.append_cons, splitAt_append]
      rfl

end Text
