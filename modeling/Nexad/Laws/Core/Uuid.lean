import Mathlib.Algebra.Order.Group.Nat
import Nexad.Core.Models

/-!
# The text of an identifier

The usual spelling reads back as the identifier it was printed from
(`ofHyphenated_hyphenated`), and no text with another character than a
hexadecimal digit or a hyphen is read. `UuidText` says the same of a text form
that may accept further spellings.
-/

namespace Nexad

/-- A text form of identifiers reads back what it prints, and reads no text
with a character from outside the spellings of an identifier: digits, hyphens,
and the braces or the `urn:uuid:` around them. -/
structure UuidText (form : TextForm Uuid) : Prop where
  parse_print : ∀ id, form.parse (form.print id) = .ok id
  spelled : ∀ {s id c}, form.parse s = .ok id → c ∈ s.toList →
    c ∈ "0123456789abcdefABCDEF-\x7b\x7durn:id".toList

namespace Uuid

/-- Read digits as one number, the first of them the highest. -/
def ofDigits (values : List Nat) : Nat := values.foldl (fun n d => 16 * n + d) 0

theorem hexValue_digitChar : ∀ d < 16, hexValue (Nat.digitChar d) = some d := by decide

theorem hexDigits_length (n width : Nat) : (hexDigits n width).length = width := by
  induction width generalizing n with
  | zero => rfl
  | succ width ih => simp [hexDigits, ih]

/-- A hyphen is no digit. -/
theorem hyphen_not_mem_hexDigits (n width : Nat) : '-' ∉ hexDigits n width := by
  induction width generalizing n with
  | zero => simp [hexDigits]
  | succ width ih =>
    intro h
    rcases List.mem_append.mp h with h | h
    · exact ih _ h
    · have hvalue := hexValue_digitChar (n % 16) (Nat.mod_lt _ (by decide))
      rw [← List.mem_singleton.mp h, show hexValue '-' = none from by decide] at hvalue
      cases hvalue

/-- The digits of a number are read as its lowest part. -/
theorem mapM_hexDigits (n width : Nat) : ∃ values, (hexDigits n width).mapM hexValue = some values ∧
    values.length = width ∧ ofDigits values = n % 16 ^ width := by
  induction width generalizing n with
  | zero => exact ⟨[], rfl, rfl, by simp [ofDigits, Nat.mod_one]⟩
  | succ width ih =>
    obtain ⟨values, hread, hlength, hnumber⟩ := ih (n / 16)
    have hlast := hexValue_digitChar (n % 16) (Nat.mod_lt _ (by decide))
    refine ⟨values ++ [n % 16], ?_, by simp [hlength], ?_⟩
    · simp [hexDigits, hread, hlast]
    · have hsplit : n % 16 ^ (width + 1) = n % 16 + 16 * (n / 16 % 16 ^ width) := by
        rw [Nat.pow_succ', Nat.mod_mul]
      simp only [ofDigits] at hnumber
      simp only [ofDigits, List.foldl_append, List.foldl_cons, List.foldl_nil, hnumber, hsplit]
      omega

/-- The groups of a spelling, hyphens between them. -/
private def groups (digits : List Char) : List Char :=
  digits.take 8 ++ ['-'] ++ (digits.drop 8).take 4 ++ ['-'] ++
    (digits.drop 12).take 4 ++ ['-'] ++ (digits.drop 16).take 4 ++ ['-'] ++ digits.drop 20

private theorem groups_shape {digits : List Char} (h : digits.length = 32) :
    (groups digits).length = 36 ∧ ∀ i ∈ [8, 13, 18, 23], (groups digits)[i]? = some '-' := by
  simp [groups, h, List.getElem?_append]

private theorem filter_groups {digits : List Char} (h : '-' ∉ digits) :
    (groups digits).filter (· ≠ '-') = digits := by
  have hkept : ∀ {part : List Char}, part ⊆ digits → part.filter (· ≠ '-') = part := by
    intro part hpart
    refine List.filter_eq_self.mpr fun c hc => ?_
    have hne : c ≠ '-' := fun heq => h (heq ▸ hpart hc)
    simpa using hne
  have htake : ∀ i j, ((digits.drop i).take j).filter (· ≠ '-') = (digits.drop i).take j :=
    fun i j => hkept fun _ hc => List.mem_of_mem_drop (List.mem_of_mem_take hc)
  have hfirst := hkept (List.take_subset 8 digits)
  have hlast := hkept (List.drop_subset 20 digits)
  have hjoin : ∀ i j, i + 4 = j → (digits.drop i).take 4 ++ digits.drop j = digits.drop i := by
    rintro i _ rfl
    rw [← List.drop_drop, List.take_append_drop]
  have hhyphen : ['-'].filter (· ≠ '-') = [] := by decide
  simp only [groups, List.filter_append, htake, hfirst, hlast, hhyphen, List.nil_append,
    List.append_assoc]
  rw [hjoin 16 20 rfl, hjoin 12 16 rfl, hjoin 8 12 rfl, List.take_append_drop]

/-- Reading an identifier's usual spelling gives the identifier back. -/
theorem ofHyphenated_hyphenated (id : Uuid) : ofHyphenated (hyphenated id) = some id := by
  let digits := hexDigits id.bits.toNat 32
  obtain ⟨values, hread, hlength, hnumber⟩ := mapM_hexDigits id.bits.toNat 32
  have htext : (hyphenated id).toList = groups digits := by
    simp only [hyphenated, groups, digits, String.toList_ofList]
  have hshape := groups_shape (hexDigits_length id.bits.toNat 32)
  have hfilter := filter_groups (hyphen_not_mem_hexDigits id.bits.toNat 32)
  have hbits : BitVec.ofNat 128 (ofDigits values) = id.bits := by
    have hlt : id.bits.toNat < 16 ^ 32 := id.bits.isLt
    rw [hnumber, Nat.mod_eq_of_lt hlt, BitVec.ofNat_toNat, BitVec.setWidth_eq]
  have hfold : values.foldl (fun n d => 16 * n + d) 0 = ofDigits values := rfl
  simp only [ofHyphenated, htext, guard, if_pos hshape, hfilter, digits, hread]
  simp [hfold, hbits, hlength]

/-- A character with a value is a hexadecimal digit. -/
private theorem mem_of_hexValue {c : Char} {d : Nat} (h : hexValue c = some d) :
    c ∈ "0123456789abcdefABCDEF".toList := by
  have hall : ∀ n < 128, (hexValue (Char.ofNat n)).isSome →
      Char.ofNat n ∈ "0123456789abcdefABCDEF".toList := by decide
  have hlt : c.toNat < 128 := by
    have hbound : c ≤ '9' ∨ c ≤ 'f' ∨ c ≤ 'F' := by
      unfold hexValue at h
      split at h
      · next hc => exact .inl hc.2
      · split at h
        · next hc => exact .inr (.inl hc.2)
        · split at h
          · next hc => exact .inr (.inr hc.2)
          · cases h
    simp only [Char.le_def, UInt32.le_iff_toNat_le] at hbound
    have : c.toNat = c.val.toNat := rfl
    simp at hbound
    omega
  have hmem := hall c.toNat hlt
  rw [Char.ofNat_toNat, h] at hmem
  exact hmem rfl

/-- Every element was read when all of them were. -/
private theorem isSome_of_mapM {l : List Char} {values : List Nat}
    (h : l.mapM hexValue = some values) {c : Char} (hc : c ∈ l) : ∃ d, hexValue c = some d := by
  induction l generalizing values with
  | nil => cases hc
  | cons a l ih =>
    rw [List.mapM_cons] at h
    obtain ⟨d, hd, h⟩ := Option.bind_eq_some_iff.mp h
    obtain ⟨rest, hrest, -⟩ := Option.bind_eq_some_iff.mp h
    rcases List.mem_cons.mp hc with rfl | hc
    · exact ⟨d, hd⟩
    · exact ih hrest hc

/-- A text in the usual spelling holds nothing but digits and hyphens. -/
theorem spelled_of_ofHyphenated {s : String} {id : Uuid} (h : ofHyphenated s = some id) {c : Char}
    (hc : c ∈ s.toList) : c = '-' ∨ c ∈ "0123456789abcdefABCDEF".toList := by
  by_cases hhyphen : c = '-'
  · exact .inl hhyphen
  · right
    simp only [ofHyphenated, Option.bind_eq_bind, Option.bind_eq_some_iff] at h
    obtain ⟨-, -, values, hread, -⟩ := h
    have hmem : c ∈ s.toList.filter (· ≠ '-') := List.mem_filter.mpr ⟨hc, by simpa using hhyphen⟩
    obtain ⟨d, hd⟩ := isSome_of_mapM hread hmem
    exact mem_of_hexValue hd

end Uuid

/-- The usual spelling alone is such a form. -/
theorem Domain.plain_uuid : UuidText Domain.plain.uuid where
  parse_print id := by
    simp only [plain, Uuid.ofHyphenated_hyphenated, Option.elim_some]
  spelled {s id c} h hc := by
    have hread : Uuid.ofHyphenated s = some id := by
      cases hs : Uuid.ofHyphenated s with
      | none => simp [plain, hs] at h
      | some id' =>
        simp only [plain, hs, Option.elim_some, Except.ok.injEq] at h
        rw [h]
    rcases Uuid.spelled_of_ofHyphenated hread hc with rfl | hdigit
    · decide
    · have hsub : "0123456789abcdefABCDEF".toList ⊆
          "0123456789abcdefABCDEF-\x7b\x7durn:id".toList := by decide
      exact hsub hdigit

end Nexad
