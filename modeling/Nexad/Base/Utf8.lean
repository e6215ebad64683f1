/-!
# UTF-8

A text as the list of its bytes, and back. A byte below 128 stands for the
character of that number and for nothing else, so a separator that is such a
character can be looked for among the bytes.
-/

namespace Utf8

/-- The bytes of a text. -/
def encode (s : String) : List UInt8 := s.toByteArray.data.toList

/-- The text of some bytes, if they are one. -/
def decode (bytes : List UInt8) : Option String := String.fromUTF8? ⟨bytes.toArray⟩

theorem decode_encode (s : String) : decode (encode s) = some s := by
  unfold decode encode String.fromUTF8?
  rw [Array.toArray_toList]
  exact dif_pos s.isValidUTF8

/-- Bytes that are a text are its bytes. -/
theorem encode_of_decode {bytes : List UInt8} {s : String} (h : decode bytes = some s) :
    encode s = bytes := by
  unfold decode String.fromUTF8? at h
  split at h
  · cases h
    rfl
  · cases h

@[simp] theorem encode_append (s t : String) : encode (s ++ t) = encode s ++ encode t := by
  unfold encode
  rw [String.toByteArray_append, ByteArray.data_append, Array.toList_append]

theorem encode_injective {s t : String} (h : encode s = encode t) : s = t := by
  have hsome := decode_encode s
  rw [h, decode_encode] at hsome
  exact (Option.some.inj hsome).symm

@[simp] theorem encode_empty : encode "" = [] := rfl

/-- Every character stands for itself. -/
theorem encode_eq_flatMap (s : String) : encode s = s.toList.flatMap String.utf8EncodeChar := by
  unfold encode
  rw [← String.utf8Encode_toList, List.utf8Encode, List.data_toByteArray, List.toList_toArray]

theorem mem_encode {s : String} {c : Char} {b : UInt8} (hc : c ∈ s.toList)
    (hb : b ∈ String.utf8EncodeChar c) : b ∈ encode s := by
  rw [encode_eq_flatMap]
  exact List.mem_flatMap.mpr ⟨c, hc, hb⟩

/-- A byte with the high bit is no character of its own. -/
private theorem not_ascii {b : UInt8} (hb : b.toNat < 128) {n : Nat} (hn : 128 ≤ n) (hn' : n < 256) :
    b ≠ UInt8.ofNat n := by
  rintro rfl
  rw [UInt8.toNat_ofNat'] at hb
  omega

/-- A byte below 128 is the character of that number. -/
theorem encodeChar_ascii {c : Char} {b : UInt8} (h : b ∈ String.utf8EncodeChar c)
    (hb : b.toNat < 128) : c.toNat = b.toNat := by
  have hbound := c.val.toNat_lt
  unfold String.utf8EncodeChar at h
  dsimp only at h
  split at h
  · next hsmall =>
    cases List.mem_singleton.mp h
    rw [UInt8.toNat_ofNat']
    show c.val.toNat = _
    omega
  · split at h
    · simp only [List.mem_cons, List.not_mem_nil, or_false] at h
      rcases h with h | h
      · exact absurd h (not_ascii hb (by omega) (by omega))
      · exact absurd h (not_ascii hb (by omega) (by omega))
    · split at h
      · simp only [List.mem_cons, List.not_mem_nil, or_false] at h
        rcases h with h | h | h
        · exact absurd h (not_ascii hb (by omega) (by omega))
        · exact absurd h (not_ascii hb (by omega) (by omega))
        · exact absurd h (not_ascii hb (by omega) (by omega))
      · simp only [List.mem_cons, List.not_mem_nil, or_false] at h
        rcases h with h | h | h | h
        · exact absurd h (not_ascii hb (by omega) (by omega))
        · exact absurd h (not_ascii hb (by omega) (by omega))
        · exact absurd h (not_ascii hb (by omega) (by omega))
        · exact absurd h (not_ascii hb (by omega) (by omega))

/-- An ASCII character is among the characters of a text when its byte is
among the bytes. -/
theorem mem_of_encode {s : String} {c : Char} (hc : c.toNat < 128)
    (h : UInt8.ofNat c.toNat ∈ encode s) : c ∈ s.toList := by
  rw [encode_eq_flatMap] at h
  obtain ⟨c', hc', hbyte⟩ := List.mem_flatMap.mp h
  have hb : (UInt8.ofNat c.toNat).toNat = c.toNat := by
    rw [UInt8.toNat_ofNat']
    omega
  have hsame := (encodeChar_ascii hbyte (by rw [hb]; exact hc)).trans hb
  have heq : c' = c := Char.ext (UInt32.toNat_inj.mp hsame)
  exact heq ▸ hc'

/-- What follows a text in a text is a text. -/
theorem exists_of_encode_append {s t : String} {rest : List UInt8} (h : encode s ++ rest = encode t) :
    ∃ u, t = s ++ u ∧ rest = encode u := by
  have hbytes : s.toList.utf8Encode ++ ⟨rest.toArray⟩ = t.toList.utf8Encode := by
    rw [String.utf8Encode_toList, String.utf8Encode_toList, ByteArray.ext_iff,
      ByteArray.data_append, ← Array.toList_inj, Array.toList_append]
    exact h
  obtain ⟨u, hu⟩ := List.isPrefix_of_utf8Encode_append_eq_utf8Encode _ hbytes
  have ht : t = s ++ String.ofList u := by
    rw [← String.toList_inj, String.toList_append, String.toList_ofList, hu]
  refine ⟨String.ofList u, ht, ?_⟩
  rw [ht, encode_append] at h
  exact List.append_cancel_left h

theorem encode_ofList_cons (c : Char) (cs : List Char) :
    encode (String.ofList (c :: cs)) = String.utf8EncodeChar c ++ encode (String.ofList cs) := by
  rw [encode_eq_flatMap, encode_eq_flatMap, String.toList_ofList, String.toList_ofList,
    List.flatMap_cons]

/-- The bytes of an ASCII character. -/
theorem encodeChar_eq_singleton {c : Char} {b : UInt8} (h : b ∈ String.utf8EncodeChar c)
    (hb : b.toNat < 128) : String.utf8EncodeChar c = [b] := by
  have hc := encodeChar_ascii h hb
  have hsize : c.utf8Size = 1 := by
    rw [Char.utf8Size_eq_one_iff, UInt32.le_iff_toNat_le]
    show c.toNat ≤ 127
    omega
  have hsingle := String.utf8EncodeChar_eq_singleton hsize
  rw [hsingle] at h ⊢
  rw [List.mem_singleton.mp h]

/-- An ASCII byte is where a text can be taken apart. -/
theorem exists_of_encode_ascii {t : String} {before after : List UInt8} {b : UInt8}
    (hb : b.toNat < 128) (h : encode t = before ++ b :: after) :
    ∃ s u, t = s ++ u ∧ before = encode s ∧ b :: after = encode u := by
  suffices hall : ∀ cs : List Char, ∀ before, encode (String.ofList cs) = before ++ b :: after →
      ∃ s u, String.ofList cs = s ++ u ∧ before = encode s ∧ b :: after = encode u by
    have ht := hall t.toList before
    rw [String.ofList_toList] at ht
    exact ht h
  intro cs
  induction cs with
  | nil => exact fun before h => absurd h (List.append_ne_nil_of_right_ne_nil _ (List.cons_ne_nil _ _)).symm
  | cons c cs ih =>
    intro before h
    cases before with
    | nil => exact ⟨"", String.ofList (c :: cs), String.empty_append.symm, rfl, h.symm⟩
    | cons first before =>
      rw [encode_ofList_cons] at h
      rcases List.append_eq_append_iff.mp h with ⟨more, hbefore, hrest⟩ | ⟨more, hchar, hafter⟩
      · obtain ⟨s, u, hcs, hmore, hu⟩ := ih more hrest
        refine ⟨String.ofList [c] ++ s, u, ?_, ?_, hu⟩
        · rw [String.append_assoc, ← hcs, ← String.ofList_append, List.singleton_append]
        · rw [hbefore, encode_append, hmore, encode_ofList_cons]
          exact congrArg (· ++ encode s) (List.append_nil _).symm
      · -- the byte would be inside the bytes of the first character
        cases more with
        | nil =>
          rw [List.nil_append] at hafter
          rw [List.append_nil] at hchar
          refine ⟨String.ofList [c], String.ofList cs, ?_, ?_, hafter⟩
          · rw [← String.ofList_append, List.singleton_append]
          · rw [← hchar, encode_ofList_cons]
            exact (List.append_nil _).symm
        | cons b' more =>
          cases List.cons.inj hafter with
          | intro hsame _ =>
            subst hsame
            have hmem : b ∈ String.utf8EncodeChar c := by
              rw [hchar]
              exact List.mem_append_right _ List.mem_cons_self
            have hlength := congrArg List.length (encodeChar_eq_singleton hmem hb)
            rw [hchar, List.length_append, List.length_cons, List.length_cons,
              List.length_singleton] at hlength
            omega

end Utf8
