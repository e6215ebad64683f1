import Mathlib.Algebra.Ring.Int.Defs
import Mathlib.Algebra.Ring.Nat
import Mathlib.Data.List.DropRight

/-!
# Text operations over characters

The string operations that parsers and renderers share, over `List Char`:
splitting at a separator from either end, trimming, searching for a
substring, and decimal numbers in both directions. A caller works on
`s.toList` and packs its result with `String.ofList`.

The splits carry their specification as an equivalence
(`splitOnce_eq_some_iff`, `rsplitOnce_eq_some_iff`): a split succeeds exactly
when the text IS the two parts around the separator, and the part the search
ran through holds no separator. Decimal parsing inverts decimal printing
within the bound of the integer type (`parseUnsigned_toDigits`,
`parseSigned_decimal`).
-/

namespace Text

/-! ## Splitting at a separator -/

/-- Split at the first separator. -/
def splitOnce (sep : Char) : List Char → Option (List Char × List Char)
  | [] => none
  | c :: s =>
    if c = sep then some ([], s)
    else (splitOnce sep s).map fun p => (c :: p.1, p.2)

/-- Split at the last separator: the parts before and after it. -/
def rsplitOnce (sep : Char) (s : List Char) : Option (List Char × List Char) :=
  (splitOnce sep s.reverse).map fun p => (p.2.reverse, p.1.reverse)

/-- At most `n` parts, the last one keeping every further separator. -/
def splitN (sep : Char) : Nat → List Char → List (List Char)
  | 0, _ => []
  | 1, s => [s]
  | n + 2, s =>
    match splitOnce sep s with
    | some (a, b) => a :: splitN sep (n + 1) b
    | none => [s]

/-- The text without its trailing `c`s. -/
def trimEndMatches (c : Char) (s : List Char) : List Char :=
  s.rdropWhile (· = c)

/-- The text without `c`s at either end. -/
def trimMatches (c : Char) (s : List Char) : List Char :=
  (s.dropWhile (· = c)).rdropWhile (· = c)

/-- The Unicode property `White_Space`. -/
def isWhiteSpace (c : Char) : Bool :=
  let n := c.toNat
  9 ≤ n ∧ n ≤ 13 ∨ 0x2000 ≤ n ∧ n ≤ 0x200A ∨
    n ∈ [0x20, 0x85, 0xA0, 0x1680, 0x2028, 0x2029, 0x202F, 0x205F, 0x3000]

/-- The text without white space at either end. -/
def trim (s : List Char) : List Char :=
  (s.dropWhile isWhiteSpace).rdropWhile isWhiteSpace

/-- The text without white space at its end. -/
def trimEnd (s : List Char) : List Char :=
  s.rdropWhile isWhiteSpace

/-- A path and a relative name below it. -/
def joinPath (dir name : String) : String :=
  if dir = "" ∨ dir.toList.getLast? = some '/' then dir ++ name else dir ++ "/" ++ name

/-- A split at the first separator succeeds exactly on `a ++ sep :: b` with no
separator in `a`. -/
theorem splitOnce_eq_some_iff {sep : Char} {s a b : List Char} :
    splitOnce sep s = some (a, b) ↔ s = a ++ sep :: b ∧ sep ∉ a := by
  induction s generalizing a with
  | nil => simp only [splitOnce, reduceCtorEq, List.nil_eq, List.append_eq_nil_iff, and_false,
      false_and]
  | cons c s ih =>
    unfold splitOnce
    by_cases hc : c = sep
    · subst hc
      rw [if_pos rfl]
      constructor
      · intro h
        cases h
        exact ⟨rfl, List.not_mem_nil⟩
      · rintro ⟨h, hmem⟩
        cases a with
        | nil => simpa only [List.nil_append, List.cons.injEq, true_and, Option.some.injEq,
            Prod.mk.injEq] using h
        | cons x a =>
          obtain ⟨rfl, -⟩ := List.cons.inj h
          exact absurd List.mem_cons_self hmem
    · rw [if_neg hc]
      constructor
      · intro h
        obtain ⟨⟨a', b'⟩, hs, hab⟩ := Option.map_eq_some_iff.mp h
        cases hab
        obtain ⟨rfl, hmem⟩ := ih.mp hs
        refine ⟨rfl, fun h => ?_⟩
        rcases List.mem_cons.mp h with rfl | h
        · exact hc rfl
        · exact hmem h
      · rintro ⟨h, hmem⟩
        cases a with
        | nil => exact absurd (List.cons.inj h).1 hc
        | cons x a =>
          obtain ⟨rfl, hs⟩ := List.cons.inj h
          have hrest := ih.mpr ⟨hs, fun h => hmem (List.mem_cons_of_mem _ h)⟩
          rw [hrest, Option.map_some]

/-- A split fails exactly where there is no separator. -/
theorem splitOnce_eq_none_iff {sep : Char} {s : List Char} : splitOnce sep s = none ↔ sep ∉ s := by
  constructor
  · intro h hmem
    obtain ⟨a, b, rfl, ha⟩ := List.eq_append_cons_of_mem hmem
    rw [splitOnce_eq_some_iff.mpr ⟨rfl, ha⟩] at h
    cases h
  · intro h
    rw [Option.eq_none_iff_forall_not_mem]
    rintro ⟨a, b⟩ hsplit
    obtain ⟨rfl, -⟩ := splitOnce_eq_some_iff.mp hsplit
    exact h (List.mem_append_right _ List.mem_cons_self)

/-- A split at the last separator succeeds exactly on `a ++ sep :: b` with no
separator in `b`. -/
theorem rsplitOnce_eq_some_iff {sep : Char} {s a b : List Char} :
    rsplitOnce sep s = some (a, b) ↔ s = a ++ sep :: b ∧ sep ∉ b := by
  unfold rsplitOnce
  constructor
  · intro h
    obtain ⟨⟨x, y⟩, hs, hxy⟩ := Option.map_eq_some_iff.mp h
    cases hxy
    obtain ⟨hrev, hmem⟩ := splitOnce_eq_some_iff.mp hs
    refine ⟨?_, fun h => hmem (List.mem_reverse.mp h)⟩
    rw [← List.reverse_reverse s, hrev, List.reverse_append, List.reverse_cons,
      List.append_assoc, List.singleton_append]
  · rintro ⟨rfl, hmem⟩
    have hrev : (a ++ sep :: b).reverse = b.reverse ++ sep :: a.reverse := by
      rw [List.reverse_append, List.reverse_cons, List.append_assoc, List.singleton_append]
    have hs := splitOnce_eq_some_iff.mpr ⟨hrev, fun h => hmem (List.mem_reverse.mp h)⟩
    rw [hs, Option.map_some, List.reverse_reverse, List.reverse_reverse]

theorem rsplitOnce_eq_none_iff {sep : Char} {s : List Char} :
    rsplitOnce sep s = none ↔ sep ∉ s := by
  rw [rsplitOnce, Option.map_eq_none_iff, splitOnce_eq_none_iff, List.mem_reverse]

/-- A split at the last separator is that of any end of the text with one in it. -/
theorem rsplitOnce_append {sep : Char} {s a b : List Char} (h : rsplitOnce sep s = some (a, b))
    (pre : List Char) : rsplitOnce sep (pre ++ s) = some (pre ++ a, b) := by
  obtain ⟨rfl, hb⟩ := rsplitOnce_eq_some_iff.mp h
  exact rsplitOnce_eq_some_iff.mpr ⟨by rw [List.append_assoc], hb⟩

/-- The parts around the first separator are told from the text. -/
theorem parts_unique {sep : Char} {a a' b b' : List Char} (ha : sep ∉ a) (ha' : sep ∉ a')
    (h : a ++ sep :: b = a' ++ sep :: b') : a = a' ∧ b = b' := by
  have hsplit := splitOnce_eq_some_iff.mpr ⟨h, ha'⟩
  rw [splitOnce_eq_some_iff.mpr ⟨rfl, ha⟩] at hsplit
  injection hsplit with hsplit
  injection hsplit with hfront hbehind
  exact ⟨hfront, hbehind⟩

/-- Three parts of which the first two hold no separator are found again. -/
theorem splitN_three {sep : Char} {a b c : List Char} (ha : sep ∉ a) (hb : sep ∉ b) :
    splitN sep 3 (a ++ sep :: (b ++ sep :: c)) = [a, b, c] := by
  have h₁ : splitOnce sep (a ++ sep :: (b ++ sep :: c)) = some (a, b ++ sep :: c) :=
    splitOnce_eq_some_iff.mpr ⟨rfl, ha⟩
  have h₂ : splitOnce sep (b ++ sep :: c) = some (b, c) :=
    splitOnce_eq_some_iff.mpr ⟨rfl, hb⟩
  simp only [splitN, h₁, h₂]

/-- Three parts of a split at most in three, and the separators between them. -/
theorem splitN_eq_three {sep : Char} {s a b c : List Char} (h : splitN sep 3 s = [a, b, c]) :
    s = a ++ sep :: (b ++ sep :: c) ∧ sep ∉ a ∧ sep ∉ b := by
  simp only [splitN] at h
  split at h
  · next x y hfirst =>
    split at h
    · next x' y' hsecond =>
      cases h
      obtain ⟨rfl, ha⟩ := splitOnce_eq_some_iff.mp hfirst
      obtain ⟨rfl, hb⟩ := splitOnce_eq_some_iff.mp hsecond
      exact ⟨rfl, ha, hb⟩
    · cases h
  · cases h

/-- A text is what is left of it, and what was trimmed. -/
theorem trimEndMatches_prefix (c : Char) (s : List Char) : trimEndMatches c s <+: s :=
  List.rdropWhile_prefix ..

/-- Nothing is trimmed when the last character is a different one. -/
theorem trimEndMatches_of_getLast {c d : Char} {s : List Char} (h : d ≠ c) :
    trimEndMatches c (s ++ [d]) = s ++ [d] := by
  unfold trimEndMatches
  exact List.rdropWhile_concat_neg _ _ _ (by simpa only [decide_eq_true_eq] using h)

/-- A trailing `c` is trimmed, and what follows is trimmed too. -/
theorem trimEndMatches_concat (c : Char) (s : List Char) :
    trimEndMatches c (s ++ [c]) = trimEndMatches c s :=
  List.rdropWhile_concat_pos _ _ _ (decide_eq_true rfl)

/-- Nothing is trimmed from a text without the character. -/
theorem trimEndMatches_of_notMem {c : Char} {s : List Char} (h : c ∉ s) :
    trimEndMatches c s = s := by
  rcases List.eq_nil_or_concat s with rfl | ⟨init, d, rfl⟩
  · rfl
  · rw [List.concat_eq_append] at h ⊢
    refine trimEndMatches_of_getLast ?_
    rintro rfl
    exact h (List.mem_append_right _ List.mem_cons_self)

/-- Whether anything is left at the end says where trimming stops. -/
theorem trimEndMatches_append_of_eq_nil {c : Char} {s t : List Char} (h : trimEndMatches c t = []) :
    trimEndMatches c (s ++ t) = trimEndMatches c s := by
  unfold trimEndMatches List.rdropWhile at *
  rw [List.reverse_append, List.dropWhile_append, List.reverse_eq_nil_iff.mp h]
  rfl

theorem trimEndMatches_append_of_ne_nil {c : Char} {s t : List Char} (h : trimEndMatches c t ≠ []) :
    trimEndMatches c (s ++ t) = s ++ trimEndMatches c t := by
  unfold trimEndMatches List.rdropWhile at *
  rw [List.reverse_append, List.dropWhile_append, if_neg, List.reverse_append, List.reverse_reverse]
  rw [List.isEmpty_iff]
  exact fun hnil => h (List.reverse_eq_nil_iff.mpr hnil)

/-- Nothing is left of a text of nothing else. -/
theorem trimEndMatches_eq_nil_iff {c : Char} {s : List Char} :
    trimEndMatches c s = [] ↔ ∀ d ∈ s, d = c := by
  unfold trimEndMatches
  rw [List.rdropWhile_eq_nil_iff]
  simp only [decide_eq_true_eq]

/-! ## Substrings -/

/-- The text from the first occurrence of `pat` on. -/
def findFrom (pat : List Char) : List Char → Option (List Char)
  | [] => if pat = [] then some [] else none
  | c :: s => if pat.isPrefixOf (c :: s) then some (c :: s) else findFrom pat s

/-- Whether `pat` occurs in the text. -/
def contains (pat s : List Char) : Bool := (findFrom pat s).isSome

theorem findFrom_eq_none_iff {pat s : List Char} :
    findFrom pat s = none ↔ contains pat s = false := by
  rw [contains, Option.isSome_eq_false_iff, Option.isNone_iff_eq_none]

/-- A pattern that the text begins with is found there. -/
theorem findFrom_prefix (pat rest : List Char) : findFrom pat (pat ++ rest) = some (pat ++ rest) := by
  cases h : pat ++ rest with
  | nil =>
    obtain ⟨rfl, -⟩ := List.append_eq_nil_iff.mp h
    rfl
  | cons c s =>
    have hpre : pat.isPrefixOf (c :: s) = true := List.isPrefixOf_iff_prefix.mpr ⟨rest, h⟩
    rw [findFrom, if_pos hpre]

/-- A pattern occurs in every text that has it in the middle. -/
theorem contains_append (pat pre rest : List Char) : contains pat (pre ++ (pat ++ rest)) = true := by
  unfold contains
  induction pre with
  | nil => rw [List.nil_append, findFrom_prefix, Option.isSome_some]
  | cons c pre ih =>
    rw [List.cons_append, findFrom]
    split
    · rfl
    · exact ih

private theorem prefix_of_prefix_append {pat head s : List Char} {c : Char} (hc : c ∉ pat)
    (h : pat <+: head ++ c :: s) : pat <+: head := by
  induction head generalizing pat with
  | nil =>
    cases pat with
    | nil => exact List.prefix_rfl
    | cons a pat =>
      obtain ⟨rfl, -⟩ := List.cons_prefix_cons.mp h
      exact absurd List.mem_cons_self hc
  | cons b head ih =>
    cases pat with
    | nil => exact List.nil_prefix
    | cons a pat =>
      obtain ⟨rfl, htail⟩ := List.cons_prefix_cons.mp h
      have hpat : c ∉ pat := fun hmem => hc (List.mem_cons_of_mem _ hmem)
      exact List.cons_prefix_cons.mpr ⟨rfl, ih hpat htail⟩

/-- The search goes past a character that the pattern does not hold. -/
theorem findFrom_cons {pat s : List Char} {c : Char} (hpat : pat ≠ []) (hc : c ∉ pat) :
    findFrom pat (c :: s) = findFrom pat s := by
  have hno : ¬ pat.isPrefixOf (c :: s) = true := by
    intro h
    obtain ⟨a, pat', rfl⟩ := List.exists_cons_of_ne_nil hpat
    obtain ⟨rfl, -⟩ := List.cons_prefix_cons.mp (List.isPrefixOf_iff_prefix.mp h)
    exact hc List.mem_cons_self
  rw [findFrom, if_neg hno]

/-- The search goes past a text without the pattern, and past a character that
the pattern does not hold. -/
theorem findFrom_skip {pat head s : List Char} {c : Char} (hhead : contains pat head = false)
    (hc : c ∉ pat) : findFrom pat (head ++ c :: s) = findFrom pat s := by
  induction head with
  | nil =>
    have hpat : pat ≠ [] := by
      rintro rfl
      cases hhead
    exact findFrom_cons hpat hc
  | cons a head ih =>
    unfold contains at hhead ih
    rw [findFrom] at hhead
    split at hhead
    · cases hhead
    · next hno =>
      have hno' : ¬ pat.isPrefixOf (a :: (head ++ c :: s)) = true := by
        intro h
        refine hno (List.isPrefixOf_iff_prefix.mpr (prefix_of_prefix_append (s := s) hc ?_))
        exact List.isPrefixOf_iff_prefix.mp h
      rw [List.cons_append, findFrom, if_neg hno']
      exact ih hhead

/-- A pattern occurs exactly in the texts that have it somewhere. -/
theorem contains_iff {pat s : List Char} :
    contains pat s = true ↔ ∃ pre rest, s = pre ++ (pat ++ rest) := by
  constructor
  · intro h
    unfold contains at h
    induction s with
    | nil =>
      rw [findFrom] at h
      split at h
      · next hpat => exact ⟨[], [], by rw [hpat]; rfl⟩
      · cases h
    | cons c s ih =>
      rw [findFrom] at h
      split at h
      · next hpre =>
        obtain ⟨rest, hrest⟩ := List.isPrefixOf_iff_prefix.mp hpre
        exact ⟨[], rest, hrest.symm⟩
      · obtain ⟨pre, rest, rfl⟩ := ih h
        exact ⟨c :: pre, rest, rfl⟩
  · rintro ⟨pre, rest, rfl⟩
    exact contains_append pat pre rest

theorem contains_append_left {pat a : List Char} (h : contains pat a = true) (b : List Char) :
    contains pat (a ++ b) = true := by
  obtain ⟨pre, rest, rfl⟩ := contains_iff.mp h
  rw [List.append_assoc, List.append_assoc]
  exact contains_append _ _ _

/-- A pattern does not occur across a character that it does not hold. -/
theorem contains_append_cons {pat a b : List Char} {c : Char} (hc : c ∉ pat) :
    contains pat (a ++ c :: b) = (contains pat a || contains pat b) := by
  cases ha : contains pat a with
  | true => rw [contains_append_left ha, Bool.true_or]
  | false => rw [contains, findFrom_skip ha hc, contains, Bool.false_or]

/-- A text with a character that the other does not have does not occur in it. -/
theorem contains_eq_false_of_notMem {pat s : List Char} {c : Char} (hpat : c ∈ pat) (hs : c ∉ s) :
    contains pat s = false := by
  rw [Bool.eq_false_iff]
  intro h
  obtain ⟨pre, rest, rfl⟩ := contains_iff.mp h
  exact hs (List.mem_append_right _ (List.mem_append_left _ hpat))

theorem contains_self (pat : List Char) : contains pat pat = true :=
  contains_iff.mpr ⟨[], [], by rw [List.append_nil, List.nil_append]⟩

/-- What is found in the front of a text is found in the whole of it. -/
theorem findFrom_append_left {pat a m : List Char} (h : findFrom pat a = some m) (b : List Char) :
    findFrom pat (a ++ b) = some (m ++ b) := by
  induction a with
  | nil =>
    rw [findFrom] at h
    split at h
    · next hpat =>
      cases h
      rw [hpat]
      exact findFrom_prefix [] b
    · cases h
  | cons c a ih =>
    rw [findFrom] at h
    rw [List.cons_append, findFrom]
    split at h
    · next hpre =>
      cases h
      have hpre' : pat <+: c :: (a ++ b) :=
        (List.isPrefixOf_iff_prefix.mp hpre).trans (List.prefix_append (c :: a) b)
      rw [if_pos (List.isPrefixOf_iff_prefix.mpr hpre'), List.cons_append]
    · next hno =>
      -- a pattern that begins here would end before the one that was found
      have hlen : pat.length ≤ (c :: a).length := by
        have hfound : contains pat a = true := by rw [contains, h, Option.isSome_some]
        obtain ⟨pre, rest, rfl⟩ := contains_iff.mp hfound
        simp only [List.length_cons, List.length_append]
        omega
      have hno' : ¬ pat.isPrefixOf (c :: (a ++ b)) = true := by
        intro hpre
        refine hno (List.isPrefixOf_iff_prefix.mpr ?_)
        exact List.prefix_of_prefix_length_le (List.isPrefixOf_iff_prefix.mp hpre)
          (List.prefix_append (c :: a) b) hlen
      rw [if_neg hno']
      exact ih h

/-- The search in a text that goes on with a character that the pattern does not
hold: in front of it, or else from there. -/
theorem findFrom_append_cons {pat a s : List Char} {c : Char} (hc : c ∉ pat) :
    findFrom pat (a ++ c :: s) = ((findFrom pat a).map (· ++ c :: s)).or (findFrom pat (c :: s)) := by
  cases h : findFrom pat a with
  | some m => rw [findFrom_append_left h, Option.map_some, Option.some_or]
  | none =>
    have hpat : pat ≠ [] := by
      rintro rfl
      have hall := findFrom_prefix [] a
      rw [List.nil_append, h] at hall
      cases hall
    rw [findFrom_skip (findFrom_eq_none_iff.mp h) hc, Option.map_none, Option.none_or,
      findFrom_cons hpat hc]

/-- What is found is the end of the text. -/
theorem suffix_of_findFrom {pat a m : List Char} (h : findFrom pat a = some m) : m <:+ a := by
  induction a with
  | nil =>
    rw [findFrom] at h
    split at h
    · cases h
      exact List.suffix_rfl
    · cases h
  | cons c a ih =>
    rw [findFrom] at h
    split at h
    · cases h
      exact List.suffix_rfl
    · exact (ih h).trans (List.suffix_cons c a)

/-! ## Pieces -/

/-- What is decided of a text is decided character by character, not over all
characters that there are. -/
theorem forall_mem_of_all {P : Char → Prop} [DecidablePred P] {s : List Char}
    (h : s.all (fun c => decide (P c)) = true) : ∀ c ∈ s, P c :=
  fun c hc => of_decide_eq_true (List.all_eq_true.mp h c hc)

/-- A character of joined pieces is the separator or stands in one of them. -/
theorem mem_intercalate {sep c : Char} {pieces : List (List Char)}
    (h : c ∈ [sep].intercalate pieces) : c = sep ∨ ∃ piece ∈ pieces, c ∈ piece := by
  induction pieces with
  | nil =>
    rw [List.intercalate_nil] at h
    exact absurd h List.not_mem_nil
  | cons piece pieces ih =>
    cases pieces with
    | nil =>
      rw [List.intercalate_singleton] at h
      exact .inr ⟨piece, List.mem_cons_self, h⟩
    | cons next rest =>
      rw [List.intercalate_cons_cons, List.append_assoc] at h
      rcases List.mem_append.mp h with hpiece | hrest
      · exact .inr ⟨piece, List.mem_cons_self, hpiece⟩
      · rcases List.mem_cons.mp hrest with hsep | hrest
        · exact .inl hsep
        · obtain hsep | ⟨p, hp, hc⟩ := ih hrest
          · exact .inl hsep
          · exact .inr ⟨p, List.mem_cons_of_mem _ hp, hc⟩

/-- The first run of characters that satisfy `p`. -/
def firstRun (p : Char → Bool) (s : List Char) : List Char :=
  (s.dropWhile fun c => !p c).takeWhile p

/-- What stands in front of a run and cannot be in one. -/
theorem firstRun_append {p : Char → Bool} {a s : List Char} (h : ∀ c ∈ a, p c = false) :
    firstRun p (a ++ s) = firstRun p s := by
  unfold firstRun
  rw [List.dropWhile_append_of_pos fun c hc => by rw [h c hc]; rfl]

/-- A run up to the character that ends it. -/
theorem firstRun_run {p : Char → Bool} {run s : List Char} {c : Char} (hne : run ≠ [])
    (hrun : ∀ c ∈ run, p c = true) (hc : p c = false) : firstRun p (run ++ c :: s) = run := by
  obtain ⟨d, ds, rfl⟩ := List.exists_cons_of_ne_nil hne
  have hd : ¬ (!p d) = true := by simp [hrun d List.mem_cons_self]
  have hstop : ¬ p c = true := by simp [hc]
  rw [firstRun, List.cons_append, List.dropWhile_cons_of_neg (p := fun c => !p c) hd,
    ← List.cons_append, List.takeWhile_append_of_pos hrun, List.takeWhile_cons_of_neg hstop,
    List.append_nil]

private theorem splitOnP_head (p : Char → Bool) (s : List Char) :
    ∃ ps, s.splitOnP (fun c => !p c) = s.takeWhile p :: ps := by
  induction s with
  | nil => exact ⟨[], List.splitOnP_nil⟩
  | cons c s ih =>
    obtain ⟨ps, hps⟩ := ih
    rw [List.splitOnP_cons_eq_if_modifyHead]
    split
    · next hc =>
      refine ⟨s.splitOnP fun c => !p c, ?_⟩
      rw [List.takeWhile_cons_of_neg (by simpa using hc)]
    · next hc =>
      refine ⟨ps, ?_⟩
      rw [hps, List.takeWhile_cons_of_pos (by simpa using hc)]
      rfl

/-- The first piece that is not empty, of a text split at what cannot be in a run. -/
theorem find_splitOnP (p : Char → Bool) (s : List Char) :
    (s.splitOnP fun c => !p c).find? (!·.isEmpty) =
      if firstRun p s = [] then none else some (firstRun p s) := by
  induction s with
  | nil => rw [List.splitOnP_nil]; rfl
  | cons c s ih =>
    obtain ⟨ps, hps⟩ := splitOnP_head p s
    rw [List.splitOnP_cons_eq_if_modifyHead]
    cases hc : p c with
    | false =>
      have hrun : firstRun p (c :: s) = firstRun p s :=
        firstRun_append (a := [c]) fun d hd => by rw [List.mem_singleton.mp hd, hc]
      rw [hrun, ← ih]
      rfl
    | true =>
      have hrun : firstRun p (c :: s) = c :: s.takeWhile p := by
        rw [firstRun, List.dropWhile_cons_of_neg (by simp [hc]), List.takeWhile_cons_of_pos hc]
      rw [hrun, hps]
      rfl

/-- The first piece of a split is what stands before the first separator. -/
theorem splitOn_headD (sep : Char) (s : List Char) :
    (s.splitOn sep).headD s = s.takeWhile (· != sep) := by
  obtain ⟨ps, hps⟩ := splitOnP_head (· != sep) s
  have hsep : (fun c => !(c != sep)) = fun c : Char => c == sep := by
    funext c
    rw [bne, Bool.not_not]
  rw [hsep] at hps
  rw [List.splitOn_eq_splitOnP, hps, List.headD_cons]

/-- What stands before a separator that the text in front of it does not hold. -/
theorem takeWhile_append_cons {sep : Char} {a b : List Char} (h : sep ∉ a) :
    (a ++ sep :: b).takeWhile (· != sep) = a := by
  have ha : ∀ c ∈ a, (c != sep) = true := fun c hc => bne_iff_ne.mpr fun heq => h (heq ▸ hc)
  rw [List.takeWhile_append_of_pos ha, List.takeWhile_cons_of_neg (by simp), List.append_nil]

theorem takeWhile_of_notMem {sep : Char} {s : List Char} (h : sep ∉ s) :
    s.takeWhile (· != sep) = s :=
  List.takeWhile_eq_self_iff.mpr fun _ hc => bne_iff_ne.mpr fun heq => h (heq ▸ hc)

/-- A longer text goes on at least as far. -/
theorem takeWhile_mono (p : Char → Bool) {s t : List Char} (h : s <+: t) :
    s.takeWhile p <+: t.takeWhile p := by
  obtain ⟨rest, rfl⟩ := h
  rw [List.takeWhile_append]
  split
  · have hs : s.takeWhile p <+: s := List.takeWhile_prefix p
    exact hs.trans (List.prefix_append s _)
  · exact List.prefix_rfl

/-- The first piece of a split begins with what stands before every separator. -/
theorem splitOn_append {sep : Char} {pre s : List Char} (h : sep ∉ pre) :
    ∃ p ps, (pre ++ s).splitOn sep = (pre ++ p) :: ps := by
  induction pre with
  | nil =>
    obtain ⟨p, ps, hs⟩ := List.exists_cons_of_ne_nil (List.splitOn_ne_nil sep s)
    exact ⟨p, ps, hs⟩
  | cons c pre ih =>
    rw [List.mem_cons, not_or] at h
    obtain ⟨p, ps, hs⟩ := ih h.2
    have hne : (c == sep) = false := by simpa using Ne.symm h.1
    refine ⟨p, ps, ?_⟩
    simp [List.splitOn_cons_eq_if_modifyHead, hne, hs]

private theorem mem_dropWhile {p : Char → Bool} {c : Char} {s : List Char} (hc : p c = false)
    (h : c ∈ s) : c ∈ s.dropWhile p := by
  rw [← List.takeWhile_append_dropWhile (p := p) (l := s)] at h
  rcases List.mem_append.mp h with h | h
  · exact absurd (List.mem_takeWhile_imp h) (by simp [hc])
  · exact h

/-- Trimming keeps every character but white space. -/
theorem mem_trim {c : Char} {s : List Char} (hc : isWhiteSpace c = false) (h : c ∈ s) :
    c ∈ trim s := by
  unfold trim List.rdropWhile
  exact List.mem_reverse.mpr (mem_dropWhile hc (List.mem_reverse.mpr (mem_dropWhile hc h)))

/-- Nothing is left of a text exactly when it is white space. -/
theorem trim_eq_nil_iff {s : List Char} : trim s = [] ↔ ∀ c ∈ s, isWhiteSpace c = true := by
  constructor
  · intro h c hc
    by_contra hblank
    have hmem := mem_trim (Bool.eq_false_iff.mpr hblank) hc
    rw [h] at hmem
    exact absurd hmem List.not_mem_nil
  · intro h
    rw [trim, List.dropWhile_eq_nil_iff.mpr h]
    rfl

/-- The trimmed text keeps every other character. -/
theorem mem_trimMatches {c d : Char} {s : List Char} (hd : d ≠ c) (h : d ∈ s) :
    d ∈ trimMatches c s := by
  have hc : decide (d = c) = false := decide_eq_false hd
  unfold trimMatches List.rdropWhile
  exact List.mem_reverse.mpr (mem_dropWhile hc (List.mem_reverse.mpr (mem_dropWhile hc h)))

theorem trimMatches_of_notMem {c : Char} {s : List Char} (h : c ∉ s) : trimMatches c s = s := by
  have hstart : s.dropWhile (fun x => decide (x = c)) = s := by
    cases s with
    | nil => rfl
    | cons d s =>
      have hd : d ≠ c := fun heq => h (heq ▸ List.mem_cons_self)
      exact List.dropWhile_cons_of_neg (by simpa using hd)
  rw [trimMatches, hstart]
  exact trimEndMatches_of_notMem h

/-! ## Texts that are put together -/

/-- Whether the first character is one of some. -/
def beginsWith (stop : Char → Bool) (s : String) : Bool := s.toList.head?.any stop

theorem beginsWith_append {stop : Char → Bool} {s : String} (h : beginsWith stop s = true)
    (t : String) : beginsWith stop (s ++ t) = true := by
  unfold beginsWith at h ⊢
  rw [String.toList_append]
  cases hs : s.toList with
  | nil =>
    rw [hs] at h
    cases h
  | cons c rest =>
    rw [hs] at h
    exact h

private theorem append_cons_inj {stop : Char → Bool} {a a' s s' : List Char} {c c' : Char}
    (ha : ∀ x ∈ a, stop x = false) (ha' : ∀ x ∈ a', stop x = false) (hc : stop c = true)
    (hc' : stop c' = true) (h : a ++ c :: s = a' ++ c' :: s') : a = a' ∧ c :: s = c' :: s' := by
  induction a generalizing a' with
  | nil =>
    cases a' with
    | nil => exact ⟨rfl, h⟩
    | cons x a' =>
      obtain ⟨rfl, -⟩ := List.cons.inj h
      exact absurd (hc.symm.trans (ha' c List.mem_cons_self)) (by decide)
  | cons x a ih =>
    cases a' with
    | nil =>
      obtain ⟨rfl, -⟩ := List.cons.inj h
      exact absurd (hc'.symm.trans (ha x List.mem_cons_self)) (by decide)
    | cons x' a' =>
      obtain ⟨rfl, hrest⟩ := List.cons.inj h
      obtain ⟨rfl, hs⟩ := ih (fun y hy => ha y (List.mem_cons_of_mem _ hy))
        (fun y hy => ha' y (List.mem_cons_of_mem _ hy)) hrest
      exact ⟨rfl, hs⟩

/-- What stands before the first of some characters can be told from the text. -/
theorem append_inj_of_stop {stop : Char → Bool} {a a' s s' : String}
    (ha : ∀ c ∈ a.toList, stop c = false) (ha' : ∀ c ∈ a'.toList, stop c = false)
    (hs : beginsWith stop s = true) (hs' : beginsWith stop s' = true) (h : a ++ s = a' ++ s') :
    a = a' ∧ s = s' := by
  have hlist : a.toList ++ s.toList = a'.toList ++ s'.toList := by
    rw [← String.toList_append, ← String.toList_append, h]
  unfold beginsWith at hs hs'
  cases hcs : s.toList with
  | nil =>
    rw [hcs] at hs
    cases hs
  | cons c rest =>
    cases hcs' : s'.toList with
    | nil =>
      rw [hcs'] at hs'
      cases hs'
    | cons c' rest' =>
      rw [hcs] at hs hlist
      rw [hcs'] at hs' hlist
      obtain ⟨hsame, hrest⟩ := append_cons_inj ha ha' hs hs' hlist
      rw [← hcs, ← hcs'] at hrest
      exact ⟨String.toList_injective hsame, String.toList_injective hrest⟩

/-- Texts that begin differently are different. -/
theorem append_ne_append {l l' : String} (i : Nat) (hi : i < l.toList.length)
    (hi' : i < l'.toList.length) (h : l.toList[i]? ≠ l'.toList[i]?) (s s' : String) :
    l ++ s ≠ l' ++ s' := by
  intro heq
  have hlist : l.toList ++ s.toList = l'.toList ++ s'.toList := by
    rw [← String.toList_append, ← String.toList_append, heq]
  refine h ?_
  rw [← List.getElem?_append_left hi, hlist, List.getElem?_append_left hi']

/-- A text in front of another shows, before a character that it does not hold. -/
theorem prefixed_ne {pre d s s' : List Char} {c : Char} (hpre : pre ≠ []) (hc : c ∉ pre) :
    pre ++ (d ++ s) ≠ d ++ c :: s' := by
  induction hn : d.length using Nat.strongRecOn generalizing d with
  | ind n ih =>
    intro h
    rcases List.append_eq_append_iff.mp h with ⟨rest, rfl, hrest⟩ | ⟨rest, rfl, hrest⟩
    · -- the text is repeated in what it stands in front of
      have hpos : 0 < pre.length := List.length_pos_of_ne_nil hpre
      refine ih rest.length ?_ rfl ?_
      · rw [← hn, List.length_append]
        omega
      · rw [← List.append_assoc]
        exact hrest
    · cases rest with
      | nil =>
        rw [List.append_nil] at hpre hc
        obtain ⟨x, rest, rfl⟩ := List.exists_cons_of_ne_nil hpre
        obtain ⟨rfl, -⟩ := List.cons.inj hrest
        exact hc List.mem_cons_self
      | cons x rest =>
        obtain ⟨rfl, -⟩ := List.cons.inj hrest
        exact hc (List.mem_append_right _ List.mem_cons_self)

/-! ## Trimming -/

/-- White space at the end is trimmed with what it follows. -/
theorem trimEnd_append (s : List Char) {blank : List Char} (h : ∀ c ∈ blank, isWhiteSpace c = true) :
    trimEnd (s ++ blank) = trimEnd s := by
  unfold trimEnd List.rdropWhile
  rw [List.reverse_append, List.dropWhile_append_of_pos fun c hc => h c (List.mem_reverse.mp hc)]

/-- A text whose end is not white space is trimmed within that. -/
theorem trimEnd_append_of_ne {s t : List Char} (h : trimEnd t ≠ []) :
    trimEnd (s ++ t) = s ++ trimEnd t := by
  unfold trimEnd List.rdropWhile at h ⊢
  have hne : (List.dropWhile isWhiteSpace t.reverse).isEmpty = false := by
    rw [Bool.eq_false_iff]
    intro hempty
    rw [List.isEmpty_iff.mp hempty] at h
    exact h rfl
  rw [List.reverse_append, List.dropWhile_append, hne]
  simp

/-- A text is what is left of it, and white space. -/
theorem exists_trimEnd (s : List Char) :
    ∃ blank, s = trimEnd s ++ blank ∧ ∀ c ∈ blank, isWhiteSpace c = true := by
  refine ⟨s.rtakeWhile isWhiteSpace, List.rdropWhile_append_rtakeWhile.symm, fun c hc => ?_⟩
  exact List.mem_rtakeWhile_imp hc

/-- White space at the end does not change the trimmed text. -/
theorem trim_append (s : List Char) {blank : List Char} (h : ∀ c ∈ blank, isWhiteSpace c = true) :
    trim (s ++ blank) = trim s := by
  unfold trim
  rw [List.dropWhile_append]
  split
  · next hempty =>
    rw [List.isEmpty_iff.mp hempty, List.dropWhile_eq_nil_iff.mpr h]
  · exact trimEnd_append _ h

/-- Nothing is trimmed but what was there. -/
theorem trim_subset (s : List Char) : trim s ⊆ s :=
  fun _ hc => (List.dropWhile_suffix ..).subset ((List.rdropWhile_prefix ..).subset hc)

/-- White space in front of a text that begins and ends with something else. -/
theorem trim_indented {blank s : List Char} {c d : Char} (h : ∀ c ∈ blank, isWhiteSpace c = true)
    (hfirst : s.head? = some c) (hc : isWhiteSpace c = false) (hlast : s.getLast? = some d)
    (hd : isWhiteSpace d = false) : trim (blank ++ s) = s := by
  obtain ⟨init, rfl⟩ := List.getLast?_eq_some_iff.mp hlast
  have hstart : (init ++ [d]).dropWhile isWhiteSpace = init ++ [d] := by
    obtain ⟨rest, hs⟩ := List.head?_eq_some_iff.mp hfirst
    rw [hs, List.dropWhile_cons_of_neg (by rw [hc]; exact Bool.false_ne_true)]
  rw [trim, List.dropWhile_append_of_pos h, hstart,
    List.rdropWhile_concat_neg _ _ _ (by rw [hd]; exact Bool.false_ne_true)]

theorem trim_trimEnd (s : List Char) : trim (trimEnd s) = trim s := by
  obtain ⟨blank, hs, hblank⟩ := exists_trimEnd s
  have htrim := trim_append (trimEnd s) hblank
  rw [← hs] at htrim
  exact htrim.symm

/-! ## Decimal numbers -/

/-- The text of a number without its plus sign. -/
def dropPlus : List Char → List Char
  | '+' :: rest => rest
  | s => s

/-- An unsigned decimal below `bound`: an optional `+`, then digits only. -/
def parseUnsigned (bound : Nat) (s : List Char) : Option Nat :=
  let digits := dropPlus s
  if digits = [] ∨ digits.all Char.isDigit = false then none
  else
    let n := Nat.ofDigitChars 10 digits 0
    if n < bound then some n else none

/-- A signed decimal of `bits` bits in two's complement: an optional sign, then digits only. -/
def parseSigned (bits : Nat) : List Char → Option Int
  | '-' :: rest =>
    if rest = [] ∨ rest.all Char.isDigit = false then none
    else
      let n := Nat.ofDigitChars 10 rest 0
      if n ≤ 2 ^ (bits - 1) then some (-(n : Int)) else none
  | s => (parseUnsigned (2 ^ (bits - 1)) s).map Int.ofNat

/-- The decimal text of an integer. -/
def decimal : Int → List Char
  | .ofNat n => Nat.toDigits 10 n
  | .negSucc n => '-' :: Nat.toDigits 10 (n + 1)

/-- Every character of a decimal is a digit. -/
theorem toDigits_all_isDigit (n : Nat) : (Nat.toDigits 10 n).all Char.isDigit = true :=
  List.all_eq_true.mpr fun _ h => Nat.isDigit_of_mem_toDigits (by decide) (by decide) h

/-- Decimals of different numbers differ. -/
theorem toDigits_injective {m n : Nat} (h : Nat.toDigits 10 m = Nat.toDigits 10 n) : m = n := by
  rw [← Nat.ofDigitChars_ten_toDigits (n := m), h, Nat.ofDigitChars_ten_toDigits]

private theorem toDigits_head (n : Nat) :
    ∃ c s, Nat.toDigits 10 n = c :: s ∧ c.isDigit = true := by
  cases h : Nat.toDigits 10 n with
  | nil => exact absurd h Nat.toDigits_ne_nil
  | cons c s =>
    have hall := toDigits_all_isDigit n
    rw [h, List.all_cons, Bool.and_eq_true] at hall
    exact ⟨c, s, rfl, hall.1⟩

/-- Parsing a number's own decimal gives the number back, within the bound. -/
theorem parseUnsigned_toDigits {bound n : Nat} (h : n < bound) :
    parseUnsigned bound (Nat.toDigits 10 n) = some n := by
  obtain ⟨c, s, hcs, hc⟩ := toDigits_head n
  have hplus : c ≠ '+' := by
    rintro rfl
    exact absurd hc (by decide)
  have hdigits : dropPlus (Nat.toDigits 10 n) = Nat.toDigits 10 n := by
    rw [hcs]
    unfold dropPlus
    split
    · next hs => exact absurd (List.cons.inj hs).1 hplus
    · rfl
  unfold parseUnsigned
  simp only [hdigits, Nat.toDigits_ne_nil, toDigits_all_isDigit, Bool.true_eq_false, or_self,
    ↓reduceIte, Nat.ofDigitChars_ten_toDigits, h]

/-- The decimal of a number that is out of bounds is refused. -/
theorem parseUnsigned_toDigits_eq (bound n : Nat) :
    parseUnsigned bound (Nat.toDigits 10 n) = if n < bound then some n else none := by
  split
  · next h => exact parseUnsigned_toDigits h
  · next h =>
    have hparse : parseUnsigned (n + 1) (Nat.toDigits 10 n) = some n :=
      parseUnsigned_toDigits (Nat.lt_succ_self n)
    unfold parseUnsigned at hparse ⊢
    dsimp only at hparse ⊢
    split at hparse
    · cases hparse
    · next hdigits =>
      rw [if_neg hdigits]
      split at hparse
      · rw [Option.some.inj hparse, if_neg h]
      · cases hparse

private theorem mem_dropPlus {c : Char} {s : List Char} (hplus : c ≠ '+') (h : c ∈ s) :
    c ∈ dropPlus s := by
  unfold dropPlus
  split
  · rcases List.mem_cons.mp h with rfl | h
    · exact absurd rfl hplus
    · exact h
  · exact h

/-- An unsigned decimal holds no character but digits and a plus. -/
theorem not_mem_of_parseUnsigned {bound n : Nat} {s : List Char} {c : Char}
    (h : parseUnsigned bound s = some n) (hdigit : c.isDigit = false) (hplus : c ≠ '+') :
    c ∉ s := by
  intro hmem
  unfold parseUnsigned at h
  simp only at h
  split at h
  · cases h
  · next hall =>
    rw [not_or, Bool.not_eq_false] at hall
    have := List.all_eq_true.mp hall.2 c (mem_dropPlus hplus hmem)
    rw [hdigit] at this
    cases this

/-- Parsing an integer's own decimal gives the integer back, within two's complement. -/
theorem parseSigned_decimal {bits : Nat} {n : Int} (hlo : -2 ^ (bits - 1) ≤ n)
    (hhi : n < 2 ^ (bits - 1)) : parseSigned bits (decimal n) = some n := by
  cases n with
  | ofNat n =>
    obtain ⟨c, s, hcs, hc⟩ := toDigits_head n
    have hminus : c ≠ '-' := by
      rintro rfl
      exact absurd hc (by decide)
    have hn : n < 2 ^ (bits - 1) := by
      have : (Int.ofNat n) < ((2 ^ (bits - 1) : Nat) : Int) := by
        rw [Int.natCast_pow]
        exact hhi
      exact Int.ofNat_lt.mp this
    have hparse := parseUnsigned_toDigits hn
    rw [hcs] at hparse
    simp only [decimal, hcs, parseSigned]
    split
    · next hs => exact absurd (List.cons.inj hs).1 hminus
    · rw [hparse, Option.map_some]
  | negSucc n =>
    have hn : n + 1 ≤ 2 ^ (bits - 1) := by
      have hneg : -((2 ^ (bits - 1) : Nat) : Int) ≤ Int.negSucc n := by
        rw [Int.natCast_pow]
        exact hlo
      omega
    simp only [decimal, parseSigned, Nat.toDigits_ne_nil, toDigits_all_isDigit,
      Bool.true_eq_false, or_self, ↓reduceIte, Nat.ofDigitChars_ten_toDigits, hn,
      Option.some.injEq]
    rfl

end Text
