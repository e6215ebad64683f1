/-!
# Lower-casing

Lower-casing of a text, character by character, over the character tables: what
the tables say of ASCII is fixed, the rest is theirs. Only a capital sigma
depends on what stands around it: at the end of a word it has a form of its own.
-/

namespace Lowercase

/-- The character tables. -/
structure Tables where
  lower : Char → List Char
  cased : Char → Bool
  caseIgnorable : Char → Bool
  lower_ascii : ∀ c, c.toNat < 128 → lower c = [c.toLower]

variable (tables : Tables)

/-- A cased character comes next, past those that do not count. -/
def casedNext (cs : List Char) : Bool :=
  match cs.dropWhile tables.caseIgnorable with
  | [] => false
  | c :: _ => tables.cased c

/-- One character, between those before it, last first, and those after it. -/
def lowerAt (before : List Char) (c : Char) (after : List Char) : List Char :=
  if c = 'Σ' then [if casedNext tables before && !casedNext tables after then 'ς' else 'σ']
  else tables.lower c

/-- The characters from a place on. -/
def lowerFrom (before : List Char) : List Char → List Char
  | [] => []
  | c :: after => lowerAt tables before c after ++ lowerFrom (c :: before) after

/-- The text in lower case. -/
def toLowercase (s : String) : String := .ofList (lowerFrom tables [] s.toList)

/-- The tables of ASCII alone. -/
def ascii : Tables where
  lower c := [c.toLower]
  cased c := c.isAlpha
  caseIgnorable c := c ∈ "'.:^`".toList
  lower_ascii _ _ := rfl

variable {tables}

/-- An ASCII character has its lower-case form anywhere. -/
theorem lowerAt_ascii {c : Char} (hc : c.toNat < 128) (before after : List Char) :
    lowerAt tables before c after = [c.toLower] := by
  have hsigma : c ≠ 'Σ' := by
    rintro rfl
    exact absurd hc (by decide)
  rw [lowerAt, if_neg hsigma, tables.lower_ascii c hc]

/-- ASCII text is lower-cased by itself. -/
theorem lowerFrom_ascii {cs : List Char} (h : ∀ c ∈ cs, c.toNat < 128) (before : List Char) :
    lowerFrom tables before cs = cs.map Char.toLower := by
  induction cs generalizing before with
  | nil => rfl
  | cons c cs ih =>
    rw [lowerFrom, lowerAt_ascii (h c List.mem_cons_self),
      ih fun d hd => h d (List.mem_cons_of_mem _ hd)]
    rfl

/-- What ends in ASCII text ends in its lower-case form. -/
theorem suffix_lowerFrom {cs : List Char} (h : ∀ c ∈ cs, c.toNat < 128) (before front : List Char) :
    cs.map Char.toLower <:+ lowerFrom tables before (front ++ cs) := by
  induction front generalizing before with
  | nil =>
    have hall : lowerFrom tables before ([] ++ cs) = cs.map Char.toLower := lowerFrom_ascii h before
    exact hall ▸ List.suffix_refl _
  | cons c front ih =>
    exact (ih (c :: before)).trans (List.suffix_append _ _)

/-- The lower-case form of a capital stands 32 places after it, every other
character is its own. -/
theorem toLower_cases (c : Char) :
    65 ≤ c.toNat ∧ c.toNat ≤ 90 ∧ c.toLower.toNat = c.toNat + 32 ∨ c.toLower = c := by
  unfold Char.toLower
  split
  · next hupper =>
    have hfirst : 65 ≤ c.val.toNat := hupper.1
    have hlast : c.val.toNat ≤ 90 := hupper.2
    refine .inl ⟨hfirst, hlast, ?_⟩
    show (c.val + 32).toNat = c.val.toNat + 32
    rw [UInt32.toNat_add]
    apply Nat.mod_eq_of_lt
    show c.val.toNat + 32 < 2 ^ 32
    omega
  · exact .inr rfl

/-- Only an ASCII character has an ASCII lower-case form. -/
theorem ascii_of_toLower {c : Char} (h : c.toLower.toNat < 128) : c.toNat < 128 := by
  rcases toLower_cases c with ⟨hfirst, hlast, hlower⟩ | hsame
  · omega
  · rwa [hsame] at h

/-- Digits, capitals and small letters. -/
theorem isAlphanum_iff {c : Char} : c.isAlphanum ↔
    48 ≤ c.toNat ∧ c.toNat ≤ 57 ∨ 65 ≤ c.toNat ∧ c.toNat ≤ 90 ∨ 97 ≤ c.toNat ∧ c.toNat ≤ 122 := by
  show (decide (c.val ≥ 65 ∧ c.val ≤ 90) || decide (c.val ≥ 97) && decide (c.val ≤ 122) ||
    decide (c.val ≥ 48) && decide (c.val ≤ 57)) = true ↔ _
  simp only [Bool.or_eq_true, Bool.and_eq_true, decide_eq_true_eq, ge_iff_le, UInt32.le_iff_toNat_le]
  exact or_comm

theorem isAlphanum_toLower {c : Char} (h : c.isAlphanum) : c.toLower.isAlphanum := by
  have hbounds := isAlphanum_iff.mp h
  rcases toLower_cases c with ⟨hfirst, hlast, hlower⟩ | hsame
  · rw [isAlphanum_iff, hlower]
    omega
  · rwa [hsame]

/-- The lower-case form of an ASCII character is one. -/
theorem toLower_ascii {c : Char} (h : c.toNat < 128) : c.toLower.toNat < 128 := by
  rcases toLower_cases c with ⟨hfirst, hlast, hlower⟩ | hsame
  · omega
  · rwa [hsame]

end Lowercase
