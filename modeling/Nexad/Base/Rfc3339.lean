import Mathlib.Data.Nat.Digits.Defs
import Nexad.Base.Calendar

/-!
# Times as RFC 3339 writes them

`YYYY-MM-DDTHH:MM:SS`, then the fraction of the second in three, six or nine
digits, whichever is the fewest that keep it, and none for a whole second, then
the offset of UTC. The fields have fixed widths down to the seconds, and what
follows these sorts as well: the `+` of the offset is before the `.` of a
fraction and before every digit. So the texts of the years 0 to 9999 are in the
order of their times, character by character (`text_lt_text`), and a text says
which time it is (`ofText_text`).
-/

namespace Rfc3339

open Calendar

/-! ## Digits -/

/-- The lowest `width` decimal digits of a number. -/
def digits (n : Nat) : Nat → List Char
  | 0 => []
  | width + 1 => digits (n / 10) width ++ [Nat.digitChar (n % 10)]

/-- Read digits as one number. -/
def number (cs : List Char) : Nat := cs.foldl (fun n c => 10 * n + (c.toNat - '0'.toNat)) 0

@[simp] theorem length_digits (n width : Nat) : (digits n width).length = width := by
  induction width generalizing n with
  | zero => rfl
  | succ width ih => simp [digits, ih]

theorem digits_add (n width low : Nat) :
    digits n (width + low) = digits (n / 10 ^ low) width ++ digits n low := by
  induction low generalizing n with
  | zero => simp [digits]
  | succ low ih =>
    rw [← Nat.add_assoc, digits, digits, ih, Nat.div_div_eq_div_mul, ← Nat.pow_succ', List.append_assoc]

theorem isDigit_of_mem {c : Char} {n width : Nat} (h : c ∈ digits n width) : c.isDigit = true := by
  have hdigit : ∀ d < 10, (Nat.digitChar d).isDigit = true := by decide
  induction width generalizing n with
  | zero => cases h
  | succ width ih =>
    rcases List.mem_append.mp h with h | h
    · exact ih h
    · rw [List.mem_singleton.mp h]
      exact hdigit _ (Nat.mod_lt _ (by decide))

theorem number_digits (n width : Nat) : number (digits n width) = n % 10 ^ width := by
  have hdigit : ∀ d < 10, (Nat.digitChar d).toNat - '0'.toNat = d := by decide
  induction width generalizing n with
  | zero => simp [digits, number, Nat.mod_one]
  | succ width ih =>
    have hlast := hdigit (n % 10) (Nat.mod_lt _ (by decide))
    have hfirst := ih (n / 10)
    rw [number] at hfirst
    rw [number, digits, List.foldl_append, hfirst, List.foldl_cons, List.foldl_nil, hlast,
      Nat.pow_succ', Nat.mod_mul]
    omega

/-- Digits of one width are in the order of their numbers. -/
theorem digits_lt {n n' width : Nat} (h : n < n') (hwidth : n' < 10 ^ width) (x y : List Char) :
    digits n width ++ x < digits n' width ++ y := by
  have hdigit : ∀ d < 10, ∀ d' < 10, d < d' → Nat.digitChar d < Nat.digitChar d' := by decide
  induction width generalizing n n' x y with
  | zero => omega
  | succ width ih =>
    rw [Nat.pow_succ] at hwidth
    rw [digits, digits, List.append_assoc, List.append_assoc]
    rcases Nat.lt_or_eq_of_le (Nat.div_le_div_right (c := 10) (Nat.le_of_lt h)) with hlt | heq
    · exact ih hlt (by omega) _ _
    · rw [heq]
      refine List.append_left_lt (List.cons_lt_cons_iff.mpr (.inl ?_))
      exact hdigit _ (Nat.mod_lt _ (by decide)) _ (Nat.mod_lt _ (by decide)) (by omega)

/-- A field decides, or leaves it to what follows. -/
theorem field_lt {n n' width : Nat} {separator : Char} {x y : List Char}
    (h : n < n' ∨ n = n' ∧ x < y) (hwidth : n' < 10 ^ width) :
    digits n width ++ separator :: x < digits n' width ++ separator :: y := by
  rcases h with h | ⟨rfl, h⟩
  · exact digits_lt h hwidth _ _
  · exact List.append_left_lt (List.cons_lt_cons_iff.mpr (.inr ⟨rfl, h⟩))

/-! ## The fraction of a second -/

/-- The fraction in as many groups of three digits as it takes. -/
def fraction (nanos : Nat) : List Char :=
  if nanos = 0 then []
  else if nanos % 1000000 = 0 then '.' :: digits (nanos / 1000000) 3
  else if nanos % 1000 = 0 then '.' :: digits (nanos / 1000) 6
  else '.' :: digits nanos 9

/-- The offset of UTC. -/
def utc : List Char := ['+', '0', '0', ':', '0', '0']

/-- A fraction is none, or a point and digits of some width that keep it. -/
theorem fraction_cases (nanos : Nat) : nanos = 0 ∧ fraction nanos = [] ∨
    0 < nanos ∧ ∃ width low n, width + low = 9 ∧ nanos = n * 10 ^ low ∧
      fraction nanos = '.' :: digits n width := by
  unfold fraction
  split
  case isTrue h => exact .inl ⟨h, rfl⟩
  case isFalse hzero =>
    refine .inr ⟨Nat.pos_of_ne_zero hzero, ?_⟩
    split
    case isTrue h => exact ⟨3, 6, nanos / 1000000, rfl, by omega, rfl⟩
    case isFalse =>
      split
      case isTrue h => exact ⟨6, 3, nanos / 1000, rfl, by omega, rfl⟩
      case isFalse => exact ⟨9, 0, nanos, rfl, by omega, rfl⟩

/-- Digits behind a point are in the order of the fractions, whatever their
widths. -/
theorem decimals_lt {width low n width' low' n' : Nat} (hwidth : width + low = width' + low')
    (h : n * 10 ^ low < n' * 10 ^ low') (hn' : n' < 10 ^ width') :
    digits n width ++ utc < digits n' width' ++ utc := by
  rcases Nat.le_total width width' with hle | hle
  · obtain ⟨more, rfl⟩ := Nat.exists_eq_add_of_le hle
    obtain rfl : low = more + low' := by omega
    rw [Nat.pow_add, ← Nat.mul_assoc] at h
    have hlt : n * 10 ^ more < n' := Nat.lt_of_mul_lt_mul_right h
    have hprefix : n ≤ n' / 10 ^ more := (Nat.le_div_iff_mul_le (by positivity)).mpr (Nat.le_of_lt hlt)
    rw [digits_add, List.append_assoc]
    rcases Nat.lt_or_eq_of_le hprefix with hlt | heq
    · refine digits_lt hlt (Nat.div_lt_of_lt_mul ?_) _ _
      rwa [Nat.add_comm, Nat.pow_add] at hn'
    · -- the shorter ends here, where the longer has a digit
      rw [heq]
      refine List.append_left_lt ?_
      cases more with
      | zero =>
        rw [Nat.pow_zero, Nat.mul_one] at hlt
        rw [Nat.pow_zero, Nat.div_one] at heq
        omega
      | succ more =>
        have hdigit : ∀ d < 10, '+' < Nat.digitChar d := by decide
        rw [Nat.add_comm more 1, digits_add]
        exact List.cons_lt_cons_iff.mpr (.inl (hdigit _ (Nat.mod_lt _ (by decide))))
  · obtain ⟨more, rfl⟩ := Nat.exists_eq_add_of_le hle
    obtain rfl : low' = more + low := by omega
    rw [Nat.pow_add, ← Nat.mul_assoc] at h
    rw [digits_add, List.append_assoc]
    exact digits_lt ((Nat.div_lt_iff_lt_mul (by positivity)).mpr (Nat.lt_of_mul_lt_mul_right h)) hn' _ _

theorem fraction_lt {nanos nanos' : Nat} (h : nanos < nanos') (hnanos' : nanos' < 1000000000) :
    fraction nanos ++ utc < fraction nanos' ++ utc := by
  rcases fraction_cases nanos' with ⟨rfl, -⟩ | ⟨-, width', low', n', hwidth', hn', htext'⟩
  · cases h
  rw [htext']
  rcases fraction_cases nanos with ⟨-, htext⟩ | ⟨-, width, low, n, hwidth, hn, htext⟩
  · rw [htext]
    exact List.cons_lt_cons_iff.mpr (.inl (by decide))
  · rw [htext]
    refine List.cons_lt_cons_iff.mpr (.inr ⟨rfl, ?_⟩)
    refine decimals_lt (hwidth.trans hwidth'.symm) (hn ▸ hn' ▸ h) ?_
    have hpow : (10 : Nat) ^ width' * 10 ^ low' = 1000000000 := by
      rw [← Nat.pow_add, hwidth']
    exact Nat.lt_of_mul_lt_mul_right (a := 10 ^ low') (by rw [← hn', hpow]; exact hnanos')

/-! ## Times -/

/-- The text of a second, counted from the first of January of year 0, and of
the nanoseconds in it. -/
def textAt (second nanos : Nat) : List Char :=
  let d := date (second / 86400)
  let ofDay := second % 86400
  digits d.year 4 ++ '-' :: (digits (d.month + 1) 2 ++ '-' :: (digits (d.day + 1) 2 ++ 'T' ::
    (digits (ofDay / 3600) 2 ++ ':' :: (digits (ofDay / 60 % 60) 2 ++ ':' ::
      (digits (ofDay % 60) 2 ++ (fraction nanos ++ utc))))))

/-- The nanoseconds from the first of January of year 0 to that of 1970. -/
def epoch : Nat := 719528 * 86400 * 1000000000

/-- The text of a time in nanoseconds since the epoch of 1970. -/
def text (t : Int) : String :=
  let nanos := (t + epoch).toNat
  String.ofList (textAt (nanos / 1000000000) (nanos % 1000000000))

/-- In the years 0 to 9999. -/
def InYears (t : Int) : Prop :=
  0 ≤ t + epoch ∧ t + epoch < (daysBeforeYear 10000 * 86400 * 1000000000 : Nat)

instance (t : Int) : Decidable (InYears t) := inferInstanceAs (Decidable (_ ∧ _))

example : text 0 = "1970-01-01T00:00:00+00:00" := by decide

example : text 951826629120000000 = "2000-02-29T12:17:09.120+00:00" := by decide

/-- Every field has room for its number. -/
theorem fields_lt {second : Nat} (h : second / 86400 < daysBeforeYear 10000) :
    (date (second / 86400)).year < 10 ^ 4 ∧ (date (second / 86400)).month + 1 < 10 ^ 2 ∧
    (date (second / 86400)).day + 1 < 10 ^ 2 ∧ second % 86400 / 3600 < 10 ^ 2 ∧
    second % 86400 / 60 % 60 < 10 ^ 2 ∧ second % 86400 % 60 < 10 ^ 2 := by
  have hyear : yearOf (second / 86400) ≤ 9999 := yearOf_le h
  have hmonth := monthOf_le (isLeap (yearOf (second / 86400)))
    (second / 86400 - daysBeforeYear (yearOf (second / 86400)))
  have hday := @dayOfMonth_lt (isLeap (yearOf (second / 86400))) _ (dayOfYear_lt (second / 86400))
  refine ⟨?_, ?_, ?_, by omega, by omega, by omega⟩
  · exact Nat.lt_succ_of_le hyear
  · exact Nat.lt_of_le_of_lt (Nat.succ_le_succ hmonth) (by decide)
  · exact Nat.lt_of_le_of_lt (Nat.succ_le_of_lt hday) (by decide)

theorem textAt_lt {second second' nanos nanos' : Nat}
    (h : second < second' ∨ second = second' ∧ nanos < nanos') (hnanos' : nanos' < 1000000000)
    (hsecond' : second' / 86400 < daysBeforeYear 10000) :
    textAt second nanos < textAt second' nanos' := by
  obtain ⟨hyear, hmonth, hday, hhour, hminute, hsec⟩ := fields_lt hsecond'
  rcases h with h | ⟨rfl, h⟩
  · rcases Nat.lt_or_eq_of_le (Nat.div_le_div_right (c := 86400) (Nat.le_of_lt h)) with hdate | hdate
    · -- an earlier date
      refine field_lt ?_ hyear
      rcases date_lt hdate with hy | ⟨hy, hm | ⟨hm, hd⟩⟩
      · exact .inl hy
      · exact .inr ⟨hy, field_lt (.inl (Nat.succ_lt_succ hm)) hmonth⟩
      · refine .inr ⟨hy, field_lt (.inr ⟨congrArg (· + 1) hm, ?_⟩) hmonth⟩
        exact field_lt (.inl (Nat.succ_lt_succ hd)) hday
    · -- an earlier second of the same date
      have hclock : second % 86400 / 3600 < second' % 86400 / 3600 ∨
          second % 86400 / 3600 = second' % 86400 / 3600 ∧
            (second % 86400 / 60 % 60 < second' % 86400 / 60 % 60 ∨
              second % 86400 / 60 % 60 = second' % 86400 / 60 % 60 ∧
                second % 86400 % 60 < second' % 86400 % 60) := by omega
      simp only [textAt, hdate]
      refine field_lt (.inr ⟨rfl, field_lt (.inr ⟨rfl, field_lt (.inr ⟨rfl, ?_⟩) hday⟩) hmonth⟩) hyear
      refine field_lt ?_ hhour
      rcases hclock with hh | ⟨hh, hm | ⟨hm, hs⟩⟩
      · exact .inl hh
      · exact .inr ⟨hh, field_lt (.inl hm) hminute⟩
      · exact .inr ⟨hh, field_lt (.inr ⟨hm, digits_lt hs hsec _ _⟩) hminute⟩
  · have hrest : digits (second % 86400 % 60) 2 ++ (fraction nanos ++ utc) <
        digits (second % 86400 % 60) 2 ++ (fraction nanos' ++ utc) :=
      List.append_left_lt (fraction_lt h hnanos')
    refine field_lt (.inr ⟨rfl, field_lt (.inr ⟨rfl, field_lt (.inr ⟨rfl, ?_⟩) hday⟩) hmonth⟩) hyear
    exact field_lt (.inr ⟨rfl, field_lt (.inr ⟨rfl, hrest⟩) hminute⟩) hhour

/-- A text begins with a digit. -/
theorem head_text (t : Int) : ∃ c, (text t).toList.head? = some c ∧ c.isDigit = true := by
  have hlength := fun n => length_digits n 4
  rw [text, String.toList_ofList, textAt, List.head?_append]
  cases hyear : digits (date ((t + epoch).toNat / 1000000000 / 86400)).year 4 with
  | nil =>
    have := hlength (date ((t + epoch).toNat / 1000000000 / 86400)).year
    rw [hyear] at this
    cases this
  | cons c cs => exact ⟨c, rfl, isDigit_of_mem (hyear ▸ List.mem_cons_self)⟩

theorem InYears.second_lt {t : Int} (h : InYears t) :
    (t + epoch).toNat / 1000000000 / 86400 < daysBeforeYear 10000 := by
  obtain ⟨hfirst, hlast⟩ := h
  refine (Nat.div_lt_iff_lt_mul (by decide)).mpr ((Nat.div_lt_iff_lt_mul (by decide)).mpr ?_)
  omega

/-- The texts of the years 0 to 9999 are in the order of their times. -/
theorem text_lt_text {t t' : Int} (h : t < t') (ht : InYears t) (ht' : InYears t') :
    text t < text t' := by
  have hnanos : (t + epoch).toNat < (t' + epoch).toNat := by
    have hfirst := ht.1
    omega
  rw [String.lt_iff, text, text, String.toList_ofList, String.toList_ofList]
  exact textAt_lt (by omega) (Nat.mod_lt _ (by decide)) ht'.second_lt

theorem text_le_text_iff {t t' : Int} (ht : InYears t) (ht' : InYears t') :
    text t ≤ text t' ↔ t ≤ t' := by
  constructor
  · intro h
    by_contra hlt
    exact h (text_lt_text (Int.not_le.mp hlt) ht' ht)
  · intro h hlt
    rcases Int.lt_or_eq_of_le h with h | rfl
    · exact absurd hlt (String.lt_asymm (text_lt_text h ht ht'))
    · exact String.lt_irrefl _ hlt

/-! ## Reading a time -/

/-- The number in a field of some width, and what follows its separator. -/
def field (width : Nat) (cs : List Char) : Nat × List Char :=
  (number (cs.take width), cs.drop (width + 1))

/-- The nanoseconds of a fraction in front of an offset. -/
def nanosOf : List Char → Nat
  | '.' :: cs =>
    let decimals := cs.takeWhile Char.isDigit
    number decimals * 10 ^ (9 - decimals.length)
  | _ => 0

/-- The second and nanoseconds of a text. -/
def readAt (cs : List Char) : Nat × Nat :=
  let (year, cs) := field 4 cs
  let (month, cs) := field 2 cs
  let (day, cs) := field 2 cs
  let (hour, cs) := field 2 cs
  let (minute, cs) := field 2 cs
  (dayOf ⟨year, month - 1, day - 1⟩ * 86400 + (hour * 3600 + minute * 60 + number (cs.take 2)),
    nanosOf (cs.drop 2))

/-- The time of a text. -/
def ofText (s : String) : Int :=
  let (second, nanos) := readAt s.toList
  (second * 1000000000 + nanos : Nat) - (epoch : Int)

theorem field_digits {n width : Nat} (h : n < 10 ^ width) (separator : Char) (cs : List Char) :
    field width (digits n width ++ separator :: cs) = (n, cs) := by
  have hlength := length_digits n width
  rw [field, List.take_left' hlength, number_digits, Nat.mod_eq_of_lt h, ← List.drop_drop,
    List.drop_left' hlength]
  rfl

theorem nanosOf_fraction {nanos : Nat} (h : nanos < 1000000000) :
    nanosOf (fraction nanos ++ utc) = nanos := by
  rcases fraction_cases nanos with ⟨rfl, htext⟩ | ⟨-, width, low, n, hwidth, hn, htext⟩
  · rw [htext]
    rfl
  · have hdecimals : (digits n width ++ utc).takeWhile Char.isDigit = digits n width := by
      rw [List.takeWhile_append_of_pos fun _ hc => isDigit_of_mem hc]
      simp [utc]
    have hpow : (10 : Nat) ^ width * 10 ^ low = 1000000000 := by rw [← Nat.pow_add, hwidth]
    have hfits : n < 10 ^ width := Nat.lt_of_mul_lt_mul_right (a := 10 ^ low) (by rw [← hn, hpow]; exact h)
    rw [htext, List.cons_append, nanosOf, hdecimals, number_digits, length_digits,
      Nat.mod_eq_of_lt hfits, ← hwidth, Nat.add_sub_cancel_left, ← hn]

theorem readAt_textAt {second nanos : Nat} (hsecond : second / 86400 < daysBeforeYear 10000)
    (hnanos : nanos < 1000000000) : readAt (textAt second nanos) = (second, nanos) := by
  obtain ⟨hyear, hmonth, hday, hhour, hminute, hsec⟩ := fields_lt hsecond
  have hdate := dayOf_date (second / 86400)
  have hlength := length_digits (second % 86400 % 60) 2
  simp only [readAt, textAt, field_digits hyear, field_digits hmonth, field_digits hday,
    field_digits hhour, field_digits hminute, List.take_left' hlength, List.drop_left' hlength,
    number_digits, Nat.mod_eq_of_lt hsec, nanosOf_fraction hnanos, Nat.add_sub_cancel]
  rw [hdate]
  refine Prod.ext ?_ rfl
  change second / 86400 * 86400 + _ = second
  omega

/-- A text says which time it is. -/
theorem ofText_text {t : Int} (ht : InYears t) : ofText (text t) = t := by
  have hread := readAt_textAt ht.second_lt (Nat.mod_lt (t + epoch).toNat (by decide))
  have hfirst := ht.1
  rw [ofText, text, String.toList_ofList, hread]
  dsimp only
  omega

end Rfc3339
