import Mathlib.Algebra.Ring.Nat

/-!
# Numbers as bytes

A number of a fixed width, the most significant byte first, as network
protocols write it.
-/

namespace BigEndian

/-- The number that some bytes spell. -/
def value : List UInt8 → Nat
  | [] => 0
  | b :: rest => b.toNat * 256 ^ rest.length + value rest

/-- The low `width` bytes of a number. -/
def bytes : (width n : Nat) → List UInt8
  | 0, _ => []
  | width + 1, n => UInt8.ofNat (n / 256 ^ width) :: bytes width n

@[simp] theorem length_bytes (width n : Nat) : (bytes width n).length = width := by
  induction width with
  | zero => rfl
  | succ width ih => rw [bytes, List.length_cons, ih]

/-- What is written is read back, up to what the width can hold. -/
theorem value_bytes (width n : Nat) : value (bytes width n) = n % 256 ^ width := by
  induction width with
  | zero => rw [Nat.pow_zero, Nat.mod_one]; rfl
  | succ width ih =>
    have hdigits : n % 256 ^ (width + 1) = n % 256 ^ width + 256 ^ width * (n / 256 ^ width % 256) := by
      rw [Nat.pow_succ, Nat.mod_mul]
    rw [bytes, value, length_bytes, ih, UInt8.toNat_ofNat', hdigits, Nat.mul_comm, Nat.add_comm]

/-- A number that fits is read back. -/
theorem value_bytes_of_lt {width n : Nat} (h : n < 256 ^ width) : value (bytes width n) = n := by
  rw [value_bytes, Nat.mod_eq_of_lt h]

/-- The bytes say no more than the width can hold. -/
theorem bytes_add_mul (width k n : Nat) : bytes width (k * 256 ^ width + n) = bytes width n := by
  induction width generalizing k with
  | zero => rfl
  | succ width ih =>
    have hshift : k * 256 ^ (width + 1) = k * 256 * 256 ^ width := by
      rw [Nat.pow_succ, Nat.mul_comm (256 ^ width), Nat.mul_assoc]
    have hhigh : (k * 256 * 256 ^ width + n) / 256 ^ width = n / 256 ^ width + k * 256 := by
      rw [Nat.add_comm, Nat.add_mul_div_right _ _ (Nat.pow_pos (by decide))]
    have hbyte : UInt8.ofNat (n / 256 ^ width + k * 256) = UInt8.ofNat (n / 256 ^ width) := by
      apply UInt8.toNat_inj.mp
      rw [UInt8.toNat_ofNat', UInt8.toNat_ofNat']
      omega
    rw [bytes, bytes, hshift, ih, hhigh, hbyte]

theorem value_lt (l : List UInt8) : value l < 256 ^ l.length := by
  induction l with
  | nil => exact Nat.one_pos
  | cons b l ih =>
    have hb : b.toNat + 1 ≤ 256 := b.toNat_lt
    calc value (b :: l) < b.toNat * 256 ^ l.length + 256 ^ l.length := Nat.add_lt_add_left ih _
      _ = (b.toNat + 1) * 256 ^ l.length := (Nat.succ_mul _ _).symm
      _ ≤ 256 * 256 ^ l.length := Nat.mul_le_mul_right _ hb
      _ = 256 ^ (l.length + 1) := by rw [Nat.pow_succ, Nat.mul_comm]

/-- A number that some bytes spell is written with these bytes. -/
theorem bytes_value (l : List UInt8) : bytes l.length (value l) = l := by
  induction l with
  | nil => rfl
  | cons b l ih =>
    have hhigh : (b.toNat * 256 ^ l.length + value l) / 256 ^ l.length = b.toNat := by
      rw [Nat.add_comm, Nat.add_mul_div_right _ _ (Nat.pow_pos (by decide)),
        Nat.div_eq_of_lt (value_lt l), Nat.zero_add]
    rw [List.length_cons, bytes, value, hhigh, UInt8.ofNat_toNat, bytes_add_mul, ih]

end BigEndian
