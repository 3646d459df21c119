import Mathlib.Algebra.Ring.Nat
import Mathlib.Tactic.Common
import TableProfiling.Number.Nearest

namespace TableProfiling

theorem shiftLeft_mul (a k n : Nat) : (a * k) <<< n = a <<< n * k := by
  rw [Nat.shiftLeft_eq, Nat.shiftLeft_eq, Nat.mul_right_comm]

theorem log2_shiftLeft (h : a ≠ 0) (n : Nat) : (a <<< n).log2 = a.log2 + n := by
  induction n
  case zero => simp
  case succ n hi =>
    have positive : 0 < a <<< n := Nat.shiftLeft_pos_iff.mpr <| Nat.pos_of_ne_zero h
    rw [Nat.shiftLeft_succ, Nat.log2_two_mul (Nat.ne_of_gt positive), hi, Nat.add_assoc]

theorem roundHalfEven_mul_right (hk : 0 < k) :
    roundHalfEven (a * k) (b * k) = roundHalfEven a b := by
  have below : 2 * (a % b * k) < b * k ↔ 2 * (a % b) < b := by
    rw [←Nat.mul_assoc, Nat.mul_lt_mul_right hk]
  have above : b * k < 2 * (a % b * k) ↔ b < 2 * (a % b) := by
    rw [←Nat.mul_assoc, Nat.mul_lt_mul_right hk]
  simp only [roundHalfEven, Nat.mul_div_mul_right _ _ hk, Nat.mul_mod_mul_right, below, above]

theorem roundHalfEven_mul_self (hb : 0 < b) : roundHalfEven (a * b) b = a := by
  have h := roundHalfEven_mul_right (a := a) (b := 1) hb
  rwa [Nat.one_mul, roundHalfEven_one] at h

-- Down, up, or, from the middle between two numbers, to the even one of them.
theorem roundHalfEven_cases (a b : Nat) :
    (roundHalfEven a b = a / b ∧ 2 * (a % b) < b) ∨
    (roundHalfEven a b = a / b + 1 ∧ b < 2 * (a % b)) ∨
    (roundHalfEven a b % 2 = 0 ∧ 2 * (a % b) = b) ∧
      (roundHalfEven a b = a / b ∨ roundHalfEven a b = a / b + 1) := by
  simp only [roundHalfEven]
  split_ifs <;> omega

theorem roundHalfEven_le (a b : Nat) : roundHalfEven a b ≤ a / b + 1 := by
  have := roundHalfEven_cases a b
  omega

theorem le_roundHalfEven (a b : Nat) : a / b ≤ roundHalfEven a b := by
  have := roundHalfEven_cases a b
  omega

namespace Binary64

theorem scaled_mul (a k : Nat) : scaled (a * k) = scaled a * k :=
  shiftLeft_mul a k _

theorem scaled_eq (a : Nat) : scaled a = a * scaled 1 := by
  rw [Nat.mul_comm, ←scaled_mul, Nat.one_mul]

theorem scaled_pos : 0 < scaled 1 :=
  Nat.shiftLeft_pos_iff.mpr Nat.one_pos

theorem nearestMagnitude_mul_right (hk : 0 < k) :
    nearestMagnitude (a * k) (b * k) = nearestMagnitude a b := by
  simp only [nearestMagnitude, scaled_mul, Nat.mul_div_mul_right _ _ hk, shiftLeft_mul,
    roundHalfEven_mul_right hk]

-- Quotients of the same value have the same nearest double.
theorem nearestMagnitude_congr (hb : 0 < b) (hd : 0 < d) (h : a * d = c * b) :
    nearestMagnitude a b = nearestMagnitude c d := by
  rw [←nearestMagnitude_mul_right hd, h, Nat.mul_comm b d, nearestMagnitude_mul_right hb]

theorem unitsOf_of_lt (h : m < hiddenBit) : unitsOf m = m :=
  if_pos h

theorem unitsOf_of_le (h : hiddenBit ≤ m) :
    unitsOf m = (hiddenBit + m % hiddenBit) <<< (m / hiddenBit - 1) :=
  if_neg <| Nat.not_lt_of_le h

-- Of the value of a double, the shift that leaves 53 bits is the one that the exponent has made.
theorem log2_unitsOf (m : Nat) : (unitsOf m).log2 - 52 = m / hiddenBit - 1 := by
  by_cases h : m < hiddenBit
  case pos =>
    rw [unitsOf_of_lt h, Nat.div_eq_of_lt h]
    by_cases hm : m = 0
    case pos => simp [hm]
    case neg =>
      have : m.log2 < 52 := (Nat.log2_lt hm).mpr h
      omega
  case neg =>
    have hr : m % hiddenBit < hiddenBit := Nat.mod_lt _ (by decide)
    have leading : (hiddenBit + m % hiddenBit).log2 = 52 := by
      apply (Nat.log2_eq_iff <| Nat.ne_of_gt <| Nat.add_pos_left (by decide) _).mpr
      simp only [hiddenBit] at hr ⊢
      omega
    rw [unitsOf_of_le <| Nat.le_of_not_lt h, log2_shiftLeft (by omega), leading]
    exact Nat.add_sub_cancel_left ..

theorem unitsOf_pos (h : 0 < m) : 0 < unitsOf m := by
  by_cases hm : m < hiddenBit
  case pos => rwa [unitsOf_of_lt hm]
  case neg =>
    rw [unitsOf_of_le <| Nat.le_of_not_lt hm]
    exact Nat.shiftLeft_pos_iff.mpr <| Nat.add_pos_left (by decide) _

theorem unitsOf_lt (m : Nat) : unitsOf m < 2 ^ (53 + (m / hiddenBit - 1)) := by
  by_cases hm : m = 0
  case pos =>
    rw [hm, unitsOf_of_lt (by decide)]
    exact Nat.two_pow_pos _
  case neg =>
    have hu := Nat.ne_of_gt <| unitsOf_pos <| Nat.pos_of_ne_zero hm
    have := log2_unitsOf m
    exact (Nat.log2_lt hu).mp (by omega)

-- A value of a double needs no rounding, and shift and value add up to the magnitude.
theorem nearestMagnitude_unitsOf (m : Nat) : nearestMagnitude (unitsOf m) (scaled 1) = m := by
  have quotient : scaled (unitsOf m) / scaled 1 = unitsOf m := by
    rw [scaled_eq, Nat.mul_div_cancel _ scaled_pos]
  rw [nearestMagnitude, quotient, log2_unitsOf]
  by_cases h : m < hiddenBit
  case pos =>
    rw [unitsOf_of_lt h, Nat.div_eq_of_lt h, scaled_eq, Nat.shiftLeft_zero,
      roundHalfEven_mul_self scaled_pos]
    exact Nat.zero_add m
  case neg =>
    have h := Nat.le_of_not_lt h
    have hs : 0 < scaled 1 <<< (m / hiddenBit - 1) := Nat.shiftLeft_pos_iff.mpr scaled_pos
    have value : scaled (unitsOf m) =
        (hiddenBit + m % hiddenBit) * scaled 1 <<< (m / hiddenBit - 1) := by
      rw [scaled_eq, unitsOf_of_le h, Nat.shiftLeft_eq, Nat.shiftLeft_eq]
      exact Nat.mul_right_comm .. |>.trans <| Nat.mul_assoc ..
    rw [value, roundHalfEven_mul_self hs]
    have := Nat.div_add_mod m hiddenBit
    have := Nat.div_le_div_right (c := hiddenBit) h
    simp [hiddenBit] at *
    omega

-- The shift leaves 53 bits, and rounding adds no more than one.
theorem roundHalfEven_shift_le (a b : Nat) :
    roundHalfEven (scaled a) (b <<< ((scaled a / b).log2 - 52)) ≤ 2 * hiddenBit := by
  have ⟨s, hs⟩ : ∃ s, s = (scaled a / b).log2 - 52 := ⟨_, rfl⟩
  have bits : scaled a / b < 2 ^ s * 2 ^ 53 := by
    rw [←Nat.pow_add]
    exact Nat.lt_of_lt_of_le Nat.lt_log2_self <| Nat.pow_le_pow_right (by decide) (by omega)
  have quotient : scaled a / (b <<< s) < 2 ^ 53 := by
    rw [Nat.shiftLeft_eq, ←Nat.div_div_eq_div_mul]
    exact Nat.div_lt_of_lt_mul bits
  have rounded := roundHalfEven_le (scaled a) (b <<< s)
  rw [←hs, hiddenBit]
  omega

theorem nearestMagnitude_one_le (h : a ≠ 0) :
    nearestMagnitude a 1 ≤ (a.log2 + 1024) * hiddenBit := by
  have log2 : (scaled a).log2 = a.log2 + 1074 := log2_shiftLeft h _
  have significand := roundHalfEven_shift_le a 1
  simp only [nearestMagnitude, Nat.div_one, log2, hiddenBit] at *
  omega

theorem magnitude_ofMagnitude (h : m < signBit) (negative : Bool) :
    (ofMagnitude negative m).magnitude = m := by
  cases negative <;> simp [ofMagnitude, magnitude, signBit] at h ⊢ <;> omega

-- The infinities are far from all integers of 64 bits.
theorem nearestMagnitude_lt (h : a < 2 ^ 64) : nearestMagnitude a 1 < infiniteMagnitude := by
  by_cases ha : a = 0
  case pos =>
    rw [ha]
    decide +kernel
  case neg =>
    have := nearestMagnitude_one_le ha
    have := Nat.log2_lt ha |>.mpr h
    simp only [hiddenBit, infiniteMagnitude] at *
    omega

theorem isFinite_ofInt (h : n.natAbs < 2 ^ 64) : (ofInt n).isFinite := by
  have below := nearestMagnitude_lt h
  have := magnitude_ofMagnitude (Nat.lt_trans below (by decide)) (n < 0)
  rw [isFinite, ofInt, this]
  exact decide_eq_true below

end TableProfiling.Binary64
