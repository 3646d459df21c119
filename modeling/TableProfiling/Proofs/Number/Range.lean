import TableProfiling.Proofs.Number.Decimal
import TableProfiling.Proofs.Number.Rounding

namespace TableProfiling

namespace Binary64

-- The middle between the largest finite double and the next power of two.
def limit : Nat :=
  2 ^ 1024 - 2 ^ 970

-- A tie would be between two doubles that are even, but there is an odd one between these.
theorem IsNearest.unique (hb : 0 < b) (h : IsNearest a b m) (h' : IsNearest a b m') : m = m' := by
  have lt_absurd {m m'} (h : IsNearest a b m) (h' : IsNearest a b m') : ¬m < m' := by
    intro hm
    have least := h.nearest m'
    have least' := h'.nearest m
    have even := h.even m' (Nat.ne_of_gt hm) (Nat.le_antisymm least' least)
    have even' := h'.even m (Nat.ne_of_lt hm) (Nat.le_antisymm least least')
    have between := h.nearest (m + 1)
    have below : unitsOf m * b < unitsOf (m + 1) * b := by
      apply Nat.mul_lt_mul_of_pos_right _ hb
      exact Nat.lt_of_not_le <| unitsOf_le_iff.not.mpr <| Nat.not_succ_le_self m
    have above : unitsOf (m + 1) * b < unitsOf m' * b := by
      apply Nat.mul_lt_mul_of_pos_right _ hb
      exact Nat.lt_of_not_le <| unitsOf_le_iff.not.mpr <| by omega
    simp only [gap] at *
    omega
  exact Nat.le_antisymm (Nat.le_of_not_lt <| lt_absurd h' h) (Nat.le_of_not_lt <| lt_absurd h h')

theorem scaled_limit :
    unitsOf (infiniteMagnitude - 1) + unitsOf infiniteMagnitude = 2 * scaled limit := by
  decide +kernel

theorem nearestMagnitude_limit : nearestMagnitude limit 1 = infiniteMagnitude := by
  decide +kernel

theorem nearestMagnitude_lt_iff (hb : 0 < b) :
    nearestMagnitude a b < infiniteMagnitude ↔ a < limit * b := by
  constructor
  case mp =>
    contrapose
    intro h
    rw [Nat.not_lt, ←nearestMagnitude_limit]
    exact nearestMagnitude_mono Nat.one_pos hb <| by rwa [Nat.mul_one, ←Nat.not_lt]
  case mpr =>
    intro h
    -- The largest finite double is nearer than all infinite values.
    by_contra infinite
    have nearest := (nearestMagnitude_isNearest (a := a) hb).nearest (infiniteMagnitude - 1)
    have beyond := Nat.mul_le_mul_right b <| unitsOf_le_iff.mpr <| Nat.not_lt.mp infinite
    have apart : unitsOf (infiniteMagnitude - 1) * b < unitsOf infiniteMagnitude * b :=
      Nat.mul_lt_mul_of_pos_right (by decide +kernel) hb
    have middle := congrArg (· * b) scaled_limit
    have below : scaled a < scaled limit * b := by
      rw [scaled_eq a, scaled_eq limit, Nat.mul_right_comm]
      exact Nat.mul_lt_mul_of_pos_right h scaled_pos
    simp only [Nat.add_mul, Nat.mul_assoc] at middle
    simp only [gap] at nearest
    omega

theorem nearestMagnitude_eq_zero (h : 2 * scaled a < b) : nearestMagnitude a b = 0 := by
  have quotient : scaled a / b = 0 := Nat.div_eq_of_lt (by omega)
  have remainder : scaled a % b = scaled a := Nat.mod_eq_of_lt (by omega)
  simp [nearestMagnitude, roundHalfEven, quotient, remainder, h]

end Binary64

namespace Decimal

open Binary64

variable {d : Decimal}

-- The value of a decimal as a quotient.
def numerator (d : Decimal) : Nat :=
  d.coefficient * tenTo d.exponent.toNat

def denominator (d : Decimal) : Nat :=
  tenTo (-d.exponent).toNat

-- A decimal is out of range from the middle between the largest finite double and the next power of
-- two on.
def InRange (d : Decimal) : Prop :=
  d.numerator < limit * d.denominator

theorem denominator_pos (d : Decimal) : 0 < d.denominator :=
  tenTo_pos

theorem tenTo_mono (h : m ≤ n) : tenTo m ≤ tenTo n :=
  Nat.pow_le_pow_right (by decide) h

theorem digits_pos (d : Decimal) : 0 < d.digits.length :=
  List.length_pos_iff.mpr Nat.toDigits_ne_nil

theorem coefficient_lt_iff (hc : d.coefficient ≠ 0) (n : Nat) :
    d.coefficient < tenTo n ↔ d.digits.length ≤ n := by
  cases n
  case zero =>
    have := d.digits_pos
    rw [tenTo_zero]
    omega
  case succ n => exact (Nat.length_toDigits_le_iff (by decide) n.succ_pos).symm

theorem limit_le (hc : d.coefficient ≠ 0) (h : 310 ≤ d.ceiling) :
    limit * d.denominator ≤ d.numerator := by
  have ⟨n, hn⟩ := Nat.exists_eq_succ_of_ne_zero <| Nat.ne_of_gt d.digits_pos
  have digits : tenTo n ≤ d.coefficient :=
    Nat.not_lt.mp <| coefficient_lt_iff hc n |>.not.mpr <| by omega
  have exponents : 309 + (-d.exponent).toNat ≤ n + d.exponent.toNat := by
    simp only [ceiling] at h
    omega
  calc limit * d.denominator
    _ ≤ tenTo 309 * d.denominator := Nat.mul_le_mul_right _ (by decide +kernel)
    _ = tenTo (309 + (-d.exponent).toNat) := tenTo_add.symm
    _ ≤ tenTo (n + d.exponent.toNat) := tenTo_mono exponents
    _ = tenTo n * tenTo d.exponent.toNat := tenTo_add
    _ ≤ d.numerator := Nat.mul_le_mul_right _ digits

theorem scaled_lt (hc : d.coefficient ≠ 0) (h : d.ceiling ≤ -324) :
    2 * scaled d.numerator < d.denominator := by
  have digits : d.coefficient < tenTo d.digits.length :=
    coefficient_lt_iff hc _ |>.mpr <| Nat.le_refl _
  have exponents : d.digits.length + d.exponent.toNat + 324 ≤ (-d.exponent).toNat := by
    simp only [ceiling] at h
    omega
  have small : 2 * scaled 1 ≤ tenTo 324 := by decide +kernel
  calc 2 * scaled d.numerator
    _ = d.numerator * (2 * scaled 1) := by rw [scaled_eq, Nat.mul_left_comm]
    _ ≤ d.numerator * tenTo 324 := Nat.mul_le_mul_left _ small
    _ < tenTo d.digits.length * tenTo d.exponent.toNat * tenTo 324 :=
      Nat.mul_lt_mul_of_pos_right (Nat.mul_lt_mul_of_pos_right digits tenTo_pos) tenTo_pos
    _ = tenTo (d.digits.length + d.exponent.toNat + 324) := by rw [tenTo_add, tenTo_add]
    _ ≤ d.denominator := tenTo_mono exponents

theorem inRange_iff : d.InRange ↔ nearestMagnitude d.numerator d.denominator < infiniteMagnitude :=
  (nearestMagnitude_lt_iff d.denominator_pos).symm

-- The shortcuts for very large and very small decimals do not matter.
theorem magnitude_cases (d : Decimal) :
    d.magnitude = nearestMagnitude d.numerator d.denominator ∨
    d.magnitude = infiniteMagnitude ∧ limit * d.denominator ≤ d.numerator := by
  rw [magnitude_eq]
  split_ifs
  case pos hc =>
    left
    rw [nearestMagnitude_eq_zero]
    rw [numerator, hc, Nat.zero_mul]
    exact d.denominator_pos
  case pos hc h      => exact .inr ⟨rfl, limit_le hc h⟩
  case pos hc _ h    => exact .inl <| .symm <| nearestMagnitude_eq_zero <| scaled_lt hc h
  case neg           => exact .inl rfl

theorem magnitude_lt_iff : d.magnitude < infiniteMagnitude ↔ d.InRange := by
  rcases d.magnitude_cases with h | ⟨h, beyond⟩
  case inl => rw [h, inRange_iff]
  case inr => simp [h, InRange, beyond]

theorem magnitude_isNearest (h : d.InRange) : IsNearest d.numerator d.denominator d.magnitude := by
  rcases d.magnitude_cases with hd | ⟨_, beyond⟩
  case inl => exact hd ▸ nearestMagnitude_isNearest d.denominator_pos
  case inr => exact absurd h <| Nat.not_lt_of_le beyond

end Decimal
end TableProfiling
