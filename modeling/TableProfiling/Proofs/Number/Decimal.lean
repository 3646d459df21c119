import Mathlib.Tactic.Common
import TableProfiling.Number.Shortest
import TableProfiling.Proofs.Number.Nearest

namespace TableProfiling

theorem tenTo_zero : tenTo 0 = 1 :=
  rfl

theorem tenTo_add : tenTo (m + n) = tenTo m * tenTo n :=
  Nat.pow_add ..

theorem tenTo_pos : 0 < tenTo n :=
  Nat.pow_pos (by decide)

theorem toDigits_mul_tenTo (hn : 0 < n) (k : Nat) :
    Nat.toDigits 10 (n * tenTo k) = Nat.toDigits 10 n ++ List.replicate k '0' := by
  induction k
  case zero => simp [tenTo_zero]
  case succ k hi =>
    have hk : 0 < n * tenTo k := Nat.mul_pos hn tenTo_pos
    have h := Nat.toDigits_append_toDigits (b := 10) (d := 0) (by decide) hk (by decide)
    rw [Nat.toDigits_zero, Nat.add_zero, hi] at h
    rw [tenTo_add, ←Nat.mul_assoc, Nat.mul_comm, List.replicate_succ', ←List.append_assoc, h]
    rfl

namespace Decimal

variable {d : Decimal}

-- The same number, with some zeros at the end of its digits.
def extend (d : Decimal) (k : Nat) : Decimal where
  coefficient := d.coefficient * tenTo k
  exponent := d.exponent - k

theorem ceiling_extend (h : d.coefficient ≠ 0) (k : Nat) : (d.extend k).ceiling = d.ceiling := by
  have hd : (d.extend k).digits = d.digits ++ List.replicate k '0' :=
    toDigits_mul_tenTo (Nat.pos_of_ne_zero h) k
  have he : (d.extend k).exponent = d.exponent - k := rfl
  rw [ceiling, ceiling, hd, he, List.length_append, List.length_replicate]
  omega

-- One quotient stands for exponents of either sign.
theorem magnitude_eq (d : Decimal) :
    d.magnitude =
      if d.coefficient = 0 then 0
      else if 310 ≤ d.ceiling then Binary64.infiniteMagnitude
      else if d.ceiling ≤ -324 then 0
      else Binary64.nearestMagnitude (d.coefficient * tenTo d.exponent.toNat)
        (tenTo (-d.exponent).toNat) := by
  by_cases he : 0 ≤ d.exponent
  case pos =>
    rw [magnitude, if_pos he, Int.toNat_of_nonpos (by omega : -d.exponent ≤ 0), tenTo_zero]
  case neg =>
    have ha : d.exponent.natAbs = (-d.exponent).toNat := by omega
    rw [magnitude, if_neg he, Int.toNat_of_nonpos (by omega : d.exponent ≤ 0), tenTo_zero,
      Nat.mul_one, ha]

theorem magnitude_extend (d : Decimal) (k : Nat) : (d.extend k).magnitude = d.magnitude := by
  by_cases hc : d.coefficient = 0
  case pos => simp [magnitude, extend, hc]
  case neg =>
    have hc' : (d.extend k).coefficient ≠ 0 := Nat.mul_ne_zero hc <| Nat.ne_of_gt tenTo_pos
    have value : Binary64.nearestMagnitude
        ((d.extend k).coefficient * tenTo (d.extend k).exponent.toNat)
        (tenTo (-(d.extend k).exponent).toNat) =
        Binary64.nearestMagnitude (d.coefficient * tenTo d.exponent.toNat)
          (tenTo (-d.exponent).toNat) := by
      refine Binary64.nearestMagnitude_congr tenTo_pos tenTo_pos ?_
      simp only [extend, Nat.mul_assoc, ←tenTo_add]
      congr 2
      omega
    rw [magnitude_eq, magnitude_eq, if_neg hc, if_neg hc', ceiling_extend hc, value]

theorem ofUnits_ne_zero (h : 0 < u) (k : Nat) : (ofUnits u k).coefficient ≠ 0 :=
  Nat.ne_of_gt <| Nat.mul_pos h <| Nat.pow_pos (by decide)

theorem ceiling_ofUnits {k a b : Nat} (hu : 0 < u) (hl : u < 2 ^ n) (ha : 0 < a) (hb : 0 < b)
    (least : 10 ^ a ≤ Nat.pow 5 k) (most : 2 ^ n * Nat.pow 5 k ≤ 10 ^ b) :
    a - k < (ofUnits u k).ceiling ∧ (ofUnits u k).ceiling ≤ b - k := by
  have above : 10 ^ a ≤ u * Nat.pow 5 k :=
    Nat.le_trans least <| Nat.le_mul_of_pos_left _ hu
  have below : u * Nat.pow 5 k < 10 ^ b :=
    Nat.lt_of_lt_of_le (Nat.mul_lt_mul_of_pos_right hl <| Nat.pow_pos (by decide)) most
  have ha := Nat.length_toDigits_le_iff (b := 10) (by decide) ha
    |>.not.mpr <| Nat.not_lt_of_le above
  have hb := Nat.length_toDigits_le_iff (b := 10) (by decide) hb |>.mpr below
  have hc : (ofUnits u k).ceiling = (Nat.toDigits 10 (u * Nat.pow 5 k)).length + (-k : Int) := rfl
  omega

theorem magnitude_ofUnits_zero (k : Nat) : (ofUnits 0 k).magnitude = 0 := by
  rw [magnitude_eq]
  exact if_pos <| Nat.zero_mul _

-- Ten to the power of `k` is two to that power as often as the digits have been multiplied by five.
theorem magnitude_ofUnits (hu : 0 < u) (hg : -324 < (ofUnits u k).ceiling)
    (hl : (ofUnits u k).ceiling < 310) :
    (ofUnits u k).magnitude = Binary64.nearestMagnitude u (1 <<< k) := by
  have tens : tenTo k = 1 <<< k * Nat.pow 5 k := by
    rw [Nat.one_shiftLeft]
    exact Nat.mul_pow 2 5 k
  have hc : (ofUnits u k).coefficient = u * Nat.pow 5 k := rfl
  have he : (ofUnits u k).exponent = -k := rfl
  rw [magnitude_eq, if_neg <| ofUnits_ne_zero hu k, if_neg (by omega), if_neg (by omega), he,
    Int.neg_neg, Int.toNat_natCast, Int.toNat_of_nonpos (by omega), tenTo_zero, Nat.mul_one, hc,
    tens]
  exact Binary64.nearestMagnitude_mul_right <| Nat.pow_pos (by decide)

-- A finite double is less than `10 ^ 309`, and the least one above zero is more than `10 ^ -324`.
theorem ceiling_exact (h : m < Binary64.infiniteMagnitude) (hm : 0 < m) :
    -324 < (exact m).ceiling ∧ (exact m).ceiling ≤ 309 := by
  have hs : 53 + (m / Binary64.hiddenBit - 1) ≤ 2098 := by
    simp only [Binary64.infiniteMagnitude, Binary64.hiddenBit] at *
    omega
  have hp := Nat.pow_le_pow_right (n := 2) Nat.two_pos hs
  exact ceiling_ofUnits (a := 750) (b := 1383) (k := 1074) (Binary64.unitsOf_pos hm)
    (Binary64.unitsOf_lt m) (by decide) (by decide) (by decide +kernel)
    (Nat.le_trans (Nat.mul_le_mul_right _ hp) <| by decide +kernel)

theorem exact_readsAs (h : m < Binary64.infiniteMagnitude) : ReadsAs (exact m) m := by
  by_cases hm : m = 0
  case pos =>
    rw [ReadsAs, exact, hm, Binary64.unitsOf_of_lt (by decide), magnitude_ofUnits_zero]
  case neg =>
    have hm := Nat.pos_of_ne_zero hm
    have ⟨hg, hl⟩ := ceiling_exact h hm
    rw [ReadsAs, exact, magnitude_ofUnits (Binary64.unitsOf_pos hm) hg (Int.lt_add_one_of_le hl)]
    exact Binary64.nearestMagnitude_unitsOf m

theorem shortest_readsAs (h : m < Binary64.infiniteMagnitude) (tie : Tie) :
    ReadsAs (shortest tie m) m := by
  rw [shortest]
  cases hs : (List.range 17).findSome? _
  case none => exact exact_readsAs h
  case some d =>
    have ⟨_, _, hd⟩ := List.exists_of_findSome?_eq_some hs
    exact readsAs_of_onGrid? hd

end TableProfiling.Decimal
