import Mathlib.Algebra.Order.Field.Rat
import Mathlib.Data.Rat.Cast.Order
import Mathlib.Order.Compare
import Mathlib.Order.WithBot
import TableProfiling.Proofs.Metric.Compare
import TableProfiling.Proofs.Number.Rounding

namespace TableProfiling

-- Numbers as they are, between two infinities.
abbrev Exact := WithBot (WithTop ℚ)

namespace Exact

def ofInt (n : Int) : Exact :=
  ((n : ℚ) : WithTop ℚ)

-- The number that some units of `2 ^ -1074` amount to.
def ofUnits (v : Int) : Exact :=
  ((v / Binary64.scaled 1 : ℚ) : WithTop ℚ)

theorem scaled_pos : (0 : ℚ) < Binary64.scaled 1 := by
  exact_mod_cast Binary64.scaled_pos

theorem ofUnits_lt {u v : Int} (h : u < v) : ofUnits u < ofUnits v := by
  apply WithBot.coe_lt_coe.mpr <| WithTop.coe_lt_coe.mpr _
  exact (div_lt_div_iff_of_pos_right scaled_pos).mpr <| Int.cast_lt.mpr h

theorem cmp_ofUnits (u v : Int) : cmp (ofUnits u) (ofUnits v) = cmp u v := by
  rcases Int.lt_trichotomy u v with h | rfl | h
  case inl     => exact (cmp_eq_lt_iff ..).mpr (ofUnits_lt h) |>.trans ((cmp_eq_lt_iff ..).mpr h).symm
  case inr.inl => exact cmp_self_eq_eq _ |>.trans (cmp_self_eq_eq _).symm
  case inr.inr => exact (cmp_eq_gt_iff ..).mpr (ofUnits_lt h) |>.trans ((cmp_eq_gt_iff ..).mpr h).symm

theorem ofInt_eq (n : Int) : ofInt n = ofUnits (n * Binary64.scaled 1) := by
  have units : (n : ℚ) = (n * Binary64.scaled 1 : Int) / Binary64.scaled 1 := by
    push_cast
    exact (mul_div_cancel_right₀ _ scaled_pos.ne').symm
  rw [ofInt, ofUnits, ←units]

end Exact

namespace Binary64

variable {n : Int} {x : Binary64}

-- The number that a double stands for.
def exact (x : Binary64) : Exact :=
  if x.isInfinite then if x.isNegative then ⊥ else ⊤ else .ofUnits x.value

-- The infinities are far from all integers of 64 bits.
theorem scaled_lt_infinite (h : a < 2 ^ 64) : scaled a < unitsOf infiniteMagnitude :=
  Nat.lt_of_not_le fun hu => Nat.not_le_of_lt (nearestMagnitude_lt h) <| le_nearestMagnitude hu

theorem value_of_infinite (h : x.isInfinite) :
    x.value = if x.isNegative then -(unitsOf infiniteMagnitude : Int)
      else unitsOf infiniteMagnitude := by
  have magnitude : x.magnitude = infiniteMagnitude := by simpa [isInfinite] using h
  rw [value, units, magnitude]

-- An integer and a double are in the order of their values in units.
theorem cmp_exact (h : n.natAbs < 2 ^ 64) :
    cmp (.ofInt n) x.exact = cmp (n * scaled 1) x.value := by
  by_cases hx : x.isInfinite
  case pos =>
    have bound : (n * scaled 1).natAbs < unitsOf infiniteMagnitude := by
      rw [natAbs_mul_scaled]
      exact scaled_lt_infinite h
    rw [exact, if_pos hx, value_of_infinite hx]
    cases x.isNegative
    case false =>
      have above : n * scaled 1 < unitsOf infiniteMagnitude := by omega
      exact (cmp_eq_lt_iff ..).mpr (WithBot.coe_lt_coe.mpr <| WithTop.coe_lt_top _) |>.trans <|
        ((cmp_eq_lt_iff ..).mpr above).symm
    case true =>
      have below : -(unitsOf infiniteMagnitude : Int) < n * scaled 1 := by omega
      exact (cmp_eq_gt_iff ..).mpr (WithBot.bot_lt_coe _) |>.trans <|
        ((cmp_eq_gt_iff ..).mpr below).symm
  case neg =>
    rw [exact, if_neg hx, Exact.ofInt_eq]
    exact Exact.cmp_ofUnits ..

end Binary64

namespace Metric

variable {n : Int64} {x : Binary64}

-- An order that two numbers are said to be in. They may be said to be equal when they are not.
structure Uninverted (o : Option Ordering) (a b : Exact) : Prop where
  ordered : ∃ r, o = some r
  less    : o = some .lt → a < b
  greater : o = some .gt → b < a

-- The integer would be rounded to the other side of the double.
theorem lt_of_value_lt (h : (Binary64.ofInt n.toInt).value < x.value) :
    .ofInt n.toInt < x.exact := by
  rw [←cmp_eq_lt_iff, Binary64.cmp_exact <| natAbs_toInt_lt n, cmp_eq_lt_iff]
  apply Int.lt_of_not_ge
  intro hx
  exact Int.not_le_of_gt h <| Binary64.le_value_ofInt (natAbs_toInt_lt n) x.natAbs_value hx

theorem lt_of_lt_value (h : x.value < (Binary64.ofInt n.toInt).value) :
    x.exact < .ofInt n.toInt := by
  rw [←cmp_eq_gt_iff, Binary64.cmp_exact <| natAbs_toInt_lt n, cmp_eq_gt_iff]
  apply Int.lt_of_not_ge
  intro hx
  exact Int.not_le_of_gt h <| Binary64.value_ofInt_le (natAbs_toInt_lt n) x.natAbs_value hx

theorem value_eq_iff (h : n.toInt.natAbs ≤ 2 ^ 53) :
    (Binary64.ofInt n.toInt).value = x.value ↔ .ofInt n.toInt = x.exact := by
  rw [Binary64.value_ofInt_exact h, ←cmp_eq_eq_iff, ←Binary64.cmp_exact <| natAbs_toInt_lt n,
    cmp_eq_eq_iff]

-- As the integer is rounded first, the two may count as equal where they are not; but they never
-- compare the wrong way round.
theorem mixed_uninverted (h : x.isNaN = false) :
    (∃ y, (long n).toBinary64? = some y ∧ y.Rounds n.toInt) ∧
    Uninverted ((long n).compare? (double x)) (.ofInt n.toInt) x.exact ∧
    Uninverted ((double x).compare? (long n)) x.exact (.ofInt n.toInt) ∧
    (n.toInt.natAbs ≤ 2 ^ 53 →
      ((long n).compare? (double x) = some .eq ↔ .ofInt n.toInt = x.exact) ∧
      ((double x).compare? (long n) = some .eq ↔ x.exact = .ofInt n.toInt)) := by
  have values := value?_long n
  have values' := value?_double h
  rw [compare?_values values values' <| .inr ⟨x, rfl⟩, compare?_values values' values <| .inl ⟨x, rfl⟩]
  refine ⟨⟨_, rfl, Binary64.ofInt_rounds <| natAbs_toInt_lt n⟩, ?_, ?_, fun hn => ⟨?_, ?_⟩⟩
  · exact {
      ordered := ⟨_, rfl⟩
      less    := fun h => lt_of_value_lt <| compare_lt_iff_lt.mp <| Option.some.inj h
      greater := fun h => lt_of_lt_value <| compare_gt_iff_gt.mp <| Option.some.inj h }
  · exact {
      ordered := ⟨_, rfl⟩
      less    := fun h => lt_of_lt_value <| compare_lt_iff_lt.mp <| Option.some.inj h
      greater := fun h => lt_of_value_lt <| compare_gt_iff_gt.mp <| Option.some.inj h }
  · rw [←value_eq_iff hn, Option.some_inj, compare_eq_iff_eq]
  · rw [eq_comm (a := x.exact), ←value_eq_iff hn, Option.some_inj, compare_eq_iff_eq, eq_comm]

-- The integer is rounded down to `2 ^ 53` by one, the double is by one above it.
theorem mixed_uninverted_rounded :
    let n : Int64 := 9007199254740993
    let x : Binary64 := ⟨0x4340000000000001⟩
    x.isNaN = false ∧ (long n).compare? (double x) = some .lt ∧ .ofInt n.toInt < x.exact := by
  intro n x
  have number : x.isNaN = false := by decide
  have less : (long n).compare? (double x) = some .lt := by decide +kernel
  exact ⟨number, less, mixed_uninverted number |>.right.left.less less⟩

end Metric
end TableProfiling
