import Mathlib.Data.Nat.Log
import TableProfiling.Proofs.Number.Nearest

namespace TableProfiling

-- Of two numbers with the same integer part, the larger one has the larger remainder.
theorem roundHalfEven_mono_left (h : a ≤ c) : roundHalfEven a b ≤ roundHalfEven c b := by
  have quotients := Nat.div_le_div_right (c := b) h
  by_cases hq : a / b = c / b
  case neg =>
    have := roundHalfEven_le a b
    have := le_roundHalfEven c b
    omega
  case pos =>
    have ha := Nat.div_add_mod a b
    have hc := Nat.div_add_mod c b
    rw [hq] at ha
    have remainders : a % b ≤ c % b := by omega
    simp only [roundHalfEven, hq]
    split_ifs <;> omega

theorem roundHalfEven_mono (hb : 0 < b) (hd : 0 < d) (h : a * d ≤ c * b) :
    roundHalfEven a b ≤ roundHalfEven c d := by
  rw [←roundHalfEven_mul_right hd, ←roundHalfEven_mul_right (a := c) hb, Nat.mul_comm d b]
  exact roundHalfEven_mono_left h

namespace Binary64

variable {n : Int} {x : Binary64}

theorem scaled_mul_le (h : a * d ≤ c * b) : scaled a * d ≤ scaled c * b := by
  have := Nat.mul_le_mul_right (scaled 1) h
  rw [scaled_eq a, scaled_eq c, Nat.mul_right_comm, Nat.mul_right_comm c]
  exact this

-- Where a shift is needed at all, it leaves the leading bit of what is rounded in the place of the
-- hidden bit.
theorem hiddenBit_shift_le (h : 52 < (scaled a / b).log2) :
    hiddenBit * b <<< ((scaled a / b).log2 - 52) ≤ scaled a := by
  have hq : scaled a / b ≠ 0 := by
    intro hq
    simp [hq] at h
  have exponent : 52 + ((scaled a / b).log2 - 52) = (scaled a / b).log2 := by omega
  have power : hiddenBit = 2 ^ 52 := by decide
  rw [Nat.shiftLeft_eq, Nat.mul_comm b, ←Nat.mul_assoc, power, ←Nat.pow_add, exponent]
  exact Nat.le_trans (Nat.mul_le_mul_right _ <| Nat.log2_self_le hq) <| Nat.div_mul_le_self ..

theorem le_roundHalfEven_shift (hb : 0 < b) (h : 52 < (scaled a / b).log2) :
    hiddenBit ≤ roundHalfEven (scaled a) (b <<< ((scaled a / b).log2 - 52)) :=
  Nat.le_trans ((Nat.le_div_iff_mul_le <| Nat.shiftLeft_pos_iff.mpr hb).mpr <| hiddenBit_shift_le h)
    (le_roundHalfEven ..)

theorem nearestMagnitude_mono (hb : 0 < b) (hd : 0 < d) (h : a * d ≤ c * b) :
    nearestMagnitude a b ≤ nearestMagnitude c d := by
  have quotients : scaled a / b ≤ scaled c / d := by
    rw [←Nat.mul_div_mul_right _ _ hd, ←Nat.mul_div_mul_right (scaled c) _ hb, Nat.mul_comm d b]
    exact Nat.div_le_div_right <| scaled_mul_le h
  have shifts := Nat.log_mono_right (b := 2) quotients
  rw [←Nat.log2_eq_log_two, ←Nat.log2_eq_log_two] at shifts
  by_cases hs : (scaled a / b).log2 - 52 = (scaled c / d).log2 - 52
  case pos =>
    simp only [nearestMagnitude, hs]
    apply Nat.add_le_add_left
    refine roundHalfEven_mono (Nat.shiftLeft_pos_iff.mpr hb) (Nat.shiftLeft_pos_iff.mpr hd) ?_
    rw [Nat.shiftLeft_eq, Nat.shiftLeft_eq, ←Nat.mul_assoc, ←Nat.mul_assoc]
    exact Nat.mul_le_mul_right _ <| scaled_mul_le h
  case neg =>
    -- A larger exponent makes up for what a significand can come to.
    have below := roundHalfEven_shift_le a b
    have above := le_roundHalfEven_shift (a := c) hd (by omega)
    simp only [nearestMagnitude, hiddenBit] at *
    omega

theorem nearestMagnitude_le (h : scaled a ≤ unitsOf m) : nearestMagnitude a 1 ≤ m := by
  rw [←nearestMagnitude_unitsOf m]
  refine nearestMagnitude_mono Nat.one_pos scaled_pos ?_
  rwa [←scaled_eq, Nat.mul_one]

theorem le_nearestMagnitude (h : unitsOf m ≤ scaled a) : m ≤ nearestMagnitude a 1 := by
  rw [←nearestMagnitude_unitsOf m]
  refine nearestMagnitude_mono scaled_pos Nat.one_pos ?_
  rwa [←scaled_eq, Nat.mul_one]

-- As a double is nearest to its own value, the order of values is that of magnitudes.
theorem unitsOf_le_iff : unitsOf m ≤ unitsOf m' ↔ m ≤ m' := by
  have mono : ∀ {m m'}, unitsOf m ≤ unitsOf m' → m ≤ m' := by
    intro m m' h
    rw [←nearestMagnitude_unitsOf m, ←nearestMagnitude_unitsOf m']
    exact nearestMagnitude_mono scaled_pos scaled_pos <| Nat.mul_le_mul_right _ h
  constructor
  case mp => exact mono
  case mpr =>
    intro h
    rcases Nat.le_total (unitsOf m) (unitsOf m') with hm | hm
    case inl => exact hm
    case inr => rw [Nat.le_antisymm h <| mono hm]

theorem isNegative_ofMagnitude (h : m < signBit) (negative : Bool) :
    (ofMagnitude negative m).isNegative = negative := by
  cases negative <;> simp [ofMagnitude, isNegative, signBit] at h ⊢ <;> omega

theorem value_ofMagnitude (h : m < signBit) (negative : Bool) :
    (ofMagnitude negative m).value = if negative then -(unitsOf m : Int) else unitsOf m := by
  rw [value, isNegative_ofMagnitude h, units, magnitude_ofMagnitude h]

-- The value that an integer comes to when it is rounded.
theorem value_ofInt (h : n.natAbs < 2 ^ 64) :
    (ofInt n).value =
      if n < 0 then -(unitsOf (nearestMagnitude n.natAbs 1) : Int)
      else unitsOf (nearestMagnitude n.natAbs 1) := by
  have below := nearestMagnitude_lt h
  simp [ofInt, value_ofMagnitude (Nat.lt_trans below (by decide))]

theorem natAbs_mul_scaled (n : Int) : (n * scaled 1).natAbs = scaled n.natAbs := by
  rw [Int.natAbs_mul, Int.natAbs_natCast, ←scaled_eq]

theorem value_ofInt_neg (h : n.natAbs < 2 ^ 64) : (ofInt (-n)).value = -(ofInt n).value := by
  have zero : nearestMagnitude 0 1 = 0 := by decide +kernel
  rw [value_ofInt h, value_ofInt (by rwa [Int.natAbs_neg]), Int.natAbs_neg]
  rcases Int.lt_trichotomy n 0 with hn | rfl | hn
  case inl     => simp [hn, show ¬0 < n by omega]
  case inr.inl => simp [zero, unitsOf_of_lt]
  case inr.inr => simp [hn, show ¬n < 0 by omega]

-- An integer is not rounded up beyond a double above it, whichever sign they have.
theorem value_ofInt_le {v : Int} (h : n.natAbs < 2 ^ 64) (hm : v.natAbs = unitsOf m)
    (hv : n * scaled 1 ≤ v) : (ofInt n).value ≤ v := by
  have magnitude := natAbs_mul_scaled n
  rw [value_ofInt h]
  split
  case isTrue hn =>
    have negative : n * scaled 1 < 0 := Int.mul_neg_of_neg_of_pos hn <| by exact_mod_cast scaled_pos
    by_cases positive : 0 ≤ v
    case pos => omega
    case neg =>
      have := unitsOf_le_iff.mpr <| le_nearestMagnitude (a := n.natAbs) (m := m) (by omega)
      omega
  case isFalse hn =>
    have positive : 0 ≤ n * scaled 1 := Int.mul_nonneg (Int.not_lt.mp hn) <| Int.natCast_nonneg _
    have := unitsOf_le_iff.mpr <| nearestMagnitude_le (a := n.natAbs) (m := m) (by omega)
    omega

theorem le_value_ofInt {v : Int} (h : n.natAbs < 2 ^ 64) (hm : v.natAbs = unitsOf m)
    (hv : v ≤ n * scaled 1) : v ≤ (ofInt n).value := by
  have opposite := value_ofInt_le (n := -n) (v := -v) (m := m) (by rwa [Int.natAbs_neg])
    (by rwa [Int.natAbs_neg]) (by rw [Int.neg_mul]; exact Int.neg_le_neg hv)
  rw [value_ofInt_neg h] at opposite
  exact Int.neg_le_neg_iff.mp opposite

theorem natAbs_value (x : Binary64) : x.value.natAbs = unitsOf x.magnitude := by
  rw [value, units]
  split <;> simp

theorem value_ofInt_mono (h : n.natAbs < 2 ^ 64) (h' : n'.natAbs < 2 ^ 64) (hn : n ≤ n') :
    (ofInt n).value ≤ (ofInt n').value := by
  have nearest : ∀ a a', a ≤ a' →
      unitsOf (nearestMagnitude a 1) ≤ unitsOf (nearestMagnitude a' 1) := fun _ _ h =>
    unitsOf_le_iff.mpr <| nearestMagnitude_mono Nat.one_pos Nat.one_pos <| Nat.mul_le_mul_right _ h
  rw [value_ofInt h, value_ofInt h']
  split <;> split
  case isTrue.isTrue =>
    have := nearest n'.natAbs n.natAbs (by omega)
    omega
  case isFalse.isFalse =>
    have := nearest n.natAbs n'.natAbs (by omega)
    omega
  all_goals omega

theorem unitsOf_significand (hq : hiddenBit ≤ q) (hq' : q < 2 * hiddenBit) (s : Nat) :
    unitsOf (s * hiddenBit + q) = q <<< s := by
  have fraction : q / hiddenBit = 1 := by
    simp only [hiddenBit] at *
    omega
  have hs : (s * hiddenBit + q) / hiddenBit = s + 1 := by
    rw [Nat.mul_comm, Nat.mul_add_div (by decide), fraction]
  have hr : hiddenBit + (s * hiddenBit + q) % hiddenBit = q := by
    rw [Nat.mul_add_mod_self_right]
    simp only [hiddenBit] at *
    omega
  rw [unitsOf_of_le <| Nat.le_add_left_of_le hq, hs, hr, Nat.add_sub_cancel]

-- What has at most 53 bits is the value of a double, and so is the first number that has more.
theorem exists_unitsOf (h : a ≤ 2 ^ 53) : ∃ m, unitsOf m = scaled a := by
  by_cases ha : a = 0
  case pos =>
    refine ⟨0, ?_⟩
    rw [unitsOf_of_lt (by decide), scaled_eq, ha, Nat.zero_mul]
  case neg =>
    by_cases limit : a = 2 ^ 53
    case pos =>
      have doubled : a = 2 * hiddenBit := limit.trans (by decide)
      refine ⟨(1074 + 1) * hiddenBit + hiddenBit, ?_⟩
      rw [unitsOf_significand Nat.le.refl (by decide), doubled]
      exact Nat.shiftLeft_succ_inside hiddenBit 1074
    case neg =>
      have bits : a.log2 < 53 := (Nat.log2_lt ha).mpr <| Nat.lt_of_le_of_ne h limit
      have ⟨q, hq⟩ : ∃ q, q = a <<< (52 - a.log2) := ⟨_, rfl⟩
      have leading : q.log2 = 52 := by
        rw [hq, log2_shiftLeft ha]
        omega
      have positive : 0 < q := hq ▸ Nat.shiftLeft_pos_iff.mpr (Nat.pos_of_ne_zero ha)
      have least : hiddenBit ≤ q := by
        have := Nat.log2_self_le <| Nat.ne_of_gt positive
        rwa [leading] at this
      have most : q < 2 * hiddenBit := by
        have := q.lt_log2_self
        rwa [leading] at this
      have shifts : 52 - a.log2 + (a.log2 + 1022) = 1074 := by omega
      refine ⟨(a.log2 + 1022) * hiddenBit + q, ?_⟩
      rw [unitsOf_significand least most, hq, ←Nat.shiftLeft_add, shifts]
      rfl

theorem value_ofInt_exact (h : n.natAbs ≤ 2 ^ 53) : (ofInt n).value = n * scaled 1 := by
  have ⟨m, hm⟩ := exists_unitsOf h
  have hn : n.natAbs < 2 ^ 64 := Nat.lt_of_le_of_lt h (by decide)
  have magnitude : (n * scaled 1).natAbs = unitsOf m := (natAbs_mul_scaled n).trans hm.symm
  exact Int.le_antisymm (value_ofInt_le hn magnitude <| Int.le_refl _)
    (le_value_ofInt hn magnitude <| Int.le_refl _)

end Binary64
end TableProfiling
