import TableProfiling.Proofs.Number.Order

namespace TableProfiling

-- How far two numbers are from each other.
def gap (u v : Nat) : Nat :=
  ((u : Int) - v).natAbs

-- A multiple of a number is the next one below another number, the next one above, or farther away.
theorem multiple_cases (a b k : Nat) :
    (k = a / b ∧ k * b = a / b * b) ∨ (k = a / b + 1 ∧ k * b = a / b * b + b) ∨
    (k < a / b ∧ k * b + b ≤ a / b * b) ∨ (a / b + 1 < k ∧ a / b * b + 2 * b ≤ k * b) := by
  rcases Nat.lt_trichotomy k (a / b) with h | h | h
  case inl =>
    have := Nat.mul_le_mul_right b h
    rw [Nat.succ_mul] at this
    omega
  case inr.inl => simp [h]
  case inr.inr =>
    by_cases next : k = a / b + 1
    case pos => simp [next, Nat.succ_mul]
    case neg =>
      have := Nat.mul_le_mul_right b (show a / b + 2 ≤ k by omega)
      rw [Nat.add_mul] at this
      omega

theorem gap_roundHalfEven (hb : 0 < b) (k : Nat) :
    gap (roundHalfEven a b * b) a ≤ gap (k * b) a ∧
    (k ≠ roundHalfEven a b → gap (k * b) a = gap (roundHalfEven a b * b) a →
      roundHalfEven a b % 2 = 0) := by
  have := Nat.div_add_mod' a b
  have := Nat.mod_lt a hb
  have := roundHalfEven_cases a b
  have := multiple_cases a b (roundHalfEven a b)
  have := multiple_cases a b k
  simp only [gap]
  omega

namespace Binary64

-- Of all doubles, the one with magnitude `m` is nearest to `a / b`, in units of `2 ^ -1074`.
structure IsNearest (a b m : Nat) : Prop where
  nearest : ∀ m', gap (unitsOf m * b) (scaled a) ≤ gap (unitsOf m' * b) (scaled a)
  even    : ∀ m', m' ≠ m → gap (unitsOf m' * b) (scaled a) = gap (unitsOf m * b) (scaled a) →
    m % 2 = 0

-- A significand that comes to be one bit too long carries into the exponent.
theorem unitsOf_rounded (hq : q ≤ 2 * hiddenBit) (hs : s = 0 ∨ hiddenBit ≤ q) :
    unitsOf (s * hiddenBit + q) = q <<< s := by
  by_cases carry : q = 2 * hiddenBit
  case pos =>
    have next : s * hiddenBit + q = (s + 1) * hiddenBit + hiddenBit := by
      simp only [hiddenBit] at *
      omega
    rw [next, unitsOf_significand Nat.le.refl (by decide), carry]
    exact Nat.shiftLeft_succ_inside hiddenBit s
  case neg =>
    by_cases least : hiddenBit ≤ q
    case pos => exact unitsOf_significand least (Nat.lt_of_le_of_ne hq carry) s
    case neg =>
      have hs := hs.resolve_right least
      rw [hs, Nat.zero_mul, Nat.zero_add, Nat.shiftLeft_zero]
      exact unitsOf_of_lt <| Nat.lt_of_not_le least

theorem unitsOf_multiple (h : s = 0 ∨ (s + 1) * hiddenBit ≤ m) : ∃ k, unitsOf m = k <<< s := by
  rcases h with rfl | h
  case inl => exact ⟨unitsOf m, Nat.shiftLeft_zero.symm⟩
  case inr =>
    have exponent := (Nat.le_div_iff_mul_le (by decide)).mpr h
    have shifts : m / hiddenBit - 1 - s + s = m / hiddenBit - 1 := by omega
    refine ⟨(hiddenBit + m % hiddenBit) <<< (m / hiddenBit - 1 - s), ?_⟩
    rw [←Nat.shiftLeft_add, shifts]
    exact unitsOf_of_le <| Nat.le_trans (Nat.le_mul_of_pos_left _ (by omega)) h

theorem shiftLeft_mul_comm (k s b : Nat) : k <<< s * b = k * b <<< s := by
  rw [Nat.shiftLeft_eq, Nat.shiftLeft_eq, Nat.mul_assoc, Nat.mul_comm b]

-- A double that is not a multiple of the last place that is kept has a lower exponent, and what is
-- rounded lies above all such doubles.
theorem multiple_or_below (hb : 0 < b) (hs : s = (scaled a / b).log2 - 52) (m : Nat) :
    (∃ k, unitsOf m * b = k * b <<< s) ∨
    unitsOf m * b < hiddenBit * b <<< s ∧ hiddenBit * b <<< s ≤ scaled a := by
  by_cases h : s = 0 ∨ (s + 1) * hiddenBit ≤ m
  case pos =>
    have ⟨k, hk⟩ := unitsOf_multiple h
    exact .inl ⟨k, hk ▸ shiftLeft_mul_comm ..⟩
  case neg =>
    rw [not_or, Nat.not_le, Nat.succ_mul] at h
    have below : unitsOf m < hiddenBit <<< s := by
      rw [←unitsOf_significand Nat.le.refl (by decide), ←Nat.not_le, unitsOf_le_iff]
      exact Nat.not_le_of_lt h.right
    refine .inr ⟨?_, hs ▸ hiddenBit_shift_le (by omega)⟩
    rw [←shiftLeft_mul_comm]
    exact Nat.mul_lt_mul_of_pos_right below hb

theorem nearestMagnitude_isNearest (hb : 0 < b) : IsNearest a b (nearestMagnitude a b) := by
  have ⟨s, hs⟩ : ∃ s, s = (scaled a / b).log2 - 52 := ⟨_, rfl⟩
  have ⟨q, hq⟩ : ∃ q, q = roundHalfEven (scaled a) (b <<< s) := ⟨_, rfl⟩
  have hn : nearestMagnitude a b = s * hiddenBit + q := by
    rw [nearestMagnitude, ←hs, hq]
  have least : s = 0 ∨ hiddenBit ≤ q := by
    by_cases exponent : 52 < (scaled a / b).log2
    case pos => exact .inr <| hq ▸ hs ▸ le_roundHalfEven_shift hb exponent
    case neg => exact .inl <| by omega
  have value : unitsOf (s * hiddenBit + q) * b = q * b <<< s := by
    rw [unitsOf_rounded (hq ▸ hs ▸ roundHalfEven_shift_le a b) least, shiftLeft_mul_comm]
  have positive : 0 < b <<< s := Nat.shiftLeft_pos_iff.mpr hb
  have rounded := gap_roundHalfEven (a := scaled a) positive
  rw [←hq] at rounded
  -- What lies below all multiples is farther away than the least of them, which is not nearer than
  -- the nearest one.
  have farther : ∀ m, unitsOf m * b < hiddenBit * b <<< s ∧ hiddenBit * b <<< s ≤ scaled a →
      gap (q * b <<< s) (scaled a) < gap (unitsOf m * b) (scaled a) := by
    rintro m ⟨below, above⟩
    have := rounded hiddenBit |>.left
    simp only [gap] at *
    omega
  rw [hn]
  constructor
  case nearest =>
    intro m
    rw [value]
    rcases multiple_or_below hb hs m with ⟨k, hk⟩ | h
    case inl => exact hk ▸ (rounded k).left
    case inr => exact Nat.le_of_lt <| farther m h
  case even =>
    intro m hm tie
    rw [value] at tie
    rcases multiple_or_below hb hs m with ⟨k, hk⟩ | h
    case inr => exact absurd tie <| Nat.ne_of_gt <| farther m h
    case inl =>
      have other : k ≠ q := by
        rintro rfl
        have units := Nat.eq_of_mul_eq_mul_right hb <| hk.trans value.symm
        exact hm <| Nat.le_antisymm (unitsOf_le_iff.mp <| Nat.le_of_eq units)
          (unitsOf_le_iff.mp <| Nat.le_of_eq units.symm)
      have := (rounded k).right other <| hk ▸ tie
      simp only [hiddenBit]
      omega

variable {n : Int}

-- The distance of a double from an integer, in units of `2 ^ -1074`.
def distance (x : Binary64) (n : Int) : Nat :=
  (x.value - n * scaled 1).natAbs

-- A finite double has the value nearest to an integer. If another value is as near, the last bit of
-- the double is not set.
structure Rounds (x : Binary64) (n : Int) : Prop where
  finite  : x.isFinite = true
  nearest : ∀ y : Binary64, x.distance n ≤ y.distance n
  even    : ∀ y : Binary64, y.value ≠ x.value → y.distance n = x.distance n → x.magnitude % 2 = 0

theorem gap_le_distance (x : Binary64) (n : Int) :
    gap (unitsOf x.magnitude) (scaled n.natAbs) ≤ x.distance n := by
  have := natAbs_mul_scaled n
  have := natAbs_value x
  simp only [gap, distance]
  omega

-- Zero is a double, so that no integer is rounded to the other side of it.
theorem distance_ofInt (h : n.natAbs < 2 ^ 64) :
    (ofInt n).distance n = gap (unitsOf (ofInt n).magnitude) (scaled n.natAbs) := by
  have zero : (0 : Int).natAbs = unitsOf 0 := (unitsOf_of_lt (by decide)).symm
  have negative := value_ofInt_le h zero
  have positive := le_value_ofInt h zero
  have := natAbs_mul_scaled n
  have := natAbs_value (ofInt n)
  simp only [gap, distance]
  omega

theorem ofInt_rounds (h : n.natAbs < 2 ^ 64) : (ofInt n).Rounds n := by
  have rounded : IsNearest n.natAbs 1 (ofInt n).magnitude := by
    rw [ofInt, magnitude_ofMagnitude <| Nat.lt_trans (nearestMagnitude_lt h) (by decide)]
    exact nearestMagnitude_isNearest Nat.one_pos
  refine ⟨isFinite_ofInt h, ?nearest, ?even⟩
  case nearest =>
    intro y
    have := rounded.nearest y.magnitude
    rw [Nat.mul_one, Nat.mul_one] at this
    rw [distance_ofInt h]
    exact Nat.le_trans this <| gap_le_distance y n
  case even =>
    intro y hv tie
    have zero := rounded.nearest 0
    have least := rounded.nearest y.magnitude
    simp only [Nat.mul_one, unitsOf_of_lt (show 0 < hiddenBit by decide)] at zero least
    -- Two doubles of one magnitude are opposite, and equally near to zero only. But zero is a double.
    have apart : y.magnitude ≠ (ofInt n).magnitude := by
      intro hm
      have := hm ▸ natAbs_value y
      have := natAbs_value (ofInt n)
      have := natAbs_mul_scaled n
      simp only [gap, distance] at *
      omega
    have equal : gap (unitsOf y.magnitude) (scaled n.natAbs) =
        gap (unitsOf (ofInt n).magnitude) (scaled n.natAbs) := by
      have := gap_le_distance y n
      have := distance_ofInt h
      omega
    exact rounded.even y.magnitude apart <| by rwa [Nat.mul_one, Nat.mul_one]

end Binary64
end TableProfiling
