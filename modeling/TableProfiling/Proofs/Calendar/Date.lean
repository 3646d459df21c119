import Mathlib.Algebra.Order.BigOperators.Group.List
import Mathlib.Algebra.Order.Ring.Nat
import Mathlib.Data.List.GetD
import Mathlib.Tactic.Common
import TableProfiling.Calendar.Date

namespace TableProfiling.Date

-- The month is one of its year, and the day is one of its month.
structure Valid (d : Date) : Prop where
  month_pos : 1 ≤ d.month
  month_le  : d.month ≤ 12
  day_pos   : 1 ≤ d.day
  day_le    : d.day ≤ daysInMonth d.year d.month

-- The months from the first one of the year 0 to that of a date.
def monthNumber (d : Date) : Int :=
  12 * d.year + (d.month - 1)

-- The same day of another month, or the last day of that month if it has fewer days.
def inMonth (d : Date) (q : Int) : Date where
  year := q / 12
  month := (q % 12).toNat + 1
  day := min d.day (daysInMonth (q / 12) ((q % 12).toNat + 1))

variable {d e : Date}

def daysInYear (y : Int) : Nat :=
  if isLeapYear y then 366 else 365

theorem sum_monthLengths (y : Int) : (monthLengths y).sum = daysInYear y := by
  cases h : isLeapYear y <;> simp [monthLengths, daysInYear, h]

theorem le_of_mem_monthLengths (h : l ∈ monthLengths y) : 28 ≤ l := by
  cases hy : isLeapYear y <;> simp [monthLengths, hy] at h <;> omega

section Offset

-- A day of a year as the lengths of the months before its own one, and the days before it there.
variable {ls : List Nat}

theorem offset_lt_take (h : j < ls.getD k 0) (hk : k < k') :
    (ls.take k).sum + j < (ls.take k').sum := by
  -- Both counts go down with the list, so that the earlier one is what gets to zero.
  induction ls generalizing k k'
  case nil => simp at h
  case cons l ls hi =>
    cases k' <;> cases k
    case succ.zero   => simp at h ⊢; omega
    case succ.succ   =>
      have := hi (by simpa using h) (Nat.lt_of_succ_lt_succ hk)
      simp
      omega
    all_goals contradiction

theorem offset_lt_sum (h : j < ls.getD k 0) : (ls.take k).sum + j < ls.sum :=
  calc
    (ls.take k).sum + j
    _ < (ls.take (k + 1)).sum := offset_lt_take h <| Nat.lt_succ_self k
    _ ≤ ls.sum                := (List.take_sublist _ _).sum_le_sum <| by simp

theorem monthOf_offset (h : j < ls.getD k 0) :
    monthOf ls ((ls.take k).sum + j) = (k + 1, j + 1) := by
  induction ls generalizing k
  case nil => simp at h
  case cons l ls hi =>
    cases k
    case zero   => simp_all [monthOf]
    case succ k =>
      have later : ¬(l + (ls.take k).sum + j < l) := by omega
      have rest : l + (ls.take k).sum + j - l = (ls.take k).sum + j := by omega
      have hi := hi (k := k) <| by simpa using h
      simp [monthOf, later, rest, hi]

theorem exists_offset (h : n < ls.sum) : ∃ k j, j < ls.getD k 0 ∧ (ls.take k).sum + j = n := by
  induction ls generalizing n
  case nil => simp at h
  case cons l ls hi =>
    by_cases hn : n < l
    case pos => exact ⟨0, n, by simpa using hn, by simp⟩
    case neg =>
      have ⟨k, j, hj, hk⟩ := hi (n := n - l) <| by simp at h; omega
      exact ⟨k + 1, j, by simpa using hj, by simp; omega⟩

end Offset

theorem daysBeforeYear_succ (y : Int) :
    daysBeforeYear (y + 1) = daysBeforeYear y + daysInYear y := by
  simp only [daysBeforeYear, daysInYear, isLeapYear, Bool.and_eq_true, Bool.or_eq_true,
    decide_eq_true_eq]
  split <;> omega

theorem daysBeforeYear_mono (h : y ≤ z) : daysBeforeYear y ≤ daysBeforeYear z := by
  simp only [daysBeforeYear]
  omega

-- The estimate misses the year by one at most.
theorem yearOf_bounds (n : Int) :
    daysBeforeYear (yearOf n) ≤ n ∧ n < daysBeforeYear (yearOf n + 1) := by
  have lower : daysBeforeYear (400 * n / 146097 + 1 - 1) ≤ n := by
    simp only [daysBeforeYear]
    omega
  have upper : n < daysBeforeYear (400 * n / 146097 + 1 + 1 + 1) := by
    simp only [daysBeforeYear]
    omega
  rw [yearOf]
  split
  case isTrue h => exact ⟨lower, by rwa [Int.sub_add_cancel]⟩
  split
  case isTrue h  => exact ⟨h, upper⟩
  case isFalse h => exact ⟨Int.not_lt.mp ‹_›, Int.not_le.mp h⟩

theorem yearOf_eq (h : daysBeforeYear y ≤ n) (h' : n < daysBeforeYear (y + 1)) : yearOf n = y := by
  have ⟨lower, upper⟩ := yearOf_bounds n
  have le {y z : Int} (hy : daysBeforeYear y ≤ n) (hz : n < daysBeforeYear (z + 1)) : y ≤ z := by
    by_contra hc
    exact Int.not_le.mpr (Int.lt_of_le_of_lt hy hz) <| daysBeforeYear_mono <| by omega
  exact Int.le_antisymm (le lower h') (le h upper)

theorem Valid.exists_offset (h : d.Valid) : ∃ y k j,
    k < 12 ∧ j < (monthLengths y).getD k 0 ∧ d = { year := y, month := k + 1, day := j + 1 } := by
  obtain ⟨y, m, n⟩ := d
  have ⟨month_pos, month_le, day_pos, day_le⟩ := h
  obtain ⟨k, rfl⟩ := Nat.exists_eq_add_of_le' month_pos
  obtain ⟨j, rfl⟩ := Nat.exists_eq_add_of_le' day_pos
  exact ⟨y, k, j, month_le, day_le, rfl⟩

theorem valid_offset (h : j < (monthLengths y).getD k 0) :
    Valid { year := y, month := k + 1, day := j + 1 } where
  month_pos := by simp
  month_le  := by
    have hk : k < (monthLengths y).length := by
      by_contra hk
      rw [List.getD_eq_default _ _ (Nat.not_lt.mp hk)] at h
      contradiction
    exact hk
  day_pos   := by simp
  day_le    := h

theorem dayNumber_offset (y : Int) (k j : Nat) :
    dayNumber { year := y, month := k + 1, day := j + 1 } =
      daysBeforeYear y + (((monthLengths y).take k).sum + j : Nat) := by
  have before : daysBeforeMonth y (k + 1) = ((monthLengths y).take k).sum := rfl
  simp only [dayNumber, before]
  omega

theorem Valid.dayNumber_bounds (h : d.Valid) :
    daysBeforeYear d.year ≤ d.dayNumber ∧ d.dayNumber < daysBeforeYear (d.year + 1) := by
  obtain ⟨y, k, j, _, hj, rfl⟩ := h.exists_offset
  have within := offset_lt_sum hj
  rw [sum_monthLengths] at within
  simp only [dayNumber_offset, daysBeforeYear_succ]
  omega

theorem ofDayNumber_dayNumber (h : d.Valid) : ofDayNumber d.dayNumber = d := by
  have ⟨lower, upper⟩ := h.dayNumber_bounds
  have year : yearOf d.dayNumber = d.year := yearOf_eq lower upper
  obtain ⟨y, k, j, _, hj, rfl⟩ := h.exists_offset
  have days (n : Nat) : (daysBeforeYear y + n - daysBeforeYear y).toNat = n := by omega
  rw [ofDayNumber, year, dayNumber_offset]
  simp only [days, monthOf_offset hj]

theorem exists_dayNumber_eq (n : Int) : ∃ d : Date, d.Valid ∧ d.dayNumber = n := by
  have ⟨lower, upper⟩ := yearOf_bounds n
  rw [daysBeforeYear_succ, ←sum_monthLengths] at upper
  have within : (n - daysBeforeYear (yearOf n)).toNat < (monthLengths (yearOf n)).sum := by omega
  have ⟨k, j, hj, hn⟩ := exists_offset within
  refine ⟨_, valid_offset hj, ?_⟩
  rw [dayNumber_offset, hn]
  omega

theorem valid_ofDayNumber (n : Int) : (ofDayNumber n).Valid := by
  obtain ⟨d, hd, rfl⟩ := exists_dayNumber_eq n
  rwa [ofDayNumber_dayNumber hd]

theorem dayNumber_ofDayNumber (n : Int) : (ofDayNumber n).dayNumber = n := by
  obtain ⟨d, hd, rfl⟩ := exists_dayNumber_eq n
  rw [ofDayNumber_dayNumber hd]

theorem dayNumber_lt_of_monthNumber_lt (hd : d.Valid) (he : e.Valid)
    (h : d.monthNumber < e.monthNumber) : d.dayNumber < e.dayNumber := by
  have below := hd.dayNumber_bounds.right
  have above := he.dayNumber_bounds.left
  obtain ⟨y, k, j, hk, hj, rfl⟩ := hd.exists_offset
  obtain ⟨y', k', j', hk', -, rfl⟩ := he.exists_offset
  -- In another year all days are later. In the same one it takes the lengths of the months.
  have : y < y' ∨ y = y' ∧ k < k' := by
    simp only [monthNumber] at h
    omega
  rcases this with hy | ⟨rfl, hk⟩
  · have := daysBeforeYear_mono (Int.add_one_le_of_lt hy)
    exact Int.lt_of_lt_of_le below <| Int.le_trans this above
  · have := offset_lt_take hj hk
    rw [dayNumber_offset, dayNumber_offset]
    omega

theorem monthNumber_inMonth (d : Date) (q : Int) : (d.inMonth q).monthNumber = q := by
  simp only [inMonth, monthNumber]
  omega

theorem valid_inMonth (h : 1 ≤ d.day) (q : Int) : (d.inMonth q).Valid where
  month_pos := by simp [inMonth]
  month_le  := by simp [inMonth]; omega
  day_pos   := by
    have hk : (q % 12).toNat < 12 := by omega
    have : 28 ≤ daysInMonth (q / 12) ((q % 12).toNat + 1) := by
      rw [daysInMonth, Nat.add_sub_cancel, List.getD_eq_getElem _ _ hk]
      exact le_of_mem_monthLengths <| List.getElem_mem _
    simp only [inMonth]
    omega
  day_le    := by simp [inMonth]

theorem inMonth_monthNumber (h : d.Valid) : d.inMonth d.monthNumber = d := by
  have shortest := h.day_le
  obtain ⟨y, k, j, hk, -, rfl⟩ := h.exists_offset
  have year : (12 * y + (↑(k + 1) - 1)) / 12 = y := by omega
  have month : ((12 * y + (↑(k + 1) - 1)) % 12).toNat = k := by omega
  simp only [inMonth, monthNumber, year, month, Nat.min_eq_left shortest]

theorem minusMonths_eq (h : 1 ≤ d.month) (n : Nat) :
    d.minusMonths n = d.inMonth (d.monthNumber - n) := by
  have number : 12 * d.year + ↑(d.month - 1) - n = d.monthNumber - n := by
    simp only [monthNumber]
    omega
  simp only [minusMonths, inMonth, number]

end TableProfiling.Date
