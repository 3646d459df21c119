import TableProfiling.Calendar.Instant
import TableProfiling.Proofs.Calendar.Date

namespace TableProfiling.Instant

-- Instants in the order of time. A leap second comes last in the second that it belongs to.
instance : LE Instant where
  le s t := s.seconds < t.seconds ∨ s.seconds = t.seconds ∧ s.nanos ≤ t.nanos

-- An instant is on a day of the calendar.
structure On (t : Instant) (d : Date) : Prop where
  valid : d.Valid
  start : (d.dayNumber - epoch) * 86400 ≤ t.seconds
  stop  : t.seconds < (d.dayNumber - epoch + 1) * 86400

variable {r s t : Instant} {d : Date}

theorem le_iff : s ≤ t ↔ s.seconds < t.seconds ∨ s.seconds = t.seconds ∧ s.nanos ≤ t.nanos :=
  .rfl

theorem le_refl (t : Instant) : t ≤ t :=
  .inr ⟨rfl, Nat.le_refl _⟩

theorem InRange.between (hr : r.InRange) (ht : t.InRange) (h₁ : r ≤ s) (h₂ : s ≤ t) :
    s.InRange := by
  simp only [le_iff, InRange] at *
  omega

theorem inRange?_eq_some_iff : t.inRange? = some s ↔ t = s ∧ s.InRange := by
  simp only [inRange?, Option.ite_none_right_eq_some, Option.some_inj]
  constructor
  · rintro ⟨h, rfl⟩
    exact ⟨rfl, h⟩
  · rintro ⟨rfl, h⟩
    exact ⟨h, rfl⟩

theorem on_date (t : Instant) : t.On t.date := by
  have number : t.date.dayNumber = t.seconds / 86400 + epoch := Date.dayNumber_ofDayNumber _
  exact ⟨Date.valid_ofDayNumber _, by omega, by omega⟩

theorem On.date_eq (h : t.On d) : t.date = d := by
  have ⟨_, start, stop⟩ := h
  have number : t.seconds / 86400 + epoch = d.dayNumber := by omega
  rw [date, number, Date.ofDayNumber_dayNumber h.valid]

-- The day, the time on it and the nanoseconds tell all of an instant.
theorem withDate_eq_iff (h : d.Valid) :
    t.withDate d = s ↔ s.On d ∧ s.secondOfDay = t.secondOfDay ∧ s.nanos = t.nanos := by
  constructor
  case mp =>
    rintro rfl
    refine ⟨⟨h, ?_, ?_⟩, ?_, rfl⟩ <;> simp only [withDate, secondOfDay] <;> omega
  case mpr =>
    rintro ⟨⟨_, start, stop⟩, time, nanos⟩
    obtain ⟨seconds, _⟩ := s
    simp only [withDate, secondOfDay, Instant.mk.injEq] at *
    exact ⟨by omega, nanos.symm⟩

theorem On.withDate_eq (h : t.On d) : t.withDate d = t :=
  (withDate_eq_iff h.valid).mpr ⟨h, rfl, rfl⟩

theorem On.inRange_iff (h : t.On d) : t.InRange ↔ firstYear ≤ d.year ∧ d.year ≤ lastYear := by
  have ⟨lower, upper⟩ := h.valid.dayNumber_bounds
  have ⟨_, start, stop⟩ := h
  simp only [InRange, firstSecond, lastSecond]
  constructor
  case mp =>
    rintro ⟨first, last⟩
    constructor <;> by_contra hy
    · have := Date.daysBeforeYear_mono (Int.add_one_le_of_lt <| Int.not_le.mp hy)
      omega
    · have := Date.daysBeforeYear_mono (Int.add_one_le_of_lt <| Int.not_le.mp hy)
      omega
  case mpr =>
    rintro ⟨first, last⟩
    have := Date.daysBeforeYear_mono first
    have := Date.daysBeforeYear_mono <| Int.add_le_add_right last 1
    omega

-- What is a number of seconds before an instant, in the calendar or not.
def before (t : Instant) (n : Nat) : Instant :=
  if n = 0 then t
  else if t.nanos < 1000000000 then ⟨t.seconds - n, t.nanos⟩
  else ⟨t.seconds + 1 - n, t.nanos - 1000000000⟩

theorem minusSeconds?_eq_some_iff : t.minusSeconds? n = some s ↔ t.before n = s ∧ s.InRange := by
  rw [←inRange?_eq_some_iff, minusSeconds?, before]
  split
  case isTrue => rfl
  split <;> rfl

theorem before_of_nanos_lt (h : t.nanos < 1000000000) (n : Nat) :
    t.before n = ⟨t.seconds - n, t.nanos⟩ := by
  simp only [before, h]
  split <;> simp [*]

theorem before_antitone (t : Instant) (h : m ≤ n) : t.before n ≤ t.before m := by
  by_cases hn : n = 0
  case pos =>
    obtain rfl : m = n := by omega
    exact le_refl _
  -- One second before a leap second is in the second that it follows, with the rest of the nanos.
  by_cases hm : m = 0 <;> by_cases ht : t.nanos < 1000000000
  all_goals
    simp only [le_iff, before, hm, hn, ht, ↓reduceIte]
    omega

theorem minusSeconds?_antitone (h : t.InRange) (hmn : m ≤ n) (hn : t.minusSeconds? n = some r) :
    ∃ s, t.minusSeconds? m = some s ∧ r ≤ s ∧ s ≤ t := by
  obtain ⟨rfl, hr⟩ := minusSeconds?_eq_some_iff.mp hn
  have later : t.before n ≤ t.before m := t.before_antitone hmn
  have earlier : t.before m ≤ t := t.before_antitone <| Nat.zero_le m
  exact ⟨_, minusSeconds?_eq_some_iff.mpr ⟨rfl, hr.between h later earlier⟩, later, earlier⟩

theorem minusMonths?_eq (h : t.InRange) (hd : t.On d) (n : Nat) :
    t.minusMonths? n =
      if firstYear ≤ (d.monthNumber - n) / 12 then some (t.withDate (d.inMonth (d.monthNumber - n)))
      else none := by
  rw [minusMonths?, hd.date_eq, Date.minusMonths_eq hd.valid.month_pos]
  by_cases hn : n = 0
  case pos =>
    have first : firstYear ≤ d.monthNumber / 12 := by
      have := hd.inRange_iff.mp h
      have := hd.valid.month_pos
      simp only [Date.monthNumber]
      omega
    simp [hn, first, Date.inMonth_monthNumber hd.valid, hd.withDate_eq]
  case neg =>
    simp only [hn, ↓reduceIte, Date.inMonth, ←Int.not_le, ite_not]

theorem minusMonths?_eq_some_iff (h : t.InRange) (hd : t.On d) : t.minusMonths? n = some s ↔
    firstYear ≤ (d.monthNumber - n) / 12 ∧ t.withDate (d.inMonth (d.monthNumber - n)) = s := by
  rw [minusMonths?_eq h hd]
  simp

theorem withDate_inMonth_mono (t : Instant) (h : 1 ≤ d.day) (hpq : p ≤ q) :
    t.withDate (d.inMonth p) ≤ t.withDate (d.inMonth q) := by
  cases Int.lt_or_eq_of_le hpq
  case inl hpq =>
    have days : (d.inMonth p).dayNumber < (d.inMonth q).dayNumber := by
      apply Date.dayNumber_lt_of_monthNumber_lt (Date.valid_inMonth h p) (Date.valid_inMonth h q)
      rwa [Date.monthNumber_inMonth, Date.monthNumber_inMonth]
    simp only [le_iff, withDate]
    omega
  case inr hpq =>
    rw [hpq]
    exact le_refl _

theorem minusMonths?_antitone (h : t.InRange) (hmn : m ≤ n) (hn : t.minusMonths? n = some r) :
    ∃ s, t.minusMonths? m = some s ∧ r ≤ s ∧ s ≤ t := by
  have hd := t.on_date
  have own : t.withDate (t.date.inMonth t.date.monthNumber) = t := by
    rw [Date.inMonth_monthNumber hd.valid, hd.withDate_eq]
  obtain ⟨first, rfl⟩ := (minusMonths?_eq_some_iff h hd).mp hn
  have later : t.date.monthNumber - n ≤ t.date.monthNumber - m := by omega
  refine ⟨_, (minusMonths?_eq_some_iff h hd).mpr ⟨by omega, rfl⟩, ?_, ?_⟩
  · exact t.withDate_inMonth_mono hd.valid.day_pos later
  · calc
      _ ≤ t.withDate (t.date.inMonth t.date.monthNumber) :=
        t.withDate_inMonth_mono hd.valid.day_pos <| Int.sub_le_self _ <| Int.natCast_nonneg m
      _ = t := own

end TableProfiling.Instant
