import TableProfiling.Proofs.Calendar.Instant
import TableProfiling.Scan.Filter

namespace TableProfiling.Filter

theorem span?_mul (n : UInt32) (h : m ≤ 86400) : span? (n.toNat * m) = some (n.toNat * m) := by
  have longest : n.toNat * m ≤ (2 ^ 32 - 1) * 86400 :=
    Nat.mul_le_mul (Nat.le_pred_of_lt n.toNat_lt) h
  have words : Int64.maxValue.toInt = 2 ^ 63 - 1 := rfl
  rw [span?, if_pos (by omega)]

theorem windowStart_hour (column : String) (n : UInt32) (now : Instant) :
    windowStart (.timeWindow column .hour n) now = now.minusSeconds? (n.toNat * 3600) := by
  rw [windowStart, windowStart?, span?_mul n (by decide), Option.map_some, Option.join_some]

theorem windowStart_day (column : String) (n : UInt32) (now : Instant) :
    windowStart (.timeWindow column .day n) now = now.minusSeconds? (n.toNat * 86400) := by
  rw [windowStart, windowStart?, span?_mul n (by decide), Option.map_some, Option.join_some]

-- No number of hours or days is so great that the program would stop.
theorem windowStart?_eq (f : Filter) (now : Instant) :
    f.windowStart? now = some (f.windowStart now) := by
  cases f
  case timeWindow column unit n =>
    cases unit
    case hour => rw [windowStart_hour, windowStart?, span?_mul n (by decide), Option.map_some]
    case day  => rw [windowStart_day, windowStart?, span?_mul n (by decide), Option.map_some]
    all_goals rfl
  all_goals rfl

variable {now : Instant} {d : Date}

-- Years that are too many to be counted in months lead out of the calendar.
theorem windowStart_year (h : now.InRange) (column : String) (n : UInt32) :
    windowStart (.timeWindow column .year n) now = now.minusMonths? (12 * n.toNat) := by
  simp only [windowStart, windowStart?, monthsOfYears?]
  split
  case isTrue => rfl
  case isFalse hn =>
    have hd := now.on_date
    have early : ¬Instant.firstYear ≤ (now.date.monthNumber - (12 * n.toNat : Nat)) / 12 := by
      have := hd.inRange_iff.mp h
      have := hd.valid.month_le
      simp only [Date.monthNumber, Instant.firstYear, Instant.lastYear] at *
      omega
    rw [Instant.minusMonths?_eq h hd, if_neg early]
    rfl

-- A window starts in a month on the same day of it, or on its last day if it has fewer days, and at
-- the same time of the day. It has a start if the calendar has the year of the month.
structure StartsIn (now : Instant) (d : Date) (q : Int) (start : Option Instant) : Prop where
  exists_iff : (∃ t, start = some t) ↔ -262143 ≤ q / 12
  start_iff  : -262143 ≤ q / 12 → ∀ t, start = some t ↔
    t.On (d.inMonth q) ∧ t.secondOfDay = now.secondOfDay ∧ t.nanos = now.nanos

theorem startsIn_minusMonths (h : now.InRange) (hd : now.On d) (n : Nat) :
    StartsIn now d (12 * d.year + (d.month - 1) - n) (now.minusMonths? n) := by
  have some_iff (t : Instant) := Instant.minusMonths?_eq_some_iff (s := t) (n := n) h hd
  constructor
  case exists_iff =>
    simp only [some_iff, exists_and_left, exists_eq', and_true]
    rfl
  case start_iff =>
    intro first t
    rw [some_iff, ←Instant.withDate_eq_iff (Date.valid_inMonth hd.valid.day_pos _)]
    exact and_iff_right first

theorem windowStart_antitone (now : Instant) (h : now.InRange) :
    (∀ f : Filter, f.windowStart? now = some (f.windowStart now)) ∧
    (∀ column unit, ∀ i j : UInt32, i ≤ j →
      ∀ t, windowStart (.timeWindow column unit j) now = some t →
        ∃ s, windowStart (.timeWindow column unit i) now = some s ∧ t ≤ s ∧ s ≤ now) ∧
    (∀ column vs, windowStart (.values column vs) now = none) ∧
    ∀ column first last, windowStart (.integerRange column first last) now = none := by
  refine ⟨(windowStart?_eq · now), ?_, fun _ _ => rfl, fun _ _ _ => rfl⟩
  intro column unit i j hij t ht
  have hij : i.toNat ≤ j.toNat := hij
  cases unit
  case hour  =>
    rw [windowStart_hour] at ht ⊢
    exact Instant.minusSeconds?_antitone h (Nat.mul_le_mul_right _ hij) ht
  case day   =>
    rw [windowStart_day] at ht ⊢
    exact Instant.minusSeconds?_antitone h (Nat.mul_le_mul_right _ hij) ht
  case month => exact Instant.minusMonths?_antitone h hij ht
  case year  =>
    rw [windowStart_year h] at ht ⊢
    exact Instant.minusMonths?_antitone h (Nat.mul_le_mul_left _ hij) ht

-- By the calendar alone, a window of months or years starts in the month that many months before.
theorem windowStart_calendar (now : Instant) (h : now.InRange) (hd : now.On d) (column : String)
    (n : UInt32) :
    StartsIn now d (12 * d.year + (d.month - 1) - n.toNat)
      (windowStart (.timeWindow column .month n) now) ∧
    StartsIn now d (12 * d.year + (d.month - 1) - 12 * n.toNat)
      (windowStart (.timeWindow column .year n) now) ∧
    (∀ m : UInt32, m.toNat = 12 * n.toNat →
      windowStart (.timeWindow column .year n) now =
        windowStart (.timeWindow column .month m) now) ∧
    (now.nanos < 1000000000 → ∀ t,
      (windowStart (.timeWindow column .hour n) now = some t ↔
        ⟨now.seconds - n.toNat * 3600, now.nanos⟩ = t ∧ t.InRange) ∧
      (windowStart (.timeWindow column .day n) now = some t ↔
        ⟨now.seconds - n.toNat * 86400, now.nanos⟩ = t ∧ t.InRange)) := by
  have year := windowStart_year h column n
  refine ⟨startsIn_minusMonths h hd _, ?_, ?_, ?_⟩
  · rw [year]
    exact startsIn_minusMonths h hd _
  · intro m hm
    rw [year, ←hm]
    rfl
  · intro leap t
    have seconds (k : Nat) :=
      Instant.minusSeconds?_eq_some_iff (t := now) (n := n.toNat * k) (s := t)
    simp only [Instant.before_of_nanos_lt leap, Int.natCast_mul] at seconds
    rw [windowStart_hour, windowStart_day]
    exact ⟨seconds 3600, seconds 86400⟩

theorem windowStart_antitone_leap :
    let now : Instant := ⟨1483228799, 1500000000⟩
    let longer : Instant := ⟨1425167999, 1500000000⟩
    now.InRange ∧ windowStart (.timeWindow "at" .month 22) now = some longer ∧
    ∃ s, windowStart (.timeWindow "at" .month 10) now = some s ∧ longer ≤ s ∧ s ≤ now := by
  intro now longer
  have h : now.InRange := by decide
  have start : windowStart (.timeWindow "at" .month 22) now = some longer := by decide
  have ⟨_, nested, _⟩ := windowStart_antitone now h
  exact ⟨h, start, nested "at" .month 10 22 (by decide) longer start⟩

-- From the last day of March one month back is the last day of February.
theorem windowStart_calendar_clamped :
    let now : Instant := ⟨1711886400, 500000000⟩
    now.InRange ∧ now.On ⟨2024, 3, 31⟩ ∧
    (∃ t, windowStart (.timeWindow "at" .month 1) now = some t ∧ t.On ⟨2024, 2, 29⟩ ∧
      t.secondOfDay = 43200 ∧ t.nanos = 500000000) ∧
    windowStart (.timeWindow "at" .year 1) now = windowStart (.timeWindow "at" .month 12) now ∧
    windowStart (.timeWindow "at" .hour 1) now = some ⟨1711882800, 500000000⟩ := by
  intro now
  have h : now.InRange := by decide
  have hd : now.On ⟨2024, 3, 31⟩ :=
    ⟨⟨by decide, by decide, by decide, by decide⟩, by decide, by decide⟩
  have ⟨month, _, year, seconds⟩ := windowStart_calendar now h hd "at" 1
  obtain ⟨t, ht⟩ := month.exists_iff.mpr (by decide)
  have start := (month.start_iff (by decide) t).mp ht
  refine ⟨h, hd, ⟨t, ht, start⟩, year 12 (by decide), ?_⟩
  exact (seconds (by decide) _).left.mpr ⟨by decide, by decide⟩

end TableProfiling.Filter
