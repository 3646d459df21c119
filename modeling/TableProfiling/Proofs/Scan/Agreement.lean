import TableProfiling.Proofs.Scan.Native
import TableProfiling.Scan.Filter

namespace TableProfiling

-- The kinds of partition that a filter is made for. Windows are made for two kinds.
inductive Filter.Suits : Filter → PartitionKind → Prop
  | timeUnit      : Suits (timeWindow c unit n) .timeUnit
  | ingestionTime : Suits (timeWindow c unit n) .ingestionTime
  | integerRange  : Suits (integerRange c first last) .integerRange
  | columnValue   : Suits (values c vs) .columnValue

namespace Descriptor

variable {d : Descriptor}

theorem filter_of_values (he : d.enabled = true) (hv : d.values = some vs) :
    d.filter = some (.values d.column vs) := by
  simp [filter, he, hv]

theorem filter_of_range (he : d.enabled = true) (hv : d.values = none)
    (hf : d.rangeStart = some first) (hl : d.rangeEnd = some last) :
    d.filter = some (.integerRange d.column first last) := by
  simp [filter, he, hv, hf, hl]

-- A window is only made where a bound of a range is missing.
theorem filter_of_window (he : d.enabled = true) (hv : d.values = none)
    (hr : d.rangeStart = none ∨ d.rangeEnd = none) (hu : d.unit = some u)
    (hi : d.interval = some n) : d.filter = some (.timeWindow d.column u n) := by
  cases hf : d.rangeStart <;> cases hl : d.rangeEnd <;> simp_all [filter]

end Descriptor

namespace Scan

variable {t : Table} {d : Descriptor} {p : Declaration} {o : Override}

-- An override puts a range of integers over a declaration by time.
structure RangeOverTime (p : Declaration) (o : Override) : Prop where
  kind  : p.kind ≠ .integerRange
  first : o.rangeStart ≠ none
  last  : o.rangeEnd ≠ none

-- A descriptor makes a filter, and it is one for the kind of the descriptor. The exception is a
-- range of integers over a declaration by time: the kind stays the declared one, but the rows are
-- told apart by the range.
structure Agrees (p : Declaration) (o : Override) (d : Descriptor) : Prop where
  suits    : ¬RangeOverTime p o → ∃ f k, d.filter = some f ∧ d.kind = some k ∧ f.Suits k
  overTime : RangeOverTime p o → d.kind = some (p.kind : PartitionKind) ∧
    ∃ first ∈ o.rangeStart, ∃ last ∈ o.rangeEnd, d.filter = some (.integerRange d.column first last)

theorem effective_of_values (h : o.discreteValues = some vs) :
    effective p o = {
      column := o.column <|> p.defaultColumn
      kind := o.kind <|> some .columnValue
      values := some vs } := by
  simp [effective, h]

theorem effective_of_no_values (h : o.discreteValues = none) :
    effective p o = {
      column := o.column <|> p.defaultColumn
      kind := o.kind <|> some (p.kind : PartitionKind)
      unit := o.unit.bind IntervalUnit.ofName? <|> p.defaultUnit
      interval := o.interval <|> p.defaultInterval
      rangeStart := o.rangeStart
      rangeEnd := o.rangeEnd } := by
  simp [effective, h]

theorem agrees_of_values (ho : Resolvable p o) (hk : o.kind = none) (he : d.enabled = true)
    (hd : d.options = effective p o) (hv : o.discreteValues = some vs) : Agrees p o d := by
  rw [effective_of_values hv, hk] at hd
  have kind : d.kind = some .columnValue := congrArg Options.kind hd
  have values : d.values = some vs := congrArg Options.values hd
  constructor
  case suits =>
    intro _
    exact ⟨_, _, d.filter_of_values he values, kind, .columnValue⟩
  case overTime =>
    intro h
    exact absurd (ho.exclusive <| by simp [hv]).first h.first

theorem agrees_of_range (ho : Resolvable p o) (hk : o.kind = none) (he : d.enabled = true)
    (hd : d.options = effective p o) (hv : o.discreteValues = none)
    (hp : p.kind = .integerRange) : Agrees p o d := by
  have declared : (effective p o).kind = some .integerRange := by
    simp [effective_of_no_values hv, hk, hp, DeclaredKind.toPartitionKind]
  obtain ⟨first, hf, last, hl, _⟩ := ho.range declared
  rw [effective_of_no_values hv, hk, hp] at hd
  have kind : d.kind = some .integerRange := congrArg Options.kind hd
  have values : d.values = none := congrArg Options.values hd
  have start : d.rangeStart = some first := (congrArg Options.rangeStart hd).trans hf
  have stop : d.rangeEnd = some last := (congrArg Options.rangeEnd hd).trans hl
  constructor
  case suits =>
    intro _
    exact ⟨_, _, d.filter_of_range he values start stop, kind, .integerRange⟩
  case overTime =>
    intro h
    exact absurd hp h.kind

-- What an override leaves out of a window, a declaration by time adds.
theorem agrees_of_time (hk : o.kind = none) (he : d.enabled = true)
    (hd : d.options = effective p o) (hv : o.discreteValues = none)
    (hp : p.kind ≠ .integerRange) : Agrees p o d := by
  rw [effective_of_no_values hv, hk] at hd
  have kind : d.kind = some (p.kind : PartitionKind) := congrArg Options.kind hd
  have values : d.values = none := congrArg Options.values hd
  have start : d.rangeStart = o.rangeStart := congrArg Options.rangeStart hd
  have stop : d.rangeEnd = o.rangeEnd := congrArg Options.rangeEnd hd
  have unit : ∃ u, d.unit = some u := by
    have h : d.unit = (o.unit.bind IntervalUnit.ofName? <|> p.defaultUnit) :=
      congrArg Options.unit hd
    rw [h, Declaration.defaultUnit, if_neg hp]
    cases o.unit.bind IntervalUnit.ofName? <;> simp
  have interval : ∃ n, d.interval = some n := by
    have h : d.interval = (o.interval <|> p.defaultInterval) := congrArg Options.interval hd
    rw [h, Declaration.defaultInterval, if_neg hp]
    cases o.interval <;> simp
  obtain ⟨u, unit⟩ := unit
  obtain ⟨n, interval⟩ := interval
  constructor
  case suits =>
    intro h
    have missing : d.rangeStart = none ∨ d.rangeEnd = none := by
      rw [start, stop]
      by_contra hr
      push Not at hr
      exact h ⟨hp, hr.left, hr.right⟩
    refine ⟨_, _, d.filter_of_window he values missing unit interval, kind, ?_⟩
    cases hk : p.kind
    case timeUnit      => exact .timeUnit
    case ingestionTime => exact .ingestionTime
    case integerRange  => contradiction
  case overTime =>
    intro ⟨_, hf, hl⟩
    obtain ⟨first, hf⟩ := Option.ne_none_iff_exists'.mp hf
    obtain ⟨last, hl⟩ := Option.ne_none_iff_exists'.mp hl
    refine ⟨kind, first, hf, last, hl, ?_⟩
    exact d.filter_of_range he values (start.trans hf) (stop.trans hl)

-- A filter goes by the options that are set and not by the kind, so that this rests on how the
-- options came about.
theorem resolved_filter_suits {o : Option Override} (ht : t.dialect = .bigQuery)
    (hp : t.declaration = some p) (ho : ∀ x ∈ o, x.enabled = true ∧ x.kind = none)
    (h : resolveWith t o = .ok (some d)) : Agrees p (o.getD {}) d := by
  have hu : t.inUse = some p := Table.inUse_eq_some_iff.mpr ⟨ht, hp⟩
  have pinned : resolveWith t (some (o.getD {})) = .ok (some d) := by
    cases o
    case none   => rw [←h]; exact resolveWith_empty hu
    case some o => exact h
  have hx : (o.getD {}).enabled = true ∧ (o.getD {}).kind = none := by
    cases o
    case none   => exact ⟨rfl, rfl⟩
    case some o => exact ho o rfl
  have resolves := resolves_declared hu hx.left
  have resolvable := resolves.succeeds_iff.mp ⟨d, pinned⟩
  have ⟨he, hd⟩ := resolves.descriptor d pinned
  cases hv : (o.getD {}).discreteValues
  case some vs => exact agrees_of_values resolvable hx.right he hd hv
  case none =>
    by_cases hk : p.kind = .integerRange
    case pos => exact agrees_of_range resolvable hx.right he hd hv hk
    case neg => exact agrees_of_time hx.right he hd hv hk

-- One bound alone leaves the window of a declaration by time in place.
theorem resolved_filter_suits_window :
    ∃ d,
      resolveWith
        { name := "t", dialect := .bigQuery, declaration := some ⟨["at"], .timeUnit, none⟩ }
        (some { unit := some "HOUR", rangeStart := some 7 }) = .ok (some d) ∧
      ∃ f k, d.filter = some f ∧ d.kind = some k ∧ f.Suits k := by
  let d : Descriptor := {
    enabled := true, column := "at", kind := some .timeUnit, unit := some .hour
    interval := some 30, rangeStart := some 7 }
  have h := resolved_filter_suits (d := d)
    (t := { name := "t", dialect := .bigQuery, declaration := some ⟨["at"], .timeUnit, none⟩ })
    (o := some { unit := some "HOUR", rangeStart := some 7 }) rfl rfl (by simp) rfl
  exact ⟨d, rfl, h.suits fun ⟨_, _, last⟩ => last rfl⟩

-- A range of integers over a declaration by time: the kind still is the declared one.
theorem resolved_filter_unsuited :
    ¬∀ (t : Table) (p : Declaration) (o : Option Override) (d : Descriptor),
      t.dialect = .bigQuery → t.declaration = some p →
      (∀ x ∈ o, x.enabled = true ∧ x.kind = none) → resolveWith t o = .ok (some d) →
      ∃ f k, d.filter = some f ∧ d.kind = some k ∧ f.Suits k := by
  intro h
  have ⟨_, _, filter, kind, suits⟩ := h
    { name := "t", dialect := .bigQuery, declaration := some ⟨["at"], .timeUnit, none⟩ }
    ⟨["at"], .timeUnit, none⟩
    (some { rangeStart := some 0, rangeEnd := some 100 })
    { enabled := true, column := "at", kind := some .timeUnit, unit := some .day
      interval := some 30, rangeStart := some 0, rangeEnd := some 100 }
    rfl rfl (by simp) rfl
  cases filter
  cases kind
  cases suits

end Scan
end TableProfiling
