import TableProfiling.Proofs.Scan.Agreement

namespace TableProfiling

namespace Descriptor

variable {d : Descriptor}

theorem filter_eq_integerRange_iff :
    d.filter = some (.integerRange c first last) ↔
      d.enabled = true ∧ d.column = c ∧ d.values = none ∧
        d.rangeStart = some first ∧ d.rangeEnd = some last := by
  simp only [filter]
  split
  case isFalse h => simp [h]
  case isTrue h  => split <;> simp_all

theorem filter_eq_none_iff (he : d.enabled = true) :
    d.filter = none ↔
      d.values = none ∧ (d.rangeStart = none ∨ d.rangeEnd = none) ∧
        (d.unit = none ∨ d.interval = none) := by
  simp only [filter, if_pos he]
  cases d.values
  case some vs => simp
  case none =>
    cases d.rangeStart <;> cases d.rangeEnd <;> cases d.unit <;> cases d.interval <;> simp

end Descriptor

namespace Scan

variable {t : Table} {d : Descriptor} {p : Declaration} {options : Options}

-- Declarations come without bounds, and values leave none beside them.
theorem Choice.bounds_of_override {p : Option Declaration} {o : Option Override}
    (c : Choice p o options) (hf : options.rangeStart = some first)
    (hl : options.rangeEnd = some last) :
    ∃ x ∈ o, x.rangeStart = some first ∧ x.rangeEnd = some last := by
  cases c
  case declared         => cases hf
  case overridden x _ _ => exact ⟨x, rfl, hf, hl⟩
  case merged p x _ _ _ =>
    rw [merge_defaults] at hf hl
    cases hv : x.discreteValues
    case some vs =>
      rw [effective_of_values hv] at hf
      cases hf
    case none =>
      rw [effective_of_no_values hv] at hf hl
      exact ⟨x, rfl, hf, hl⟩

-- The bounds are those of the override as they are. Only a range of integers that is called one
-- must have them in order.
theorem resolved_range_ordered {o : Option Override} (h : resolveWith t o = .ok (some d))
    (hf : d.filter = some (.integerRange c first last)) :
    (∃ x ∈ o, x.rangeStart = some first ∧ x.rangeEnd = some last) ∧
      (d.kind = some .integerRange → first ≤ last) := by
  have ⟨_, choice, complete⟩ := resolved_iff.mp h
  have ⟨_, _, _, start, stop⟩ := Descriptor.filter_eq_integerRange_iff.mp hf
  refine ⟨choice.bounds_of_override start stop, fun hk => ?_⟩
  have ⟨a, ha, b, hb, ordered⟩ := complete.range hk
  cases start.symm.trans ha
  cases stop.symm.trans hb
  exact ordered

-- The kind comes from the declaration here, the bounds from the override.
theorem resolved_range_ordered_declared :
    ∃ d,
      resolveWith
        { name := "t", dialect := .bigQuery, declaration := some ⟨["id"], .integerRange, none⟩ }
        (some { rangeStart := some (-7), rangeEnd := some 7 }) = .ok (some d) ∧
      d.filter = some (.integerRange "id" (-7) 7) ∧ d.kind = some .integerRange ∧
      (-7 : Int64) ≤ 7 := by
  let d : Descriptor := {
    enabled := true, column := "id", kind := some .integerRange
    rangeStart := some (-7), rangeEnd := some 7 }
  have filter : d.filter = some (.integerRange "id" (-7) 7) := rfl
  have ⟨_, ordered⟩ := resolved_range_ordered (d := d)
    (t := { name := "t", dialect := .bigQuery, declaration := some ⟨["id"], .integerRange, none⟩ })
    (o := some { rangeStart := some (-7), rangeEnd := some 7 }) rfl filter
  exact ⟨d, rfl, filter, rfl, ordered rfl⟩

-- A range that is not called one: nothing can lie between its bounds.
theorem resolved_range_inverted :
    ¬∀ (t : Table) (o : Option Override) (d : Descriptor) (c : String) (first last : Int64),
      resolveWith t o = .ok (some d) → d.filter = some (.integerRange c first last) →
      first ≤ last := by
  intro h
  have ordered := h { name := "t", dialect := .postgres }
    (some { column := some "id", rangeStart := some 100, rangeEnd := some 0 })
    { enabled := true, column := "id", rangeStart := some 100, rangeEnd := some 0 }
    "id" 100 0 rfl rfl
  revert ordered
  decide

-- An override puts another kind over a declared range of integers, and nothing that makes a filter.
structure LeavesOpen (p : Declaration) (o : Override) : Prop where
  declared : p.kind = .integerRange
  kind     : ∃ k ∈ o.kind, k ≠ .integerRange
  values   : o.discreteValues = none
  range    : o.rangeStart = none ∨ o.rangeEnd = none
  window   : o.unit = none ∨ o.interval = none

section

variable {o : Override}

-- Where integers are declared, an override that does not give both bounds must name another kind.
theorem Resolvable.names_other_kind (h : Resolvable p o) (hv : o.discreteValues = none)
    (declared : p.kind = .integerRange) (missing : o.rangeStart = none ∨ o.rangeEnd = none) :
    ∃ k ∈ o.kind, k ≠ .integerRange := by
  have unbounded : ¬Bounded o.rangeStart o.rangeEnd := by
    rintro ⟨_, hf, _, hl, _⟩
    rcases missing with none | none
    · cases none.symm.trans hf
    · cases none.symm.trans hl
  have other : (effective p o).kind ≠ some .integerRange := mt h.range unbounded
  rw [effective_of_no_values hv, declared] at other
  cases hk : o.kind
  case none   => simp [hk, DeclaredKind.toPartitionKind] at other
  case some k => exact ⟨k, rfl, by simpa [hk] using other⟩

-- Beside a declaration by time, there always is a window to fall back on.
theorem leavesOpen_iff (h : Resolvable p o) :
    LeavesOpen p o ↔
      (effective p o).values = none ∧
        ((effective p o).rangeStart = none ∨ (effective p o).rangeEnd = none) ∧
        ((effective p o).unit = none ∨ (effective p o).interval = none) := by
  cases hv : o.discreteValues
  case some vs =>
    rw [effective_of_values hv]
    constructor
    case mp =>
      intro h
      cases hv.symm.trans h.values
    case mpr =>
      intro h
      cases h.left
  case none =>
    have unit := Options.unit_eq_none_iff h.unit
    rw [effective_of_no_values hv]
    simp only [Declaration.defaultUnit, Declaration.defaultInterval]
    by_cases declared : p.kind = .integerRange
    case neg =>
      have closed : ¬LeavesOpen p o := fun h => declared h.declared
      simp [declared, closed]
    case pos =>
      have sides : LeavesOpen p o ↔
          (o.rangeStart = none ∨ o.rangeEnd = none) ∧ (o.unit = none ∨ o.interval = none) := by
        constructor
        case mp => exact fun h => ⟨h.range, h.window⟩
        case mpr =>
          rintro ⟨missing, window⟩
          exact ⟨declared, h.names_other_kind hv declared missing, hv, missing, window⟩
      simp [declared, unit, sides]

end

-- The second part is what the first one comes to for a declaration by time.
theorem resolved_unfiltered_iff {o : Option Override} (ht : t.dialect = .bigQuery)
    (hp : t.declaration = some p) (ho : ∀ x ∈ o, x.enabled = true)
    (h : resolveWith t o = .ok (some d)) :
    (d.filter = none ↔ ∃ x ∈ o, LeavesOpen p x) ∧
      (p.kind ≠ .integerRange → ∃ f, d.filter = some f) := by
  have hu : t.inUse = some p := Table.inUse_eq_some_iff.mpr ⟨ht, hp⟩
  have ⟨resolvable, he, hd⟩ := resolved_declared hu ho h
  have unfiltered : d.filter = none ↔ LeavesOpen p (o.getD {}) := by
    rw [Descriptor.filter_eq_none_iff he, leavesOpen_iff resolvable, ←hd]
    rfl
  constructor
  case left =>
    rw [unfiltered]
    cases o
    case some x => simp
    case none =>
      constructor
      case mp =>
        intro h
        have ⟨_, hk, _⟩ := h.kind
        cases hk
      case mpr => exact fun ⟨_, hx, _⟩ => nomatch hx
  case right =>
    intro time
    apply Option.ne_none_iff_exists'.mp
    exact fun none => time (unfiltered.mp none).declared

-- A declared range of integers that is called a time: neither its bounds nor a window are complete.
theorem resolved_unfiltered_iff_renamed :
    ∃ d,
      resolveWith
        { name := "t", dialect := .bigQuery, declaration := some ⟨["id"], .integerRange, none⟩ }
        (some { kind := some .timeUnit, unit := some "DAY", rangeStart := some 0 })
          = .ok (some d) ∧
      d.filter = none := by
  let d : Descriptor := {
    enabled := true, column := "id", kind := some .timeUnit, unit := some .day
    rangeStart := some 0 }
  have ⟨unfiltered, _⟩ := resolved_unfiltered_iff (d := d)
    (t := { name := "t", dialect := .bigQuery, declaration := some ⟨["id"], .integerRange, none⟩ })
    (o := some { kind := some .timeUnit, unit := some "DAY", rangeStart := some 0 })
    rfl rfl (by simp) rfl
  have open' : LeavesOpen ⟨["id"], .integerRange, none⟩
      { kind := some .timeUnit, unit := some "DAY", rangeStart := some 0 } := {
    declared := rfl
    kind := ⟨.timeUnit, rfl, nofun⟩
    values := rfl
    range := .inr rfl
    window := .inr rfl }
  exact ⟨d, rfl, unfiltered.mpr ⟨_, rfl, open'⟩⟩

end Scan
end TableProfiling
