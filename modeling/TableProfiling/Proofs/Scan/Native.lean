import TableProfiling.Proofs.Scan.Resolution

namespace TableProfiling.Scan

variable {t : Table} {p : Declaration} {o : Override} {d : Descriptor}

-- The options that count. Values are a kind of their own, unless the override names another one.
def effective (p : Declaration) (o : Override) : Options :=
  match o.discreteValues with
  | some values => {
      column := o.column <|> p.defaultColumn
      kind := o.kind <|> some .columnValue
      values := some values }
  | none => {
      column := o.column <|> p.defaultColumn
      kind := o.kind <|> some (p.kind : PartitionKind)
      unit := o.unit.bind IntervalUnit.ofName? <|> p.defaultUnit
      interval := o.interval <|> p.defaultInterval
      rangeStart := o.rangeStart
      rangeEnd := o.rangeEnd }

structure Resolvable (p : Declaration) (o : Override) : Prop extends o.Acceptable where
  names  : p.NamesColumn
  column : ∃ c ∈ o.column <|> p.defaultColumn, isBlank c = false
  range  : (effective p o).kind = some .integerRange → Bounded o.rangeStart o.rangeEnd

theorem merge_defaults (p : Declaration) (o : Override) :
    p.defaults.merge o.options = effective p o := by
  cases h : o.discreteValues <;>
    simp [Options.merge, Override.options, Declaration.defaults, effective, h]

theorem effective_column : (effective p o).column = (o.column <|> p.defaultColumn) := by
  simp only [effective]
  split <;> rfl

-- The range that is checked is the one of the override, for no declaration has bounds.
theorem bounded_effective_iff (ho : o.Acceptable) :
    Bounded (effective p o).rangeStart (effective p o).rangeEnd ↔
      Bounded o.rangeStart o.rangeEnd := by
  cases h : o.discreteValues
  case none => simp [effective, h]
  case some vs =>
    have hi := (ho.exclusive <| by simp [h]).not_bounded
    simp [effective, h, hi]
    simp [Bounded]

theorem resolvable_iff :
    Resolvable p o ↔ o.Acceptable ∧ p.NamesColumn ∧ (effective p o).Complete := by
  constructor
  case mp =>
    intro h
    have exclusive := merge_defaults p o ▸ Options.merge_exclusive rfl
    refine ⟨h.toAcceptable, h.names, exclusive, effective_column ▸ h.column, fun hk => ?_⟩
    exact bounded_effective_iff h.toAcceptable |>.mpr (h.range hk)
  case mpr =>
    intro ⟨accepted, names, complete⟩
    refine ⟨accepted, names, effective_column (p := p) ▸ complete.column, fun hk => ?_⟩
    exact bounded_effective_iff accepted |>.mp (complete.range hk)

theorem choice_declared_iff (ho : o.enabled) :
    Choice (some p) (some o) options ∧ options.Complete ↔
      Resolvable p o ∧ options = effective p o := by
  rw [resolvable_iff]
  constructor
  case mp =>
    intro ⟨choice, complete⟩
    cases choice with
    | merged _ accepted names =>
      rw [merge_defaults] at *
      exact ⟨⟨accepted, names, complete⟩, rfl⟩
  case mpr =>
    intro ⟨⟨accepted, names, complete⟩, h⟩
    subst h
    exact ⟨merge_defaults p o ▸ .merged ho accepted names, complete⟩

theorem resolves_declared (hu : t.inUse = some p) (ho : o.enabled) :
    Resolves t (some o) (Resolvable p o) (effective p o) := by
  apply Resolves.of_choice <| not_unrestricted ho
  intro options
  rw [hu]
  exact choice_declared_iff ho

-- What a resolution that succeeds tells; no override counts as one that sets nothing.
theorem resolved_declared {o : Option Override} (hu : t.inUse = some p)
    (ho : ∀ x ∈ o, x.enabled = true) (h : resolveWith t o = .ok (some d)) :
    Resolvable p (o.getD {}) ∧ d.enabled = true ∧ d.options = effective p (o.getD {}) := by
  have ⟨enabled, pinned⟩ :
      (o.getD {}).enabled = true ∧ resolveWith t (some (o.getD {})) = .ok (some d) := by
    cases o
    case none   => exact ⟨rfl, (resolveWith_empty hu).trans h⟩
    case some x => exact ⟨ho x rfl, h⟩
  have resolves := resolves_declared hu enabled
  exact ⟨resolves.succeeds_iff.mp ⟨d, pinned⟩, resolves.descriptor d pinned⟩

-- Without an override, a table is resolved as by one that sets nothing.
theorem resolveWith_native {o : Option Override} (ht : t.dialect = .bigQuery)
    (hp : t.declaration = some p) (ho : ∀ x ∈ o, x.enabled = true) :
    Resolves t o (Resolvable p (o.getD {})) (effective p (o.getD {})) := by
  have hu : t.inUse = some p := Table.inUse_eq_some_iff.mpr ⟨ht, hp⟩
  cases o
  case some o => exact resolves_declared hu (ho o rfl)
  case none =>
    have ⟨succeeds, descriptor, fails⟩ := resolves_declared hu (o := {}) rfl
    rw [resolveWith_empty hu] at *
    exact ⟨succeeds, descriptor, fails⟩

-- A declaration by time, which an override turns into one by integers. The window of time stays.
theorem resolveWith_native_integerRange :
    ∃ d,
      resolveWith
        { name := "t", dialect := .bigQuery, declaration := some ⟨["id", "at"], .timeUnit, none⟩ }
        (some { kind := some .integerRange, rangeStart := some 0, rangeEnd := some 100 }) =
          .ok (some d) ∧
      d.options = {
        column := some "id", kind := some .integerRange, unit := some .day, interval := some 30
        rangeStart := some 0, rangeEnd := some 100 } := by
  have h := resolveWith_native
    (t := {
      name := "t", dialect := .bigQuery, declaration := some ⟨["id", "at"], .timeUnit, none⟩ })
    (o := some { kind := some .integerRange, rangeStart := some 0, rangeEnd := some 100 })
    rfl rfl (by simp)
  have ⟨d, hd⟩ := h.succeeds_iff.mpr {
    unit := by simp
    exclusive := by simp [Override.discreteValues]
    names := .inr (by simp)
    column := ⟨"id", rfl, by decide⟩
    range := fun _ => ⟨0, rfl, 100, rfl, by decide⟩ }
  exact ⟨d, hd, h.descriptor d hd |>.right⟩

end TableProfiling.Scan
