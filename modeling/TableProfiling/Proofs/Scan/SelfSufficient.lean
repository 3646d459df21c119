import TableProfiling.Proofs.Scan.Native
import TableProfiling.Proofs.Scan.Verbatim

namespace TableProfiling.Scan

open Outcome

variable {t : Table} {p : Declaration} {o : Override} {d : Descriptor}

-- The declaration is at fault, whatever an acceptable override asks for.
theorem resolveWith_undeclarable (hu : t.inUse = some p) (ho : o.enabled) (accepted : o.Acceptable)
    (h : ¬p.NamesColumn) :
    resolveWith t (some o) = .error (.partition t.name (.noDeclaredColumn p.kind)) := by
  have overrides : Options.ofOverride o = .ok o.options :=
    Options.ofOverride_eq_ok_iff.mpr ⟨accepted, rfl⟩
  have fault : chosen (some p) (some o) = .error (.noDeclaredColumn p.kind) := by
    simp [chosen, ho, overrides, combined, declaredOptions_error h]
  rw [resolveWith_eq, hu, fault]
  rfl

theorem resolved_undeclared (hu : t.inUse = none) (h : resolveWith t (some o) = .ok (some d)) :
    o.enabled = true ∧ o.SelfSufficient := by
  have enabled : o.enabled = true := by
    by_contra disabled
    have unrestricted : Unrestricted t (some o) := .inl ⟨o, rfl, eq_false_of_ne_true disabled⟩
    cases resolveWith_eq_none_iff.mpr unrestricted |>.symm.trans h
  exact ⟨enabled, resolves_undeclared hu enabled |>.succeeds_iff.mp ⟨d, h⟩⟩

theorem toPartitionKind_eq_integerRange_iff {k : DeclaredKind} :
    (k : PartitionKind) = .integerRange ↔ k = .integerRange := by
  cases k <;> decide

-- Only the override can make a range of integers of a declaration by time.
theorem effective_kind_of_time (time : p.kind ≠ .integerRange)
    (h : (effective p o).kind = some .integerRange) : o.kind = some .integerRange := by
  cases hk : o.kind
  case some k =>
    have given : (effective p o).kind = some k := by
      simp only [effective, hk]
      split <;> rfl
    exact given.symm.trans h
  case none =>
    simp only [effective, hk] at h
    split at h
    case h_1 => cases h
    case h_2 => exact absurd (toPartitionKind_eq_integerRange_iff.mp <| Option.some.inj h) time

theorem resolvable_of_time (time : p.kind ≠ .integerRange) (names : p.NamesColumn)
    (h : o.SelfSufficient) : Resolvable p o where
  toAcceptable := h.toAcceptable
  names := names
  column := by
    have ⟨c, hc, hb⟩ := h.column
    exact ⟨c, by simp [Option.mem_def.mp hc], hb⟩
  range hk := h.range <| effective_kind_of_time time hk

-- A declaration by time adds what the override leaves out and takes nothing away; but one without a
-- column is rejected before the override is looked at, even if that one names a column.
theorem resolveWith_selfSufficient (ht : t.dialect = .bigQuery) (hp : t.declaration = some p)
    (time : p.kind ≠ .integerRange)
    (h : resolveWith { t with declaration := none } (some o) = .ok (some d)) :
    (p.NamesColumn → ∃ d', resolveWith t (some o) = .ok (some d') ∧ some d'.column = o.column) ∧
    (¬p.NamesColumn →
      resolveWith t (some o) = .error (.partition t.name (.noDeclaredColumn p.kind))) := by
  have hu : t.inUse = some p := Table.inUse_eq_some_iff.mpr ⟨ht, hp⟩
  have ⟨enabled, sufficient⟩ := resolved_undeclared (Table.inUse_eq_none_iff.mpr <| .inl rfl) h
  constructor
  case left =>
    intro names
    have resolves := resolves_declared hu enabled
    have ⟨d', hd⟩ := resolves.succeeds_iff.mpr <| resolvable_of_time time names sufficient
    have ⟨_, options⟩ := resolves.descriptor d' hd
    have column : some d'.column = (effective p o).column := congrArg Options.column options
    have ⟨c, hc, _⟩ := sufficient.column
    rw [effective_column, Option.mem_def.mp hc] at column
    exact ⟨d', hd, column.trans hc.symm⟩
  case right => exact resolveWith_undeclarable hu enabled sufficient.toAcceptable

-- A range of integers over rows that are told apart by the time at which they come in.
theorem resolveWith_selfSufficient_range :
    ∃ d,
      resolveWith
        { name := "t", dialect := .bigQuery, declaration := some ⟨[], .ingestionTime, some "HOUR"⟩ }
        (some {
          column := some "id", kind := some .integerRange
          rangeStart := some 0, rangeEnd := some 100 }) = .ok (some d) ∧
      some d.column = some "id" := by
  have ⟨resolved, _⟩ := resolveWith_selfSufficient
    (t := {
      name := "t", dialect := .bigQuery, declaration := some ⟨[], .ingestionTime, some "HOUR"⟩ })
    (o := {
      column := some "id", kind := some .integerRange
      rangeStart := some 0, rangeEnd := some 100 })
    (d := {
      enabled := true, column := "id", kind := some .integerRange
      rangeStart := some 0, rangeEnd := some 100 })
    rfl rfl nofun rfl
  exact resolved <| .inl rfl

-- All options are set, so that nothing of the declaration is asked for; still it is rejected.
theorem resolveWith_selfSufficient_rejected :
    ¬∀ (t : Table) (p : Declaration) (o : Override) (d : Descriptor),
      t.dialect = .bigQuery → t.declaration = some p → p.kind ≠ .integerRange →
      resolveWith { t with declaration := none } (some o) = .ok (some d) →
      ∃ d', resolveWith t (some o) = .ok (some d') ∧ some d'.column = o.column := by
  intro h
  have ⟨d', resolved, _⟩ := h
    { name := "t", dialect := .bigQuery, declaration := some ⟨[], .timeUnit, none⟩ }
    ⟨[], .timeUnit, none⟩
    { column := some "at", kind := some .timeUnit, unit := some "HOUR", interval := some 6 }
    { enabled := true, column := "at", kind := some .timeUnit, unit := some .hour
      interval := some 6 }
    rfl rfl nofun rfl
  cases resolved

end TableProfiling.Scan
