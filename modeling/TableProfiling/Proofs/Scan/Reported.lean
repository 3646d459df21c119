import TableProfiling.Proofs.Scan.Resolution

namespace TableProfiling

-- The text of the error that an entry warns about.
def Log.Entry.error? : Log.Entry → Option String
  | .event .warn _ fields => fields.lookup "error"
  | _ => none

namespace Scan

open Outcome

variable {log : Log.Config} {t : Table} {o : Option Override} {overrides : Option Options}

-- The errors that a log warns about, in its order.
def reported (es : List Log.Entry) : List String :=
  es.filterMap Log.Entry.error?

-- The errors that a result has to be reported with.
def failureTexts : Except Failure α → List String
  | .ok _ => []
  | .error f => [f.text]

-- A resolution comes to a declaration, and this names no column.
structure Undeclarable (t : Table) (o : Option Override) : Prop where
  accepted : ∀ x ∈ o, x.enabled = true ∧ x.Acceptable
  unnamed  : ∃ p, t.inUse = some p ∧ ¬p.NamesColumn

theorem reported_append (es₁ es₂ : List Log.Entry) :
    reported (es₁ ++ es₂) = reported es₁ ++ reported es₂ :=
  List.filterMap_append

-- Decisions are no errors, even where they are logged as warnings.
theorem reported_partition (h : fields.lookup "error" = none) (message : String) :
    reported (log.partition message fields) = [] := by
  simp only [Log.Config.partition]
  split
  case isTrue  => cases hl : log.level <;> simp [reported, Log.Entry.error?, h]
  case isFalse => rfl

theorem reported_columnWarnings (table : String) (s : Strategy) (p : Option Declaration) :
    reported (columnWarnings table s p) = [] := by
  simp only [columnWarnings]
  split
  case h_1 => split <;> rfl
  case h_2 => rfl

theorem reported_entries (log : Log.Config) (table : String) {v : Verdict}
    (h : ∀ fault, v ≠ .undeclarable fault) :
    reported (v.entries log table) = failureTexts (v.result table) := by
  cases v
  case undeclarable fault => exact absurd rfl <| h fault
  case rejected | invalid => rfl
  all_goals exact reported_partition rfl _

theorem reported_resolutionEntries (log : Log.Config) (t : Table) (o : Option Override) :
    reported (resolutionEntries log t o) = reported ((verdict t o).entries log t.name) := by
  have columns : reported (if (verdict t o).consultsDeclaration then
      columnWarnings t.name (.ofDialect t.dialect) t.declaration else []) = [] := by
    split
    case isTrue  => exact reported_columnWarnings ..
    case isFalse => rfl
  rw [resolutionEntries, List.cons_append, ←List.singleton_append, reported_append,
    reported_append, columns]
  rfl

theorem judge_undeclarable_iff :
    (∃ fault, judge t overrides = .undeclarable fault) ↔ ∃ p, t.inUse = some p ∧ ¬p.NamesColumn := by
  simp only [judge, Strategy.defaults, used_ofDialect]
  cases hp : t.inUse
  case none =>
    cases overrides <;> simp
    case none         => split <;> simp
    case some options => cases options.descriptor <;> simp
  case some p =>
    obtain ⟨_, hd⟩ := Table.inUse_eq_some_iff.mp hp
    by_cases names : p.NamesColumn
    case neg => simp [hd, declaredOptions_error names, names]
    case pos =>
      have defaults : declaredOptions p = .ok p.defaults :=
        declaredOptions_eq_ok_iff.mpr ⟨names, rfl⟩
      cases overrides <;> simp [hd, defaults, names]
      case none           => cases p.defaults.descriptor <;> simp
      case some overrides => cases (p.defaults.merge overrides).descriptor <;> simp

theorem undeclarable_iff (h : ∀ x ∈ o, x.enabled = true ∧ x.Acceptable) :
    Undeclarable t o ↔ ∃ p, t.inUse = some p ∧ ¬p.NamesColumn :=
  ⟨Undeclarable.unnamed, (⟨h, ·⟩)⟩

-- The override is looked at first, and a faulty one is rejected by itself.
theorem verdict_undeclarable_iff :
    (∃ fault, verdict t o = .undeclarable fault) ↔ Undeclarable t o := by
  cases o
  case none =>
    rw [undeclarable_iff (by simp)]
    exact judge_undeclarable_iff
  case some o =>
    by_cases accepted : o.enabled = true ∧ o.Acceptable
    case pos =>
      have options : Options.ofOverride o = .ok o.options :=
        Options.ofOverride_eq_ok_iff.mpr ⟨accepted.right, rfl⟩
      simp only [verdict, accepted.left, if_true, options]
      rw [undeclarable_iff (by simpa using accepted)]
      exact judge_undeclarable_iff
    case neg =>
      have other : ¬Undeclarable t (some o) := fun h => accepted <| h.accepted o rfl
      simp only [other, iff_false, verdict]
      split
      case isFalse => simp
      case isTrue enabled =>
        split
        case h_2 => simp
        case h_1 options ho =>
          exact absurd ⟨enabled, Options.ofOverride_eq_ok_iff.mp ho |>.left⟩ accepted

-- A failure is reported once, and nothing else is; but a declaration that comes to nothing is not
-- reported at all, although its failure is returned like any other.
theorem reported_resolution (log : Log.Config) (t : Table) (o : Option Override) :
    (¬Undeclarable t o →
      reported (resolutionEntries log t o) = failureTexts (resolveWith t o)) ∧
    (Undeclarable t o →
      reported (resolutionEntries log t o) = [] ∧
      ∃ fault, resolveWith t o = .error (.partition t.name fault)) := by
  rw [reported_resolutionEntries, resolveWith]
  constructor
  case left =>
    intro h
    apply reported_entries
    intro fault hv
    exact h <| verdict_undeclarable_iff.mp ⟨fault, hv⟩
  case right =>
    intro h
    obtain ⟨fault, hv⟩ := verdict_undeclarable_iff.mpr h
    rw [hv]
    exact ⟨rfl, fault, rfl⟩

-- Several columns are warned about as well, but this is no error.
theorem reported_resolution_inverted :
    let t : Table :=
      { name := "t", dialect := .bigQuery, declaration := some ⟨["a", "b"], .integerRange, none⟩ }
    let o : Override := { rangeStart := some 7, rangeEnd := some 3 }
    ¬Undeclarable t (some o) ∧
    reported (resolutionEntries .production t (some o)) =
      ["Invalid partition configuration for 't': integer range start 7 is greater than end 3"] := by
  intro t o
  have declarable : ¬Undeclarable t (some o) := by
    rintro ⟨_, p, hp, names⟩
    cases hp
    exact names <| .inr nofun
  have failed : failureTexts (resolveWith t (some o)) =
      ["Invalid partition configuration for 't': integer range start 7 is greater than end 3"] := by
    decide +kernel
  exact ⟨declarable, reported_resolution .production t (some o) |>.left declarable |>.trans failed⟩

theorem reported_resolution_silent :
    ¬∀ (log : Log.Config) (t : Table) (o : Option Override),
      reported (resolutionEntries log t o) = failureTexts (resolveWith t o) := by
  intro h
  cases h .balanced
    { name := "t", dialect := .bigQuery, declaration := some ⟨[], .timeUnit, none⟩ } none

end Scan
end TableProfiling
