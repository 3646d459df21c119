import TableProfiling.Proofs.Scan.Options
import TableProfiling.Catalog.Table
import TableProfiling.Scan.Strategy

namespace TableProfiling

namespace Declaration

-- The column that is scanned by where no override names one. Rows that are told apart by the time
-- at which they come in are found by a pseudo-column, all others by the first declared column.
def defaultColumn (d : Declaration) : Option String :=
  match d.kind with
  | .ingestionTime => some (if d.interval = some "HOUR" then "_PARTITIONTIME" else "_PARTITIONDATE")
  | .timeUnit | .integerRange => d.columns.head?

def defaultUnit (d : Declaration) : Option IntervalUnit :=
  if d.kind = .integerRange then none else some .day

def defaultInterval (d : Declaration) : Option UInt32 :=
  if d.kind = .integerRange then none else some 30

def defaults (d : Declaration) : Scan.Options where
  column := d.defaultColumn
  kind := some d.kind
  unit := d.defaultUnit
  interval := d.defaultInterval

-- Some column is declared, unless a pseudo-column takes its place.
def NamesColumn (d : Declaration) : Prop :=
  d.kind = .ingestionTime ∨ d.columns ≠ []

end Declaration

namespace Scan

variable {d : Declaration}

theorem declaredOptions_eq_ok_iff :
    declaredOptions d = .ok options ↔ d.NamesColumn ∧ options = d.defaults := by
  rcases d with ⟨_ | ⟨c, cs⟩, _ | _ | _, interval⟩
  all_goals simp [declaredOptions, firstColumn, Declaration.NamesColumn, pure, Except.pure]
  all_goals exact eq_comm

theorem declaredOptions_error (h : ¬d.NamesColumn) :
    declaredOptions d = .error (.noDeclaredColumn d.kind) := by
  rcases d with ⟨_ | ⟨c, cs⟩, _ | _ | _, interval⟩
  all_goals simp [Declaration.NamesColumn] at h
  all_goals rfl

end Scan

-- The declaration of a table, if its dialect makes use of one.
def Table.inUse (t : Table) : Option Declaration :=
  if t.dialect = .bigQuery then t.declaration else none

namespace Table

variable {t : Table}

theorem inUse_eq_none_iff : t.inUse = none ↔ t.declaration = none ∨ t.dialect ≠ .bigQuery := by
  simp [inUse, or_comm, imp_iff_not_or]

theorem inUse_eq_some_iff : t.inUse = some d ↔ t.dialect = .bigQuery ∧ t.declaration = some d := by
  simp [inUse]

end Table

theorem Scan.used_ofDialect {t : Table} :
    (Strategy.ofDialect t.dialect).used t.declaration = t.inUse := by
  by_cases h : t.dialect = .bigQuery <;>
    simp [Strategy.ofDialect, Dialect.hasPseudoColumns, Strategy.used, Table.inUse, h]

end TableProfiling
