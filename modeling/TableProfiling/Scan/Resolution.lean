import TableProfiling.Catalog.Table
import TableProfiling.Log.Config
import TableProfiling.Scan.Strategy

namespace TableProfiling.Scan

-- The way in which a resolution ends. Both its result and its entries in the log follow from this.
inductive Verdict
  -- The override turns partitioning off.
  | disabled
  -- The override is faulty.
  | rejected (fault : PartitionFault)
  -- There is neither a declaration nor an override.
  | unpartitioned
  -- No options follow from the declaration.
  | undeclarable (fault : PartitionFault)
  -- There is a declaration that the dialect makes no use of, and no override.
  | unused (s : Strategy)
  -- The options make no descriptor.
  | invalid (fault : PartitionFault)
  | resolved (d : Descriptor)

-- The end of a resolution with the options of an override, or without.
def judge (t : Table) (overrides : Option Options) : Verdict :=
  if t.declaration.isNone && overrides.isNone then .unpartitioned
  else
    let strategy := Strategy.ofDialect t.dialect
    match strategy.defaults t.declaration with
    | .error fault => .undeclarable fault
    | .ok defaults =>
      let options : Option Options := match defaults, overrides with
        | some base, some overrides => some (base.merge overrides)
        | some options, none => some options
        | none, overrides => overrides
      match options with
      | none => .unused strategy
      | some options =>
        match options.descriptor with
        | .ok d => .resolved d
        | .error fault => .invalid fault

def verdict (t : Table) : Option Override → Verdict
  | none => judge t none
  | some o =>
    if o.enabled then
      match Options.ofOverride o with
      | .ok options => judge t (some options)
      | .error fault => .rejected fault
    else
      .disabled

namespace Verdict

def result (table : String) : Verdict → Except Failure (Option Descriptor)
  | disabled | unpartitioned | unused _ => .ok none
  | rejected fault | undeclarable fault | invalid fault => .error (.partition table fault)
  | resolved d => .ok (some d)

-- Whether the resolution went as far as to look at the declaration.
def consultsDeclaration : Verdict → Bool
  | disabled | rejected _ | unpartitioned => false
  | undeclarable _ | unused _ | invalid _ | resolved _ => true

end Verdict

-- An option as the log shows it.
def shown (text : α → String) : Option α → String
  | some x => "Some(" ++ text x ++ ")"
  | none => "None"

-- The warning about a declaration of several columns, of which only the first one counts.
def columnWarnings (table : String) (s : Strategy) (d : Option Declaration) : List Log.Entry :=
  match s.used d with
  | some d =>
    if namesFirstOfSeveral d then
      [.event .warn "Multiple partition columns declared, using the first one"
        [("table", table), ("columns", quotedList d.columns)]]
    else
      []
  | none => []

-- The entry about how a resolution ended. What cannot be declared is not logged.
def Verdict.entries (log : Log.Config) (table : String) : Verdict → List Log.Entry
  | disabled => log.partition "Partitioning disabled by override" [("table", table)]
  | rejected fault =>
    [.event .warn "Rejected partition override"
      [("table", table), ("error", (Failure.partition table fault).text)]]
  | unpartitioned => log.partition "Table is not partitioned" [("table", table)]
  | undeclarable _ => []
  | unused s =>
    log.partition "Declared partition not used by this dialect"
      [("table", table), ("strategy", s.name)]
  | invalid fault =>
    [.event .warn "Invalid partition configuration"
      [("table", table), ("error", (Failure.partition table fault).text)]]
  | resolved d =>
    log.partition "Resolved partition details"
      [("table", table), ("column", d.column), ("interval_type", shown PartitionKind.label d.kind),
        ("interval_unit", shown IntervalUnit.label d.unit),
        ("interval", shown (fun n => toString n.toNat) d.interval)]

-- Resolves a table with an explicit override.
def resolveWith (t : Table) (o : Option Override) : Except Failure (Option Descriptor) :=
  (verdict t o).result t.name

-- Resolves a table with the override that is stored with it.
def resolve (t : Table) : Except Failure (Option Descriptor) :=
  resolveWith t t.override

-- What the log says about a resolution.
def resolutionEntries (log : Log.Config) (t : Table) (o : Option Override) : List Log.Entry :=
  let v := verdict t o
  .span .info "resolve_with" [("table", t.name), ("service_type", t.dialect.name)]
    :: (if v.consultsDeclaration then
          columnWarnings t.name (.ofDialect t.dialect) t.declaration
        else
          [])
    ++ v.entries log t.name

end TableProfiling.Scan
