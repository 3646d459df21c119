import TableProfiling.Catalog.Dialect
import TableProfiling.Scan.Options

namespace TableProfiling.Scan

-- A dialect with pseudo-columns makes use of declarations; with another one, only overrides count.
inductive Strategy
  | pseudoColumns
  | overrideOnly
  deriving DecidableEq, Repr

namespace Strategy

def name : Strategy → String
  | pseudoColumns => "NativePseudoColumns"
  | overrideOnly => "OverrideOnly"

def ofDialect (d : Dialect) : Strategy :=
  if d.hasPseudoColumns then pseudoColumns else overrideOnly

end Strategy

-- The pseudo-column that holds the time at which a row came in.
def timeColumn : String := "_PARTITIONTIME"

-- The pseudo-column that holds the date on which a row came in.
def dateColumn : String := "_PARTITIONDATE"

def defaultUnit : IntervalUnit := .day

def defaultInterval : UInt32 := 30

-- The column by which a declaration partitions. Of several columns it is the first one.
def firstColumn (d : Declaration) : Except PartitionFault String :=
  match d.columns with
  | column :: _ => .ok column
  | [] => .error (.noDeclaredColumn d.kind)

-- The pseudo-column of a table that is partitioned by the time at which its rows come in.
def ingestionColumn (d : Declaration) : String :=
  if d.interval = some "HOUR" then timeColumn else dateColumn

-- The options that follow from a declaration: the last thirty days, where time is declared.
def declaredOptions (d : Declaration) : Except PartitionFault Options :=
  match d.kind with
  | .ingestionTime => return {
      column := some (ingestionColumn d)
      kind := some .ingestionTime
      unit := some defaultUnit
      interval := some defaultInterval }
  | .timeUnit => return {
      column := some (← firstColumn d)
      kind := some .timeUnit
      unit := some defaultUnit
      interval := some defaultInterval }
  | .integerRange => return { column := some (← firstColumn d), kind := some .integerRange }

-- Whether the options that follow from a declaration name one of several columns.
def namesFirstOfSeveral (d : Declaration) : Bool :=
  d.kind ≠ .ingestionTime && 1 < d.columns.length

namespace Strategy

-- The declaration, if a strategy makes use of it.
def used (s : Strategy) (d : Option Declaration) : Option Declaration :=
  match s with
  | pseudoColumns => d
  | overrideOnly => none

def defaults (s : Strategy) (d : Option Declaration) : Except PartitionFault (Option Options) :=
  match s.used d with
  | some d => some <$> declaredOptions d
  | none => .ok none

end TableProfiling.Scan.Strategy
