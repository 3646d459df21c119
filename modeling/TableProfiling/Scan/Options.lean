import TableProfiling.Failure
import TableProfiling.Scan.Descriptor

namespace TableProfiling.Scan

-- Options for a scan. Those of a user go over those that follow from a declaration, and what comes
-- of it is checked when it is made into a descriptor.
structure Options where
  column : Option String := none
  kind : Option PartitionKind := none
  unit : Option IntervalUnit := none
  interval : Option UInt32 := none
  values : Option (List Json.Value) := none
  rangeStart : Option Int64 := none
  rangeEnd : Option Int64 := none

namespace Options

-- Whether an interval of time or a bound of a range is set.
def hasInterval (o : Options) : Bool :=
  o.unit.isSome || o.interval.isSome || o.rangeStart.isSome || o.rangeEnd.isSome

-- A scan is restricted by values or by an interval, not by both.
def checkExclusive (o : Options) : Except PartitionFault Unit :=
  if o.values.isSome && o.hasInterval then .error .valuesWithInterval else .ok ()

def unitOf : Option String → Except PartitionFault (Option IntervalUnit)
  | none => .ok none
  | some name =>
    match IntervalUnit.ofName? name with
    | some unit => .ok (some unit)
    | none => .error (.unknownUnit name)

-- The options that a user sets. A list of no values sets none.
def ofOverride (o : Override) : Except PartitionFault Options := do
  let unit ← unitOf o.unit
  let options : Options := {
    column := o.column
    kind := o.kind
    unit
    interval := o.interval
    values := o.values.filter (!·.isEmpty)
    rangeStart := o.rangeStart
    rangeEnd := o.rangeEnd }
  options.checkExclusive
  return options

-- Puts options over others. Each option that is set wins by itself; but values come with no
-- interval, so that nothing of the other options remains beside them than the column.
def merge (base overrides : Options) : Options :=
  let column := overrides.column <|> base.column
  match overrides.values with
  | some values => { column, kind := overrides.kind <|> some .columnValue, values := some values }
  | none => {
      column
      kind := overrides.kind <|> base.kind
      unit := overrides.unit <|> base.unit
      interval := overrides.interval <|> base.interval
      values := base.values
      rangeStart := overrides.rangeStart <|> base.rangeStart
      rangeEnd := overrides.rangeEnd <|> base.rangeEnd }

-- A range of integers has both bounds, and they are in order.
def checkRange (o : Options) : Except PartitionFault Unit :=
  if o.kind = some .integerRange then
    match o.rangeStart, o.rangeEnd with
    | some first, some last => if last < first then .error (.inverted first last) else .ok ()
    | _, _ => .error .noBounds
  else
    .ok ()

def columnName (o : Options) : Except PartitionFault String :=
  match o.column with
  | some column => if isBlank column then .error .noColumn else .ok column
  | none => .error .noColumn

-- The descriptor that options make, if they are complete and do not contradict each other.
def descriptor (o : Options) : Except PartitionFault Descriptor := do
  o.checkExclusive
  let column ← o.columnName
  o.checkRange
  return {
    enabled := true
    column
    kind := o.kind
    unit := o.unit
    interval := o.interval
    values := o.values
    rangeStart := o.rangeStart
    rangeEnd := o.rangeEnd }

end TableProfiling.Scan.Options
