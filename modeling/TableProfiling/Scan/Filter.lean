import TableProfiling.Calendar.Instant
import TableProfiling.Scan.Identifier
import TableProfiling.Scan.Strategy

namespace TableProfiling

inductive Filter
  | timeWindow (column : String) (unit : IntervalUnit) (interval : UInt32)
  | values (column : String) (values : List Json.Value)
  | integerRange (column : String) (first last : Int64)

-- Values come before a range and a range before a window; one bound alone makes no filter.
def Descriptor.filter (d : Descriptor) : Option Filter :=
  if d.enabled then
    match d.values, d.rangeStart, d.rangeEnd, d.unit, d.interval with
    | some values, _, _, _, _ => some (.values d.column values)
    | none, some first, some last, _, _ => some (.integerRange d.column first last)
    | none, _, _, some unit, some interval => some (.timeWindow d.column unit interval)
    | _, _, _, _, _ => none
  else
    none

namespace Filter

def column : Filter → String
  | timeWindow column .. | values column _ | integerRange column .. => column

-- A text in a query: apostrophes are doubled.
def textLiteral (s : String) : String :=
  .ofList ('\'' :: s.toList.flatMap (fun c => if c = '\'' then ['\'', '\''] else [c]) ++ ['\''])

def literal : Json.Value → Except ConfigurationFault String
  | .string s => .ok (textLiteral s)
  | .number n => .ok (.ofList n.chars)
  | .bool true => .ok "TRUE"
  | .bool false => .ok "FALSE"
  | v => .error (.unsupportedValue v)

-- The start of a window. Hours are counted back from now, longer units from today.
def bound (unit : IntervalUnit) (interval : UInt32) : String :=
  let n := toString interval.toNat
  match unit with
  | .hour => "TIMESTAMP_SUB(CURRENT_TIMESTAMP(), INTERVAL " ++ n ++ " HOUR)"
  | unit => "DATE_SUB(CURRENT_DATE(), INTERVAL " ++ n ++ " " ++ unit.name ++ ")"

-- The start of a window in the type of the column, which is known for pseudo-columns.
def columnBound (column : String) (unit : IntervalUnit) (interval : UInt32) : String :=
  let b := bound unit interval
  if column = Scan.timeColumn ∧ unit ≠ .hour then "TIMESTAMP(" ++ b ++ ")"
  else if column = Scan.dateColumn ∧ unit = .hour then "DATE(" ++ b ++ ")"
  else b

-- What a filter demands of its column.
def condition : Filter → Except ConfigurationFault String
  | timeWindow column unit interval => .ok (">= " ++ columnBound column unit interval)
  | values _ vs => do
    let literals ← vs.mapM literal
    return "IN (" ++ ", ".intercalate literals ++ ")"
  | integerRange _ first last =>
    .ok ("BETWEEN " ++ integerText first.toInt ++ " AND " ++ integerText last.toInt)

-- The condition in a query. A faulty column is reported before faulty values.
def sql (f : Filter) : Except Failure String := do
  let column ← (Scan.quoteIdentifier f.column).mapError .identifier
  let condition ← f.condition.mapError .configuration
  return column ++ " " ++ condition

-- The months of a number of years, unless there are too many of them to be counted.
def monthsOfYears? (n : UInt32) : Option Nat :=
  let months := 12 * n.toNat
  if months < 0x100000000 then some months else none

-- A length of time in seconds. Its milliseconds are counted by a signed word of 64 bits; there is
-- no longer one, and the program would stop.
def span? (seconds : Nat) : Option Nat :=
  if 1000 * seconds ≤ Int64.maxValue.toInt then some seconds else none

-- The start of a window that ends at an instant, if the calendar goes back so far. There is not even
-- an answer if there is no such length of time as the hours or days are subtracted as.
def windowStart? (f : Filter) (now : Instant) : Option (Option Instant) :=
  match f with
  | timeWindow _ unit interval =>
    let n := interval.toNat
    match unit with
    | .hour  => (span? (n * 3600)).map now.minusSeconds?
    | .day   => (span? (n * 86400)).map now.minusSeconds?
    | .month => some (now.minusMonths? n)
    | .year  => some do now.minusMonths? (← monthsOfYears? interval)
  | _ => some none

def windowStart (f : Filter) (now : Instant) : Option Instant :=
  (f.windowStart? now).join

end TableProfiling.Filter
