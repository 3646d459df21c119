namespace TableProfiling

inductive IntervalUnit
  | hour
  | day
  | month
  | year
  deriving DecidableEq, Repr

namespace IntervalUnit

def name : IntervalUnit → String
  | hour => "HOUR"
  | day => "DAY"
  | month => "MONTH"
  | year => "YEAR"

-- The name of a unit in messages about it.
def label : IntervalUnit → String
  | hour => "Hour"
  | day => "Day"
  | month => "Month"
  | year => "Year"

def all : List IntervalUnit :=
  [hour, day, month, year]

theorem mem_all (u : IntervalUnit) : u ∈ all := by
  cases u <;> decide

-- The unit of a name, which must be spelled exactly.
def ofName? (s : String) : Option IntervalUnit :=
  all.find? (·.name = s)

theorem ofName?_name (u : IntervalUnit) : ofName? u.name = some u := by
  cases u <;> decide

theorem name_of_ofName? (h : ofName? s = some u) : u.name = s := by
  simpa using List.find?_some h

end IntervalUnit

-- The kinds of partitions that a catalogue can declare.
inductive DeclaredKind
  | timeUnit
  | ingestionTime
  | integerRange
  deriving DecidableEq, Repr

-- The kinds of partitions that a scan can be restricted by.
inductive PartitionKind
  | timeUnit
  | ingestionTime
  | integerRange
  | columnValue
  deriving DecidableEq, Repr

def DeclaredKind.toPartitionKind : DeclaredKind → PartitionKind
  | timeUnit => .timeUnit
  | ingestionTime => .ingestionTime
  | integerRange => .integerRange

instance : Coe DeclaredKind PartitionKind where
  coe := DeclaredKind.toPartitionKind

namespace PartitionKind

def name : PartitionKind → String
  | timeUnit => "TIME-UNIT"
  | ingestionTime => "INGESTION-TIME"
  | integerRange => "INTEGER-RANGE"
  | columnValue => "COLUMN-VALUE"

-- An older spelling, which is still understood.
def olderName : PartitionKind → String
  | timeUnit => "TIME_UNIT"
  | ingestionTime => "INGESTION_TIME"
  | integerRange => "INTEGER_RANGE"
  | columnValue => "COLUMN_VALUE"

-- The name of a kind in messages about it.
def label : PartitionKind → String
  | timeUnit => "TimeUnit"
  | ingestionTime => "IngestionTime"
  | integerRange => "IntegerRange"
  | columnValue => "ColumnValue"

end PartitionKind

-- What a catalogue declares about the partitions of a table.
structure Declaration where
  columns : List String
  kind : DeclaredKind
  interval : Option String
  deriving DecidableEq, Repr

end TableProfiling
