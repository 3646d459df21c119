import TableProfiling.Metric.Results
import TableProfiling.Metric.Validation

namespace TableProfiling

structure ColumnProfile where
  column : String
  results : Metric.Results
  deriving DecidableEq, Repr

structure TableProfile where
  name : String
  results : Metric.Results
  columns : List ColumnProfile := []
  deriving DecidableEq, Repr

def TableProfile.withColumn (p : TableProfile) (c : ColumnProfile) : TableProfile :=
  { p with columns := p.columns ++ [c] }

structure TableTest where
  name : String
  expression : List Validation
  deriving DecidableEq, Repr

structure ColumnTest where
  column : String
  name : String
  expression : List Validation
  deriving DecidableEq, Repr

-- The tests of columns that belong together.
structure ColumnTestGroup where
  tests : List ColumnTest
  deriving DecidableEq, Repr

structure TestResults where
  tableTests : List TableTest := []
  columnTests : List ColumnTestGroup := []
  deriving DecidableEq, Repr

def TestResults.validations (t : TestResults) : List Validation :=
  t.tableTests.flatMap TableTest.expression
    ++ (t.columnTests.flatMap ColumnTestGroup.tests).flatMap ColumnTest.expression

def TestResults.allValid (t : TestResults) : Bool :=
  t.validations.all Validation.valid

-- A profile of a table with the results of its tests, if there were any.
structure Record where
  profile : TableProfile
  tests : Option TestResults := none
  deriving DecidableEq, Repr

def Record.name (r : Record) : String :=
  r.profile.name

end TableProfiling
