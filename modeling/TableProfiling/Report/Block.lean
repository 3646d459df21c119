import TableProfiling.Metric.Record

namespace TableProfiling.Report

-- Whether a report has the results of tests beside the profiles.
structure Config where
  includeTests : Bool := true
  deriving DecidableEq, Repr

def metricLine (indent : String) (name : String) (m : Metric) : String :=
  indent ++ name ++ ": " ++ m.text

def metricLines (indent : String) (r : Metric.Results) : List String :=
  r.entries.map fun (name, m) => metricLine indent name m

def columnLines (c : ColumnProfile) : List String :=
  ("\tColumn [" ++ c.column ++ "]:") :: metricLines "\t\t" c.results

def profileLines (p : TableProfile) : List String :=
  ("Profile for: " ++ p.name) :: "Table Profile results:" :: metricLines "\t" p.results
    ++ "Column Profile results:" :: p.columns.flatMap columnLines

-- What came of an expectation.
def outcome (v : Validation) : String :=
  (if v.valid then "true" else "false") ++ ", (Real) " ++ v.computed.text ++ " <" ++ v.operator.name
    ++ "> " ++ v.expected.text ++ " (expected)"

def tableTestLines (t : TableTest) : List String :=
  "\tTable Tests results:" :: t.expression.map fun v => "\t\t" ++ t.name ++ ": " ++ outcome v

def columnTestLines (t : ColumnTest) : List String :=
  t.expression.map fun v => "\t\t[" ++ t.column ++ "] - " ++ t.name ++ ": " ++ outcome v

def groupLines (g : ColumnTestGroup) : List String :=
  "\tColumn Tests results:" :: g.tests.flatMap columnTestLines

def testLines (t : TestResults) : List String :=
  "" :: "Test results:" :: t.tableTests.flatMap tableTestLines ++ t.columnTests.flatMap groupLines

-- The tests of a record that a report shows.
def shownTests (c : Config) (r : Record) : Option TestResults :=
  if c.includeTests then r.tests else none

-- The lines of a block, as far as none of the names and values in them breaks a line.
def lines (c : Config) (r : Record) : List String :=
  profileLines r.profile ++ ((shownTests c r).map testLines).getD []

-- Lines, each with its line feed.
def terminated (ls : List String) : String :=
  .join (ls.map (· ++ "\n"))

def block (c : Config) (r : Record) : String :=
  terminated (lines c r)

end TableProfiling.Report
