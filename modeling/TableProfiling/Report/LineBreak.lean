import TableProfiling.Report.Block
import TableProfiling.Text.Escape

namespace TableProfiling.Report

def hasBreak (s : String) : Bool :=
  s.toList.any fun c => c = '\n' || c = '\r'

-- The name of a thing within a message about line breaks.
def named (thing name : String) : String :=
  thing ++ " '" ++ escaped name ++ "'"

def entryBreaks (e : String × Metric) : Bool :=
  hasBreak e.1 || hasBreak e.2.text

def validationBreaks (v : Validation) : Bool :=
  hasBreak v.computed.text || hasBreak v.expected.text

def metricBreaks (label : String → String) (r : Metric.Results) : List String :=
  (r.entries.filter entryBreaks).map fun (name, _) => label name

def columnBreaks (c : ColumnProfile) : List String :=
  (if hasBreak c.column then [named "column" c.column] else [])
    ++ metricBreaks (fun name => named "column" c.column ++ " " ++ named "metric" name) c.results

def profileBreaks (p : TableProfile) : List String :=
  (if hasBreak p.name then ["table name"] else [])
    ++ metricBreaks (named "table metric") p.results
    ++ p.columns.flatMap columnBreaks

def tableTestBreaks (t : TableTest) : List String :=
  (if hasBreak t.name then [named "table test" t.name] else [])
    ++ (if t.expression.any validationBreaks then [named "table test" t.name ++ " validation"] else [])

def columnTestBreaks (t : ColumnTest) : List String :=
  let label := named (named "column test" t.name ++ " on") t.column
  (if hasBreak t.column || hasBreak t.name then [label] else [])
    ++ (if t.expression.any validationBreaks then [label ++ " validation"] else [])

def testBreaks (t : TestResults) : List String :=
  t.tableTests.flatMap tableTestBreaks
    ++ (t.columnTests.flatMap ColumnTestGroup.tests).flatMap columnTestBreaks

-- What breaks lines in the part of a record that a report shows, in the order of the report.
def lineBreaks (c : Config) (r : Record) : List String :=
  profileBreaks r.profile ++ ((shownTests c r).map testBreaks).getD []

end TableProfiling.Report
