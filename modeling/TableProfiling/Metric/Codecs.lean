import TableProfiling.Json.Record
import TableProfiling.Metric.Record

namespace TableProfiling

open Json

namespace Metric

-- The metric of a JSON value. An integer that does not fit becomes a double.
def ofValue? : Value → Option Metric
  | .null => some .null
  | .bool b => some (.bool b)
  | .number (.integer n _) => some (if n < 0x8000000000000000 then .long (.ofInt n) else .double (.ofInt n))
  | .number (.double x _) => some (.double x)
  | .string s => some (.string s)
  | .array _ | .object _ => none

def toValue : Metric → Value
  | .null => .null
  | .bool b => .bool b
  | .long n => .ofInt64 n
  | .double x => .ofDouble x
  | .string s => .string s

-- The kind of a metric is told from its value, which is therefore read as a whole first.
def codec : Codec Metric where
  decode o d := do
    match ofValue? (← d.value o) with
    | some m => return m
    | none => .error (.shape .noMetric)
  encode := toValue

namespace Results

-- Inserts the members of an object one after the other.
def insertMembers (o : Origin) (r : Results) : Members → Except Fault Results
  | .done => .ok r
  | .broken b => .error b.onRead
  | .stray _ => .error .malformed
  | .more none _ _ => .error .malformed
  | .more (some name) d rest => do
    let m ← Metric.codec.decode o d
    (r.insert name m).insertMembers o rest

def codec : Codec Results where
  decode
    | o, .object ms => do empty.insertMembers (← o.enter) ms
    | _, d => .error (d.mismatch .map)
  encode r := .object (r.entries.map fun (name, m) => (name, m.toValue))

end Results

end Metric

def Comparison.codec : Codec Comparison :=
  .names ⟨all.map fun c => (c, [c.name]), name⟩

def Validation.codec : Codec Validation :=
  .record "Validation"
    (.cons (.required "valid" .bool)
      (.cons (.required "computed_metric" Metric.codec)
        (.cons (.required "operator" Comparison.codec)
          (.cons (.required "value" Metric.codec) .nil))))
    (fun (valid, computed, operator, expected, ()) => { valid, computed, operator, expected })
    (fun v => (v.valid, v.computed, v.operator, v.expected, ()))

def ColumnProfile.codec : Codec ColumnProfile :=
  .record "ColumnProfile"
    (.cons (.required "column" .string)
      (.cons (.required "results" Metric.Results.codec) .nil))
    (fun (column, results, ()) => { column, results })
    (fun p => (p.column, p.results, ()))

def TableProfile.codec : Codec TableProfile :=
  .record "TableProfile"
    (.cons (.required "fully_qualified_name" .string)
      (.cons (.required "table_results" Metric.Results.codec)
        (.cons (.defaulted "column_profiles" (.list ColumnProfile.codec) []) .nil)))
    (fun (name, results, columns, ()) => { name, results, columns })
    (fun p => (p.name, p.results, p.columns, ()))

def TableTest.codec : Codec TableTest :=
  .record "TableTestResult"
    (.cons (.required "name" .string)
      (.cons (.required "expression" (.list Validation.codec)) .nil))
    (fun (name, expression, ()) => { name, expression })
    (fun t => (t.name, t.expression, ()))

def ColumnTest.codec : Codec ColumnTest :=
  .record "ColumnTestResult"
    (.cons (.required "column" .string)
      (.cons (.required "name" .string)
        (.cons (.required "expression" (.list Validation.codec)) .nil)))
    (fun (column, name, expression, ()) => { column, name, expression })
    (fun t => (t.column, t.name, t.expression, ()))

def ColumnTestGroup.codec : Codec ColumnTestGroup :=
  .record "ColumnTests"
    (.cons (.required "columns" (.list ColumnTest.codec)) .nil)
    (fun (tests, ()) => { tests })
    (fun g => (g.tests, ()))

def TestResults.codec : Codec TestResults :=
  .record "TestResults"
    (.cons (.defaulted "table_tests" (.list TableTest.codec) [])
      (.cons (.defaulted "column_tests" (.list ColumnTestGroup.codec) []) .nil))
    (fun (tableTests, columnTests, ()) => { tableTests, columnTests })
    (fun t => (t.tableTests, t.columnTests, ()))

def Record.codec : Codec Record :=
  .record "ProfileAndTests"
    (.cons (.required "profile" TableProfile.codec)
      (.cons (.optional "tests" TestResults.codec) .nil))
    (fun (profile, tests, ()) => { profile, tests })
    (fun r => (r.profile, r.tests, ()))

end TableProfiling
