import TableProfiling.Json.Value

namespace TableProfiling.Report

structure Tally where
  records : List String := []
  warnings : List String := []
  failures : List String := []
  deriving DecidableEq, Repr

namespace Tally

def written (t : Tally) (record : String) : Tally :=
  { t with records := t.records ++ [record] }

def warning (t : Tally) (key reason : String) : Tally :=
  { t with warnings := t.warnings ++ [key ++ ": " ++ reason] }

def failure (t : Tally) (key reason : String) : Tally :=
  { t with failures := t.failures ++ [key ++ ": " ++ reason] }

def hasFailures (t : Tally) : Bool :=
  !t.failures.isEmpty

open Json in
def toValue (t : Tally) : Value :=
  let strings (ss : List String) : Value := .array (ss.map .string)
  .object [("records", strings t.records), ("warnings", strings t.warnings),
    ("failures", strings t.failures)]

end TableProfiling.Report.Tally
