import TableProfiling.Metric.Value

namespace TableProfiling.Metric

-- Metrics by their names, in the order in which the names first came up.
structure Results where
  entries : List (String × Metric)
  deriving DecidableEq, Repr

namespace Results

def empty : Results := ⟨[]⟩

-- Replaces the entry of a name where it stands, or adds one at the end.
def put (name : String) (m : Metric) : List (String × Metric) → List (String × Metric)
  | [] => [(name, m)]
  | (n, m') :: es => if n = name then (name, m) :: es else (n, m') :: put name m es

def insert (r : Results) (name : String) (m : Metric) : Results :=
  ⟨put name m r.entries⟩

def ofList (es : List (String × Metric)) : Results :=
  es.foldl (fun r (name, m) => r.insert name m) empty

def get? (r : Results) (name : String) : Option Metric :=
  r.entries.lookup name

def size (r : Results) : Nat :=
  r.entries.length

def isEmpty (r : Results) : Bool :=
  r.entries.isEmpty

end TableProfiling.Metric.Results
