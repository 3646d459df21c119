import TableProfiling.Metric.Value

namespace TableProfiling

-- The ways in which a metric is compared with what is expected.
inductive Comparison
  | eq
  | ne
  | lt
  | le
  | gt
  | ge
  deriving DecidableEq, Repr

namespace Comparison

def name : Comparison → String
  | eq => "eq"
  | ne => "ne"
  | lt => "lt"
  | le => "le"
  | gt => "gt"
  | ge => "ge"

def symbol : Comparison → String
  | eq => "=="
  | ne => "!="
  | lt => "<"
  | le => "<="
  | gt => ">"
  | ge => ">="

def all : List Comparison :=
  [eq, ne, lt, le, gt, ge]

theorem mem_all (c : Comparison) : c ∈ all := by
  cases c <;> decide

-- Whether an order satisfies a comparison.
def accepts : Comparison → Ordering → Bool
  | eq, o => o = .eq
  | ne, o => o ≠ .eq
  | lt, o => o = .lt
  | le, o => o ≠ .gt
  | gt, o => o = .gt
  | ge, o => o ≠ .lt

-- Whether a comparison holds. Of incomparable metrics all that can be said is that they differ.
def holds (c : Comparison) (a b : Metric) : Bool :=
  match a.compare? b with
  | some o => c.accepts o
  | none => c = ne

end Comparison

-- A comparison of a computed metric with an expected one, and its outcome.
structure Validation where
  valid : Bool
  computed : Metric
  operator : Comparison
  expected : Metric
  deriving DecidableEq, Repr

def Validation.evaluate (computed : Metric) (operator : Comparison) (expected : Metric) :
    Validation :=
  { valid := operator.holds computed expected, computed, operator, expected }

end TableProfiling
