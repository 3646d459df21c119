import TableProfiling.Number.Integer
import TableProfiling.Number.Layout

namespace TableProfiling

inductive Metric
  | null
  | bool (b : Bool)
  | long (n : Int64)
  | double (x : Binary64)
  | string (s : String)
  deriving DecidableEq, Repr

namespace Metric

-- The value as a double. An integer may have to be rounded.
def toBinary64? : Metric → Option Binary64
  | .long n => some (.ofInt n.toInt)
  | .double x => some x
  | _ => none

def isNull (m : Metric) : Bool :=
  m = null

-- Metrics of the same kind are ordered, texts by their code points. Of an integer and a double, the
-- integer is rounded first. All else is incomparable, and so is what is not a number.
def compare? : Metric → Metric → Option Ordering
  | .bool a, .bool b => some (compare a b)
  | .long a, .long b => some (compare a.toInt b.toInt)
  | .string a, .string b => some (compare a b)
  | a, b => do (← a.toBinary64?).compare? (← b.toBinary64?)

-- Equality of kind and value: both zeros are the same, and what is not a number is not.
def same : Metric → Metric → Bool
  | .double x, .double y => x.compare? y = some .eq
  | a, b => a = b

-- Doubles in reports have an exponent below `0.0001` and from seventeen digits on.
def layout : Layout where
  least := -4
  most := 15
  plus := false
  tie := .up

-- A double in a report. Whole numbers keep their fraction.
def doubleText (x : Binary64) : String :=
  if x.isNaN then "NaN"
  else if x.isInfinite then if x.isNegative then "-inf" else "inf"
  else .ofList (layout.chars x)

def text : Metric → String
  | .null => "null"
  | .bool b => if b then "true" else "false"
  | .long n => integerText n.toInt
  | .double x => doubleText x
  | .string s => s

end TableProfiling.Metric
