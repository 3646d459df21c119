import TableProfiling.Number.Nearest

namespace TableProfiling

-- The number `coefficient * 10 ^ exponent`.
structure Decimal where
  coefficient : Nat
  exponent : Int
  deriving DecidableEq, Repr

def tenTo (n : Nat) : Nat :=
  Nat.pow 10 n

namespace Decimal

def digits (d : Decimal) : List Char :=
  Nat.toDigits 10 d.coefficient

-- A decimal other than zero is below ten to this power, and at least a tenth of that.
def ceiling (d : Decimal) : Int :=
  d.digits.length + d.exponent

-- The magnitude of the nearest double. From `10 ^ 309` on no double is near, and below `10 ^ -324`
-- the nearest is zero; in between, the power of ten is small enough to be computed.
def magnitude (d : Decimal) : Nat :=
  if d.coefficient = 0 then 0
  else if 310 ≤ d.ceiling then Binary64.infiniteMagnitude
  else if d.ceiling ≤ -324 then 0
  else if 0 ≤ d.exponent then Binary64.nearestMagnitude (d.coefficient * tenTo d.exponent.toNat) 1
  else Binary64.nearestMagnitude d.coefficient (tenTo d.exponent.natAbs)

-- The double nearest to a decimal with a sign, unless the decimal is out of range.
def toBinary64? (negative : Bool) (d : Decimal) : Option Binary64 :=
  if d.magnitude < Binary64.infiniteMagnitude then
    some (.ofMagnitude negative d.magnitude)
  else
    none

end TableProfiling.Decimal
