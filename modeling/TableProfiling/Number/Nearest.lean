import TableProfiling.Number.Binary64

namespace TableProfiling

-- The natural number nearest to `a / b`, the even one of two that are equally near.
def roundHalfEven (a b : Nat) : Nat :=
  let q := a / b
  let r := a % b
  if 2 * r < b then q
  else if b < 2 * r then q + 1
  else q + q % 2

theorem roundHalfEven_one (a : Nat) : roundHalfEven a 1 = a := by
  simp [roundHalfEven, Nat.mod_one]

namespace Binary64

-- A natural number in units of `2 ^ -1074`.
def scaled (a : Nat) : Nat :=
  a <<< 1074

-- The magnitude of the double nearest to `a / b`. The quotient, in units of `2 ^ -1074`, is rounded
-- to a multiple of `2 ^ shift`, where the shift leaves 53 bits. As the leading bit of those 53 adds
-- one to the exponent, shift and rounded quotient add up to the magnitude, and a carry into the
-- next power of two needs no case of its own. From `infiniteMagnitude` on, no finite double is
-- near.
def nearestMagnitude (a b : Nat) : Nat :=
  let shift := (scaled a / b).log2 - 52
  shift * hiddenBit + roundHalfEven (scaled a) (b <<< shift)

def ofInt (n : Int) : Binary64 :=
  ofMagnitude (n < 0) (nearestMagnitude n.natAbs 1)

end TableProfiling.Binary64
