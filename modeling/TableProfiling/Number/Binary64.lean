namespace TableProfiling

-- A double is its 64 bits: both zeros and all the forms of not-a-number stay apart.
structure Binary64 where
  bits : UInt64
  deriving DecidableEq, Repr

namespace Binary64

-- The bit of the sign, above 63 other bits.
abbrev signBit : Nat := 0x8000000000000000

-- The leading bit of a number, which is not stored, above 52 bits that are.
abbrev hiddenBit : Nat := 0x10000000000000

-- The magnitude of the infinities; what is above it is not a number.
abbrev infiniteMagnitude : Nat := 0x7ff0000000000000

def isNegative (x : Binary64) : Bool :=
  signBit ≤ x.bits.toNat

-- The bits below the sign. They grow with the absolute value of the double.
def magnitude (x : Binary64) : Nat :=
  x.bits.toNat % signBit

def isFinite (x : Binary64) : Bool :=
  x.magnitude < infiniteMagnitude

def isNaN (x : Binary64) : Bool :=
  infiniteMagnitude < x.magnitude

def isInfinite (x : Binary64) : Bool :=
  x.magnitude = infiniteMagnitude

def ofMagnitude (negative : Bool) (m : Nat) : Binary64 :=
  ⟨.ofNat (if negative then signBit + m else m)⟩

-- The value of a magnitude, in units of `2 ^ -1074`. Below the hidden bit the fraction stands
-- alone; above, it has that bit in front and is shifted by the exponent. An infinity counts as `2 ^
-- 1024`, the first value that no finite double reaches.
def unitsOf (m : Nat) : Nat :=
  if m < hiddenBit then m else (hiddenBit + m % hiddenBit) <<< (m / hiddenBit - 1)

def units (x : Binary64) : Nat :=
  unitsOf x.magnitude

-- The signed value of a double that is a number, in units of `2 ^ -1074`.
def value (x : Binary64) : Int :=
  if x.isNegative then -x.units else x.units

-- Numbers compare by their values, so the two zeros are equal; all else is incomparable.
def compare? (x y : Binary64) : Option Ordering :=
  if x.isNaN || y.isNaN then none else some (compare x.value y.value)

@[simp]
theorem compare?_eq_none_iff {x y : Binary64} : x.compare? y = none ↔ x.isNaN ∨ y.isNaN := by
  cases hx : x.isNaN <;> simp [compare?, hx]

end TableProfiling.Binary64
