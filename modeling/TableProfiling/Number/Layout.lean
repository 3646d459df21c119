import TableProfiling.Number.Shortest

namespace TableProfiling

-- The decisions that one written form of doubles makes.
structure Layout where
  -- The exponents of the leading digit that are written without an exponent.
  least : Int
  most : Int
  -- Whether an exponent that is not negative has a plus sign.
  plus : Bool
  tie : Tie

namespace Layout

def isPositional (l : Layout) (e : Int) : Bool :=
  l.least ≤ e && e ≤ l.most

-- Digits around a decimal point, with at least one digit on either side of it.
def positional (ds : List Char) : Int → List Char
  | .ofNat k =>
    let whole := ds.take (k + 1)
    let fraction := ds.drop (k + 1)
    whole ++ List.replicate (k + 1 - ds.length) '0' ++ '.' ::
      (if fraction.isEmpty then ['0'] else fraction)
  | .negSucc k => '0' :: '.' :: List.replicate k '0' ++ ds

def exponent (l : Layout) (e : Int) : List Char :=
  let sign := if e < 0 then ['-'] else if l.plus then ['+'] else []
  'e' :: sign ++ Nat.toDigits 10 e.natAbs

-- One digit before the point, the others if any behind it, and the exponent.
def scientific (l : Layout) (e : Int) : List Char → List Char
  | [] => l.exponent e
  | [d] => d :: l.exponent e
  | d :: ds => d :: '.' :: ds ++ l.exponent e

def dropTrailingZeros (ds : List Char) : List Char :=
  (ds.reverse.dropWhile (· = '0')).reverse

-- The text of a finite magnitude other than zero.
def magnitude (l : Layout) (m : Nat) : List Char :=
  let d := Decimal.shortest l.tie m
  let e := d.ceiling - 1
  let ds := dropTrailingZeros d.digits
  if l.isPositional e then positional ds e else l.scientific e ds

-- The text of a finite double. It has a fraction or an exponent, so that no double looks like an
-- integer.
def chars (l : Layout) (x : Binary64) : List Char :=
  let text := if x.magnitude = 0 then ['0', '.', '0'] else l.magnitude x.magnitude
  if x.isNegative then '-' :: text else text

end TableProfiling.Layout
