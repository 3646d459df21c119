import TableProfiling.Number.Decimal

namespace TableProfiling

-- Which of two decimals that are equally near is taken: the larger one, or the even one.
inductive Tie
  | up
  | even
  deriving DecidableEq, Repr

def Tie.pick (tie : Tie) (low : Nat) : Nat :=
  match tie with
  | .up => low + 1
  | .even => low + low % 2

namespace Decimal

-- Whether a decimal reads as the finite double of a magnitude.
def ReadsAs (d : Decimal) (m : Nat) : Prop :=
  d.magnitude = m

instance : Decidable (ReadsAs d m) :=
  inferInstanceAs (Decidable (_ = _))

-- The exponent of the leading decimal digit of `a / b`.
def leading (a b : Nat) : Int :=
  if b ≤ a then (Nat.toDigits 10 (a / b)).length - 1 else -(Nat.toDigits 10 (b / a)).length

-- Of the two multiples of `10 ^ exponent` around a magnitude's value, the nearer one that reads
-- back. The farther one counts too: below a power of two the doubles lie closer together than above
-- it, so it may read back where the nearer one does not.
def onGrid? (tie : Tie) (m : Nat) (exponent : Int) : Option Decimal :=
  let a := Binary64.unitsOf m * tenTo (-exponent).toNat
  let b := Binary64.scaled (tenTo exponent.toNat)
  let low := a / b
  let near :=
    if 2 * (a % b) < b then low
    else if b < 2 * (a % b) then low + 1
    else tie.pick low
  let far := if near = low then low + 1 else low
  [⟨near, exponent⟩, ⟨far, exponent⟩].find? (ReadsAs · m)

-- A number of units of `2 ^ -k`, with all its digits.
def ofUnits (u k : Nat) : Decimal where
  coefficient := u * Nat.pow 5 k
  exponent := -k

-- All the digits of a magnitude's value.
def exact (m : Nat) : Decimal :=
  ofUnits (Binary64.unitsOf m) 1074

-- The grids of one digit, two digits, … up to seventeen, which tell any two doubles apart; the
-- first of them on which a decimal reads back has the shortest ones.
def shortest (tie : Tie) (m : Nat) : Decimal :=
  let top := leading (Binary64.unitsOf m) (Binary64.scaled 1)
  (List.range 17).findSome? (fun k : Nat => onGrid? tie m (top - k)) |>.getD (exact m)

theorem readsAs_of_onGrid? (h : onGrid? tie m e = some d) : ReadsAs d m := by
  simpa using List.find?_some h

end TableProfiling.Decimal
