namespace TableProfiling

-- A date of the Gregorian calendar, extended to all years before and after it came into use.
structure Date where
  year : Int
  -- From one to twelve.
  month : Nat
  -- From one on.
  day : Nat
  deriving DecidableEq, Repr

namespace Date

def isLeapYear (y : Int) : Bool :=
  y % 4 = 0 && (y % 100 ≠ 0 || y % 400 = 0)

-- The lengths of the months of a year.
def monthLengths (y : Int) : List Nat :=
  [31, if isLeapYear y then 29 else 28, 31, 30, 31, 30, 31, 31, 30, 31, 30, 31]

-- The number of days in the months of a year before one of them.
def daysBeforeMonth (y : Int) (m : Nat) : Nat :=
  ((monthLengths y).take (m - 1)).foldr (· + ·) 0

def daysInMonth (y : Int) (m : Nat) : Nat :=
  (monthLengths y).getD (m - 1) 0

-- The number of days between the first days of the year 1 and of another year.
def daysBeforeYear (y : Int) : Int :=
  365 * (y - 1) + (y - 1) / 4 - (y - 1) / 100 + (y - 1) / 400

-- The number of days between the first day of the year 1 and a date.
def dayNumber (d : Date) : Int :=
  daysBeforeYear d.year + daysBeforeMonth d.year d.month + (d.day - 1)

-- The year of a day. As 400 years have 146097 days, a multiplication gives it, or else the year
-- before or after it.
def yearOf (n : Int) : Int :=
  let y := 400 * n / 146097 + 1
  if n < daysBeforeYear y then y - 1
  else if daysBeforeYear (y + 1) ≤ n then y + 1
  else y

-- The month and the day in it, for a number of days after the first of the months.
def monthOf : List Nat → Nat → Nat × Nat
  | [], n => (1, n + 1)
  | l :: ls, n =>
    if n < l then (1, n + 1)
    else
      let (m, d) := monthOf ls (n - l)
      (m + 1, d)

def ofDayNumber (n : Int) : Date :=
  let year := yearOf n
  let (month, day) := monthOf (monthLengths year) (n - daysBeforeYear year).toNat
  { year, month, day }

-- The same day a number of months earlier, or the last day of that month if it has fewer days.
def minusMonths (d : Date) (n : Nat) : Date :=
  let q := 12 * d.year + (d.month - 1 : Nat) - n
  let year := q / 12
  let month := (q % 12).toNat + 1
  { year, month, day := min d.day (daysInMonth year month) }

end TableProfiling.Date
