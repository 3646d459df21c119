import TableProfiling.Calendar.Date

namespace TableProfiling

-- The seconds since the beginning of 1970, and the nanoseconds since the last of them. From
-- 1000000000 on the nanoseconds belong to a leap second, which follows that second.
structure Instant where
  seconds : Int
  nanos : Nat
  deriving DecidableEq, Repr

namespace Instant

def firstYear : Int := -262143

def lastYear : Int := 262142

-- The day number of the first day of 1970.
def epoch : Int :=
  Date.daysBeforeYear 1970

def firstSecond : Int :=
  (Date.daysBeforeYear firstYear - epoch) * 86400

def lastSecond : Int :=
  (Date.daysBeforeYear (lastYear + 1) - epoch) * 86400 - 1

def InRange (t : Instant) : Prop :=
  firstSecond ≤ t.seconds ∧ t.seconds ≤ lastSecond

instance : Decidable (InRange t) :=
  inferInstanceAs (Decidable (_ ∧ _))

def inRange? (t : Instant) : Option Instant :=
  if t.InRange then some t else none

def date (t : Instant) : Date :=
  .ofDayNumber (t.seconds / 86400 + epoch)

def secondOfDay (t : Instant) : Int :=
  t.seconds % 86400

-- An instant at the same time of another day.
def withDate (t : Instant) (d : Date) : Instant :=
  { t with seconds := (d.dayNumber - epoch) * 86400 + t.secondOfDay }

-- A number of seconds earlier. Who leaves a leap second counts from the end of it.
def minusSeconds? (t : Instant) (n : Nat) : Option Instant :=
  if n = 0 then t.inRange?
  else if t.nanos < 1000000000 then inRange? ⟨t.seconds - n, t.nanos⟩
  else inRange? ⟨t.seconds + 1 - n, t.nanos - 1000000000⟩

-- A number of months earlier, at the same time of the day.
def minusMonths? (t : Instant) (n : Nat) : Option Instant :=
  if n = 0 then some t
  else
    let d := t.date.minusMonths n
    if d.year < firstYear then none else some (t.withDate d)

end TableProfiling.Instant
