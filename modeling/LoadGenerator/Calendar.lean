/-!
# The Gregorian calendar

Days are counted from 1970-01-01, in both directions. `Date.ofDays` and `Date.toDays` go between
that count and year, month and day. Both look at a year as starting in March, so that the leap day
is the last day of its year: 400 years are then four centuries of 36524 days and one day more, a
century is 25 times four years of 1461 days less one day, and four years are four times 365 days and
one more.
-/

namespace LoadGenerator

/-- A day of the calendar; the year before 1 is 0. -/
structure Date where
  year : Int
  month : Nat
  day : Nat
  deriving DecidableEq, Repr

namespace Date

/-- The days from 0000-03-01 to 1970-01-01. -/
def epoch : Int := 719468

def daysPerEra : Int := 146097

def isLeap (year : Int) : Bool :=
  year % 4 == 0 && (year % 100 != 0 || year % 400 == 0)

def daysInMonth (year : Int) (month : Nat) : Nat :=
  if month = 2 then if isLeap year then 29 else 28
  else if month = 4 ∨ month = 6 ∨ month = 9 ∨ month = 11 then 30
  else 31

/-- Whether the month and the day are on the calendar. -/
def IsValid (d : Date) : Prop :=
  1 ≤ d.month ∧ d.month ≤ 12 ∧ 1 ≤ d.day ∧ d.day ≤ daysInMonth d.year d.month

instance (d : Date) : Decidable d.IsValid :=
  inferInstanceAs (Decidable (_ ∧ _ ∧ _ ∧ _))

/-- The year within four centuries, and the day within that year, of a day within them. -/
def yearOfEra (day : Nat) : Nat × Nat :=
  let century := min (day / 36524) 3
  let day := day - century * 36524
  let fourth := day / 1461
  let day := day - fourth * 1461
  let year := min (day / 365) 3
  (100 * century + 4 * fourth + year, day - year * 365)

/-- The days from the first of March to the first of a month, March being month 0. -/
def daysBefore (month : Nat) : Nat :=
  (153 * month + 2) / 5

/-- The month that a day of a year is in, March being month 0. -/
def monthOf (day : Nat) : Nat :=
  (5 * day + 2) / 153

/-- The date of a day counted from 1970-01-01. -/
def ofDays (days : Int) : Date :=
  let shifted := days + epoch
  let (year, day) := yearOfEra (shifted % daysPerEra).toNat
  let month := monthOf day
  { year := shifted / daysPerEra * 400 + year + if month < 10 then 0 else 1
    month := if month < 10 then month + 3 else month - 9
    day := day - daysBefore month + 1 }

/-- The days from 1970-01-01 to a date. -/
def toDays (d : Date) : Int :=
  let year := if d.month ≤ 2 then d.year - 1 else d.year
  let month := if d.month ≤ 2 then d.month + 9 else d.month - 3
  let inEra := year % 400
  year / 400 * daysPerEra + (365 * inEra + inEra / 4 - inEra / 100) +
    (daysBefore month + d.day - 1 : Nat) - epoch

end Date

end LoadGenerator
