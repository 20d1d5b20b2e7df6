/-!
# The calendar

Days are counted from the first day of the year 0 of the Gregorian calendar, extended without
end in both directions, and every day has a year, a month and a day of the month. The module
knows no time of day and no text.
-/

namespace QueryCache.Time

/-- A day of the calendar. -/
structure Date where
  year : Int
  month : Nat
  day : Nat
  deriving DecidableEq, Repr

/-- A leap year is divisible by 4, and if by 100 then also by 400. -/
def isLeap (year : Int) : Bool :=
  year % 4 = 0 && (year % 100 ≠ 0 || year % 400 = 0)

/-- The lengths of the months. -/
def monthLengths (leap : Bool) : List Nat :=
  [31, if leap then 29 else 28, 31, 30, 31, 30, 31, 31, 30, 31, 30, 31]

/-- The number of days of a year before a month. -/
def daysBeforeMonth (leap : Bool) (month : Nat) : Nat :=
  ((monthLengths leap).take (month - 1)).foldr (· + ·) 0

/-- The number of days before a year, negative before the year 0. -/
def daysBeforeYear (year : Int) : Int :=
  365 * year + (year + 3) / 4 - (year + 99) / 100 + (year + 399) / 400

/-- The year in which a day lies. The mean length of a year gives a year that is off by one at
most. -/
def yearOf (days : Int) : Int :=
  let guess := days * 400 / 146097
  if days < daysBeforeYear guess then guess - 1
  else if daysBeforeYear (guess + 1) ≤ days then guess + 1
  else guess

/-- The month and the day of the month of a day of the year, counted from 0, by walking through
the months from the given one on. -/
def monthAndDay : Nat → List Nat → Nat → Nat × Nat
  | month, [], day => (month, day + 1)
  | month, length :: lengths, day =>
      if day < length then (month, day + 1) else monthAndDay (month + 1) lengths (day - length)

/-- The date of a day. -/
def Date.ofDays (days : Int) : Date :=
  let year := yearOf days
  let (month, day) :=
    monthAndDay 1 (monthLengths (isLeap year)) (days - daysBeforeYear year).toNat
  ⟨year, month, day⟩

/-- The date exists. -/
def Date.isValid (date : Date) : Bool :=
  1 ≤ date.month && 1 ≤ date.day &&
    match (monthLengths (isLeap date.year))[date.month - 1]? with
    | some length => date.day ≤ length
    | none => false

/-- The day of a date. -/
def Date.toDays (date : Date) : Int :=
  daysBeforeYear date.year +
    (daysBeforeMonth (isLeap date.year) date.month + date.day - 1 : Nat)

end QueryCache.Time
