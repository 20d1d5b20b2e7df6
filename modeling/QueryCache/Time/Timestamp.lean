import QueryCache.Time.Calendar

/-!
# Timestamps

A timestamp is a moment of universal time with the precision of a nanosecond. A leap second is
held as the second before it with a thousand million nanoseconds or more; such a one can stand at
any second, although leap seconds follow the last second of a minute only. The text of a timestamp
follows RFC 3339: the fraction has 0, 3, 6 or 9 digits, as few as keep it, and a year that four
digits cannot tell has a sign. A leap second at the end of a minute is told by a sixtieth second,
and any other as the second that follows.

The reader is more liberal. It takes any offset, blanks between the parts, one digit where two
are usual, a fraction of any length, and `UTC` for the offset.
-/

namespace QueryCache.Time

/-- A moment: seconds since the start of 1970, and nanoseconds after them. -/
structure Timestamp where
  seconds : Int
  nanos : Nat
  deriving DecidableEq, Repr, Inhabited

/-- The day on which 1970 begins. -/
def epochDay : Int := daysBeforeYear 1970

/-- The seconds of a day. -/
def secondsPerDay : Int := 86400

/-- The first and the last year of which timestamps tell. -/
def firstYear : Int := -262143

/-- The last year of which timestamps tell. -/
def lastYear : Int := 262142

namespace Timestamp

/-- The day of a moment. -/
def days (moment : Timestamp) : Int :=
  moment.seconds / secondsPerDay + epochDay

/-- The second of its day in which a moment lies. -/
def secondOfDay (moment : Timestamp) : Nat :=
  (moment.seconds % secondsPerDay).toNat

/-- A moment that a timestamp can hold: the year is one of which timestamps tell, and the
nanoseconds are less than two seconds, those beyond the first belonging to a leap second. -/
def IsValid (moment : Timestamp) : Prop :=
  firstYear ≤ yearOf moment.days ∧ yearOf moment.days ≤ lastYear ∧ moment.nanos < 2000000000

/-- A leap second that does not follow the last second of a minute. -/
def IsStray (moment : Timestamp) : Prop :=
  1000000000 ≤ moment.nanos ∧ moment.seconds % 60 ≠ 59

instance (moment : Timestamp) : Decidable moment.IsStray :=
  inferInstanceAs (Decidable (_ ∧ _))

/-- The moment of which the text of a moment tells: the second that follows a leap second which does
not stand at the end of a minute, and else the moment itself. -/
def told (moment : Timestamp) : Timestamp :=
  if moment.IsStray then ⟨moment.seconds + 1, moment.nanos - 1000000000⟩ else moment

theorem told_eq_self_iff {moment : Timestamp} : moment.told = moment ↔ ¬ moment.IsStray := by
  unfold told
  split
  · rename_i stray
    refine iff_of_false (fun same => ?_) (not_not_intro stray)
    have later : moment.seconds + 1 = moment.seconds := congrArg seconds same
    omega
  · rename_i regular
    exact iff_of_true rfl regular

end Timestamp

/-- A number in decimal digits, filled up with zeros on the left. -/
def padded (width value : Nat) : List Char :=
  let digits := Nat.toDigits 10 value
  List.replicate (width - digits.length) '0' ++ digits

/-- A year, with a sign unless four digits tell it. -/
def yearChars (year : Int) : List Char :=
  if 0 ≤ year ∧ year ≤ 9999 then padded 4 year.toNat
  else (if year < 0 then '-' else '+') :: padded 4 year.natAbs

/-- A fraction of a second. -/
def fractionChars (nanos : Nat) : List Char :=
  if nanos = 0 then []
  else if nanos % 1000000 = 0 then '.' :: padded 3 (nanos / 1000000)
  else if nanos % 1000 = 0 then '.' :: padded 6 (nanos / 1000)
  else '.' :: padded 9 nanos

namespace Timestamp

/-- The characters of a timestamp. -/
def chars (moment : Timestamp) : List Char :=
  let date := Date.ofDays moment.days
  let clock := moment.secondOfDay
  yearChars date.year ++ '-' :: padded 2 date.month ++ '-' :: padded 2 date.day ++
    'T' :: padded 2 (clock / 3600) ++ ':' :: padded 2 (clock / 60 % 60) ++
    ':' :: padded 2 (clock % 60 + moment.nanos / 1000000000) ++
    fractionChars (moment.nanos % 1000000000) ++ ['Z']

/-- The text of a timestamp. -/
def text (moment : Timestamp) : String :=
  String.ofList moment.chars

end Timestamp

/-- The characters that may stand between the parts of a timestamp: the white space of Unicode. -/
def isGap (c : Char) : Bool :=
  let n := c.toNat
  (0x09 ≤ n && n ≤ 0x0D) || n = 0x20 || n = 0x85 || n = 0xA0 || n = 0x1680 ||
    (0x2000 ≤ n && n ≤ 0x200A) || n = 0x2028 || n = 0x2029 || n = 0x202F || n = 0x205F ||
    n = 0x3000

/-- What is left after white space. -/
def skipGaps (cs : List Char) : List Char :=
  cs.dropWhile isGap

/-- Reads a part of a timestamp. -/
abbrev PartReader (α : Type) := List Char → Option (α × List Char)

/-- The largest number that 64 bits with a sign hold. Longer digits are refused. -/
def largestNumber : Nat := UInt64.size / 2 - 1

/-- Reads digits up to the given count, at least one. -/
def readDigits (most : Nat) : PartReader Nat := fun cs =>
  let digits := (cs.take most).takeWhile Char.isDigit
  let value := digits.foldl (fun value c => 10 * value + (c.toNat - '0'.toNat)) 0
  if digits.isEmpty ∨ largestNumber < value then none
  else some (value, cs.drop digits.length)

/-- Reads white space and then a number in a range. -/
def readInRange (most low high : Nat) : PartReader Nat := fun cs => do
  let (value, rest) ← readDigits most (skipGaps cs)
  if low ≤ value ∧ value ≤ high then return (value, rest) else none

/-- Reads white space and then a given character. -/
def readMark (mark : Char) : PartReader Unit := fun cs =>
  match skipGaps cs with
  | c :: rest => if c = mark then some ((), rest) else none
  | [] => none

/-- Reads a year: four digits, or a sign and any number of them. -/
def readSignedYear : PartReader Int
  | '-' :: rest => (readDigits rest.length rest).map fun read => (-(read.1 : Int), read.2)
  | '+' :: rest => (readDigits rest.length rest).map fun read => ((read.1 : Int), read.2)
  | rest => (readDigits 4 rest).map fun read => ((read.1 : Int), read.2)

/-- Reads white space and then a year that 32 bits hold. -/
def readYear : PartReader Int := fun cs => do
  let (year, rest) ← readSignedYear (skipGaps cs)
  if Int32.minValue.toInt ≤ year ∧ year ≤ Int32.maxValue.toInt then return (year, rest) else none

/-- Reads the date of a timestamp. -/
def readDate : PartReader Date := fun cs => do
  let (year, rest) ← readYear cs
  let ((), rest) ← readMark '-' rest
  let (month, rest) ← readInRange 2 1 12 rest
  let ((), rest) ← readMark '-' rest
  let (day, rest) ← readInRange 2 1 31 rest
  return (⟨year, month, day⟩, rest)

/-- Reads the nanoseconds of a fraction, if a point follows. Digits beyond the ninth are read
and dropped. -/
def readFraction : PartReader Nat
  | '.' :: cs => do
      let (value, rest) ← readDigits 9 cs
      let count := cs.length - rest.length
      return (value * Nat.pow 10 (9 - count), rest.dropWhile Char.isDigit)
  | cs => some (0, cs)

/-- A time of day: hour, minute, second up to 60 and nanoseconds. -/
structure TimeOfDay where
  hour : Nat
  minute : Nat
  second : Nat
  nanos : Nat
  deriving DecidableEq, Repr

/-- Reads the time of day of a timestamp. -/
def readTimeOfDay : PartReader TimeOfDay := fun cs => do
  let (hour, rest) ← readInRange 2 0 23 cs
  let ((), rest) ← readMark ':' rest
  let (minute, rest) ← readInRange 2 0 59 rest
  let ((), rest) ← readMark ':' rest
  let (second, rest) ← readInRange 2 0 60 rest
  let (nanos, rest) ← readFraction rest
  return (⟨hour, minute, second, nanos⟩, rest)

/-- Reads exactly two digits. -/
def readTwoDigits : PartReader Nat
  | a :: b :: rest =>
      if a.isDigit ∧ b.isDigit then
        some (10 * (a.toNat - '0'.toNat) + (b.toNat - '0'.toNat), rest)
      else none
  | _ => none

/-- Reads hours and minutes after the sign of an offset, in seconds. Colons and white space may
stand between them. -/
def readOffsetFrom (sign : Int) : PartReader Int := fun cs => do
  let (hours, rest) ← readTwoDigits cs
  let (minutes, rest) ← readTwoDigits (rest.dropWhile fun c => c = ':' || isGap c)
  if minutes ≤ 59 then return (sign * (hours * 3600 + minutes * 60), rest) else none

/-- Reads the offset from universal time. -/
def readOffset : PartReader Int
  | 'Z' :: rest => some (0, rest)
  | 'z' :: rest => some (0, rest)
  | '+' :: rest => readOffsetFrom 1 rest
  | '-' :: rest => readOffsetFrom (-1) rest
  | '−' :: rest => readOffsetFrom (-1) rest
  | a :: b :: c :: rest =>
      if a.toUpper = 'U' ∧ b.toUpper = 'T' ∧ c.toUpper = 'C' then some (0, rest) else none
  | _ => none

/-- The moment of a date and time of day at an offset, if all three exist and the years of both
the local and the universal date are told by timestamps. -/
def momentOf (date : Date) (time : TimeOfDay) (offset : Int) : Option Timestamp :=
  let leap := time.second = 60
  let second := if leap then 59 else time.second
  let clock := time.hour * 3600 + time.minute * 60 + second
  let seconds := (date.toDays - epochDay) * secondsPerDay + clock - offset
  let moment : Timestamp := ⟨seconds, time.nanos + if leap then 1000000000 else 0⟩
  let inRange (year : Int) : Bool := firstYear ≤ year && year ≤ lastYear
  if date.isValid ∧ inRange date.year ∧ -secondsPerDay < offset ∧ offset < secondsPerDay ∧
      inRange (yearOf moment.days) then
    some moment
  else none

/-- The moment that a text tells. -/
def Timestamp.ofText? (text : String) : Option Timestamp := do
  let (date, rest) ← readDate text.toList
  let rest ←
    match rest with
    | 'T' :: rest => some rest
    | 't' :: rest => some rest
    | ' ' :: rest => some rest
    | _ => none
  let (time, rest) ← readTimeOfDay rest
  let (offset, rest) ← readOffset (skipGaps rest)
  if (skipGaps rest).isEmpty then momentOf date time offset else none

end QueryCache.Time
