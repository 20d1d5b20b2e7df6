import QueryCache.Json.Basic

/-!
# Numerals

A number as JSON text writes it, and the number that it stands for. An integer that 64 bits hold
stands for itself. Every other numeral stands for a floating-point number, which is rounded more
than once: the leading digits, as many as 64 bits hold, become a number, and a power of ten
multiplies or divides it. The result need not be the floating-point number that is nearest to
the numeral.

The module reads no text; it takes a numeral apart into its digits and gives them their value.
-/

namespace QueryCache.Json

/-- A number as it is written: its sign, the digits before the point and after it, and the
exponent. -/
structure Numeral where
  negative : Bool
  whole : List Char
  fraction : Option (List Char)
  exponent : Option Int
  deriving DecidableEq, Repr

/-- A number with one more decimal digit. -/
def appendDigit (n : Nat) (digit : Char) : Nat :=
  10 * n + (digit.toNat - '0'.toNat)

/-- The value of decimal digits. -/
def digitsValue (digits : List Char) : Nat :=
  digits.foldl appendDigit 0

/-- Appends decimal digits to a number as long as 64 bits hold it. The first digit that does not
fit is left over with all behind it. -/
def appendDigits (n : Nat) : List Char → Nat × List Char
  | [] => (n, [])
  | digit :: digits =>
      if appendDigit n digit < UInt64.size then appendDigits (appendDigit n digit) digits
      else (n, digit :: digits)

/-- The largest power of ten that is used as a factor or divisor. -/
def highestPower : Nat := 308

/-- The floating-point number nearest to a power of ten. -/
def powerOfTen (exponent : Nat) : Float :=
  Float.ofScientific 1 false exponent

/-- A magnitude divided by a power of ten. A power above `highestPower` is split, and zero needs
no further division. -/
def divideByPower (magnitude : Float) (exponent : Nat) : Float :=
  if exponent ≤ highestPower then magnitude / powerOfTen exponent
  else if magnitude == 0.0 then magnitude
  else divideByPower (magnitude / powerOfTen highestPower) (exponent - highestPower)
termination_by exponent
decreasing_by
  simp only [highestPower] at *
  omega

/-- A magnitude multiplied with a power of ten, unless the product is infinite. -/
def multiplyByPower? (magnitude : Float) (exponent : Nat) : Option Float :=
  if exponent ≤ highestPower then
    let product := magnitude * powerOfTen exponent
    if product.isInf then none else some product
  else if magnitude == 0.0 then some magnitude
  else none

namespace Numeral

/-- Neither a point nor an exponent is written. -/
def isInteger (numeral : Numeral) : Bool :=
  numeral.fraction.isNone && numeral.exponent.isNone

/-- The digits that count. One before the point that does not fit still moves the point; one
behind the point that does not fit is ignored. -/
def decimal (numeral : Numeral) : Decimal :=
  let fraction := numeral.fraction.getD []
  let (whole, dropped) := appendDigits 0 numeral.whole
  let (coefficient, ignored) := appendDigits whole fraction
  ⟨coefficient, numeral.exponent.getD 0 + dropped.length - fraction.length + ignored.length⟩

/-- The magnitude as a floating-point number, unless it is too large for one. -/
def magnitude? (numeral : Numeral) : Option Float :=
  let decimal := numeral.decimal
  let start := (UInt64.ofNat decimal.coefficient).toFloat
  if decimal.exponent < 0 then some (divideByPower start decimal.exponent.natAbs)
  else multiplyByPower? start decimal.exponent.natAbs

/-- The bits of the floating-point number, unless it is too large. -/
def float? (numeral : Numeral) : Option UInt64 :=
  match numeral.magnitude? with
  | some magnitude => some (if numeral.negative then -magnitude else magnitude).toBits
  | none => none

/-- The number that is written. An integer in the range of 64 bits, signed or unsigned, is kept
as such, except that a zero with a sign is a floating-point number; so is every other number. -/
def number? (numeral : Numeral) : Option Number :=
  let digits := digitsValue numeral.whole
  if numeral.isInteger ∧ ¬ numeral.negative ∧ digits < UInt64.size then
    some (.int digits)
  else if numeral.isInteger ∧ numeral.negative ∧ 0 < digits ∧ digits ≤ UInt64.size / 2 then
    some (.int (-(digits : Int)))
  else numeral.float?.map .float

end Numeral

end QueryCache.Json
