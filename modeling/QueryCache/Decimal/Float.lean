import QueryCache.Decimal.Shortest

/-!
# Texts of floating-point numbers

Numbers of 32 and 64 bits are taken apart by their bits, and a finite number is written with
its shortest digits. A number of middle size is written positionally with at least one digit
after the point, any other with a signed exponent. What counts as middle size depends on the
width: the weight of the first digit is 10⁻⁵ to 10¹⁵ for 64 bits and 10⁻⁶ to 10¹² for 32.
-/

namespace QueryCache.Decimal

/-- What the bits of a floating-point number stand for. -/
inductive Reading
  | finite (negative : Bool) (magnitude : Binary)
  | infinite (negative : Bool)
  | notANumber
  deriving DecidableEq, Repr

/-- Reads bits with `mantissaBits` bits of fraction and `exponentBits` bits of exponent. -/
def readBits (mantissaBits exponentBits : Nat) (bits : Nat) : Reading :=
  let hidden := Nat.pow 2 mantissaBits
  let exponents := Nat.pow 2 exponentBits
  let fraction := bits % hidden
  let biased := bits / hidden % exponents
  let negative := bits / (hidden * exponents) % 2 = 1
  let bias : Int := (exponents / 2 - 1 : Nat)
  if biased = exponents - 1 then
    if fraction = 0 then .infinite negative else .notANumber
  else if biased = 0 then
    .finite negative ⟨fraction, 1 - bias - mantissaBits, false⟩
  else
    .finite negative
      ⟨hidden + fraction, biased - bias - mantissaBits, fraction = 0 && 1 < biased⟩

/-- Reads the bits of a number of 64 bits. -/
def readFloat64 (bits : UInt64) : Reading := readBits 52 11 bits.toNat

/-- Reads the bits of a number of 32 bits. -/
def readFloat32 (bits : UInt32) : Reading := readBits 23 8 bits.toNat

/-- The bits of 64 of the number that the given bits of 32 stand for; every finite number of 32
bits is one of 64 bits too. What is not finite becomes no number. -/
def widen (bits : UInt32) : UInt64 :=
  match readFloat32 bits with
  | .finite negative magnitude =>
      let sign := if negative then UInt64.size / 2 else 0
      if magnitude.mantissa = 0 then .ofNat sign
      else
        let top := magnitude.mantissa.log2
        let biased := (magnitude.exponent + top + 1023).toNat
        let fraction := (magnitude.mantissa - Nat.pow 2 top) * Nat.pow 2 (52 - top)
        .ofNat (sign + biased * Nat.pow 2 52 + fraction)
  | _ => 0x7ff8000000000000

/-- Removes the zeros at the end of a list of digits. -/
def dropTrailingZeros (digits : List Char) : List Char :=
  (digits.reverse.dropWhile (· = '0')).reverse

/-- The numbers that are written positionally: the exponents that the weight `10 ^ exponent` of
their first digit may have. -/
structure PositionalRange where
  lowest : Int
  highest : Int
  deriving DecidableEq, Repr

/-- The positional range of numbers of 64 bits. -/
def positional64 : PositionalRange := ⟨-5, 15⟩

/-- The positional range of numbers of 32 bits. -/
def positional32 : PositionalRange := ⟨-6, 12⟩

/-- Significant digits `d₁ d₂ …` whose first has the weight `10 ^ exponent`, in positional or
exponent notation. -/
def writeDigits (range : PositionalRange) (digits : List Char) (exponent : Int) : List Char :=
  if range.lowest ≤ exponent ∧ exponent ≤ range.highest then
    if exponent < 0 then
      ['0', '.'] ++ List.replicate (-exponent - 1).toNat '0' ++ digits
    else
      let whole := exponent.toNat + 1
      let fraction := digits.drop whole
      digits.take whole ++ List.replicate (whole - digits.length) '0' ++
        '.' :: (if fraction.isEmpty then ['0'] else fraction)
  else
    let fraction := digits.drop 1
    digits.take 1 ++ (if fraction.isEmpty then [] else '.' :: fraction) ++
      ['e', if exponent < 0 then '-' else '+'] ++ Nat.toDigits 10 exponent.natAbs

/-- The text of a magnitude; zero keeps a digit after the point. -/
def magnitudeText (range : PositionalRange) (magnitude : Binary) : List Char :=
  if magnitude.mantissa = 0 then ['0', '.', '0']
  else
    let shortest := magnitude.shortest
    let digits := Nat.toDigits 10 shortest.coefficient
    writeDigits range (dropTrailingZeros digits) (shortest.exponent + digits.length - 1)

/-- The text of a finite number, with a minus sign also before a negative zero. -/
def finiteText (range : PositionalRange) (negative : Bool) (magnitude : Binary) : List Char :=
  (if negative then ['-'] else []) ++ magnitudeText range magnitude

/-- The text of a reading; only a finite number has one. -/
def Reading.text? (range : PositionalRange) : Reading → Option (List Char)
  | .finite negative magnitude => some (finiteText range negative magnitude)
  | .infinite _ => none
  | .notANumber => none

/-- The text of a number of 64 bits, if it is finite. -/
def text64? (bits : UInt64) : Option (List Char) :=
  (readFloat64 bits).text? positional64

/-- The text of a number of 32 bits, if it is finite. -/
def text32? (bits : UInt32) : Option (List Char) :=
  (readFloat32 bits).text? positional32

end QueryCache.Decimal
