/-!
# Shortest decimals of binary fractions

A finite binary floating-point number stands for an interval of reals: those that round to it.
This module finds the decimal of that interval which lies on the coarsest power-of-ten grid,
and on that grid nearest to the number itself. It decides on no notation.
-/

namespace QueryCache

/-- The number `coefficient · 10 ^ exponent`. -/
structure Decimal where
  coefficient : Nat
  exponent : Int
  deriving DecidableEq, Repr

namespace Decimal

/-- The number `mantissa · 2 ^ exponent`, together with how far below it the neighbouring
number lies: `narrow` holds when that gap is half of the gap above. -/
structure Binary where
  mantissa : Nat
  exponent : Int
  narrow : Bool
  deriving DecidableEq, Repr

/-- The factor by which both sides of a comparison of `x · 2 ^ e` with `y · 10 ^ k` are
multiplied on the binary side, once negative exponents have moved across. -/
def binaryScale (e k : Int) : Nat :=
  Nat.pow 2 e.toNat * Nat.pow 10 (-k).toNat

/-- The factor on the decimal side of the same comparison. -/
def decimalScale (e k : Int) : Nat :=
  Nat.pow 2 (-e).toNat * Nat.pow 10 k.toNat

namespace Binary

/-- The number in quarters of a unit of its last place, the scale on which both ends of its
rounding interval are whole. -/
def quarters (b : Binary) : Nat := 4 * b.mantissa

/-- The lower end of the rounding interval, in quarters. -/
def lower (b : Binary) : Nat := b.quarters - (if b.narrow then 1 else 2)

/-- The upper end of the rounding interval, in quarters. -/
def upper (b : Binary) : Nat := b.quarters + 2

/-- The point `n · 10 ^ k` rounds to the number. The ends of the interval belong to it exactly
when the mantissa is even. -/
def admits (b : Binary) (k : Int) (n : Nat) : Bool :=
  let point := n * decimalScale (b.exponent - 2) k
  let low := b.lower * binaryScale (b.exponent - 2) k
  let high := b.upper * binaryScale (b.exponent - 2) k
  if b.mantissa % 2 = 0 then low ≤ point && point ≤ high else low < point && point < high

/-- The grid point of `10 ^ k` at or below the number. -/
def floorOn (b : Binary) (k : Int) : Nat :=
  b.quarters * binaryScale (b.exponent - 2) k / decimalScale (b.exponent - 2) k

/-- The upper of the two grid points around the number is nearer than the lower; an exact tie
goes to the even one. -/
def prefersUpper (b : Binary) (k : Int) : Bool :=
  let n := b.floorOn k
  let value := 2 * (b.quarters * binaryScale (b.exponent - 2) k)
  let middle := (2 * n + 1) * decimalScale (b.exponent - 2) k
  middle < value || (middle = value && n % 2 = 1)

/-- The grid point of `10 ^ k` that rounds to the number and lies nearest to it, if the grid has
one: only the two points around the number can be it. -/
def nearestOn? (b : Binary) (k : Int) : Option Nat :=
  let n := b.floorOn k
  match b.admits k n, b.admits k (n + 1) with
  | true, true => some (if b.prefersUpper k then n + 1 else n)
  | true, false => some n
  | false, true => some (n + 1)
  | false, false => none

/-- The first hit on the grids `10 ^ k`, `10 ^ (k - 1)` and so on, `steps` grids in all. Below
them the number is written out exactly. -/
def search (b : Binary) : Nat → Int → Decimal
  | 0, _ =>
      if 0 ≤ b.exponent then ⟨b.mantissa * Nat.pow 2 b.exponent.toNat, 0⟩
      else ⟨b.mantissa * Nat.pow 5 (-b.exponent).toNat, b.exponent⟩
  | steps + 1, k =>
      match b.nearestOn? k with
      | some n => ⟨n, k⟩
      | none => b.search steps (k - 1)

/-- The coarsest grid that is tried: all numbers of 64 bits lie below its first point. -/
def coarsest : Int := 309

/-- The shortest decimal that rounds to the number, nearest to it among those. -/
def shortest (b : Binary) : Decimal :=
  b.search (coarsest - min b.exponent 0 + 1).toNat coarsest

end Binary

end Decimal

end QueryCache
