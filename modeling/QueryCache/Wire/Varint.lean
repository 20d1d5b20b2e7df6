import QueryCache.Datum.Basic
import QueryCache.Wire.Reader

/-!
# Integers as groups of seven bits

An unsigned integer is written as groups of seven bits, lowest group first, and every byte but
the last carries the high bit. Each width has room for as many groups as its bits need, and the
reader refuses a value beyond the width as well as a last possible byte that promises another.
Longer forms than needed are read as the values they stand for. A signed integer is folded onto
the unsigned ones, so that small magnitudes stay short.
-/

namespace QueryCache.Wire

/-- The number of groups that a width can need. -/
def groups (width : Width) : Nat :=
  (width.bits + 6) / 7

/-- Writes a number in at most the given number of groups. -/
def writeGroups : Nat → Nat → Bytes
  | 0, _ => []
  | left + 1, value =>
      if value < 128 then [.ofNat value]
      else .ofNat (value % 128 + 128) :: writeGroups left (value / 128)

/-- Reads a number of at most the given number of groups. -/
def readGroups : Nat → Reader Nat
  | 0 => .fail .unterminated
  | left + 1 => do
      let byte ← Reader.byte
      if byte < 128 then return byte.toNat
      else
        let high ← readGroups left
        return byte.toNat - 128 + 128 * high

/-- Writes an unsigned integer of a width. -/
def writeUnsigned (width : Width) (value : Nat) : Bytes :=
  match width with
  | .w8 => [.ofNat value]
  | _ => writeGroups (groups width) value

/-- Reads an unsigned integer of a width; a single byte is itself. -/
def readUnsigned (width : Width) : Reader Nat :=
  match width with
  | .w8 => do
      let byte ← Reader.byte
      return byte.toNat
  | _ => do
      let value ← readGroups (groups width)
      if value < width.limit then return value else .fail .unterminated

/-- Folds the integers onto the natural numbers: 0, -1, 1, -2, 2 and so on. -/
def fold (value : Int) : Nat :=
  if 0 ≤ value then 2 * value.toNat else 2 * (-value).toNat - 1

/-- The integer at a place of that order. -/
def unfold (place : Nat) : Int :=
  if place % 2 = 0 then (place / 2 : Nat) else -((place / 2 : Nat) : Int) - 1

/-- Writes a signed integer of a width; a single byte is its two's complement. -/
def writeSigned (width : Width) (value : Int) : Bytes :=
  match width with
  | .w8 => [.ofNat (value % 256).toNat]
  | _ => writeUnsigned width (fold value)

/-- Reads a signed integer of a width. -/
def readSigned (width : Width) : Reader Int :=
  match width with
  | .w8 => do
      let byte ← Reader.byte
      return if byte < 128 then byte.toNat else (byte.toNat : Int) - 256
  | _ => do
      let place ← readUnsigned width
      return unfold place

/-- Writes a length. -/
def writeLength (length : Nat) : Bytes :=
  writeUnsigned .w64 length

/-- Reads a length. -/
def readLength : Reader Nat :=
  readUnsigned .w64

end QueryCache.Wire
