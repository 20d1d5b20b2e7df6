/-!
# Readers of bytes

A reader takes the bytes that are left, and gives back a value and what is left after it, or the
fault that stopped it. Readers compose in the order of the bytes, so the first fault in that
order is the one reported.
-/

namespace QueryCache.Wire

/-- A sequence of bytes. -/
abbrev Bytes := List UInt8

/-- Why bytes cannot be read. -/
inductive ReadFault
  /-- The bytes end within a value. -/
  | endOfInput
  /-- An integer has more groups, or more bits, than its width allows. -/
  | unterminated
  /-- A truth value is neither 0 nor 1. -/
  | badBool
  /-- A character is not exactly one, or not at all, in UTF-8. -/
  | badChar
  /-- A text is not in UTF-8. -/
  | badText
  /-- The mark of an optional value is neither 0 nor 1. -/
  | badOption
  /-- The bytes are well-formed, but no value of the kind asked for. -/
  | refused
  deriving DecidableEq, Repr

/-- The wording of a fault. -/
def ReadFault.message : ReadFault → String
  | .endOfInput => "Hit the end of buffer, expected more data"
  | .unterminated =>
      "Found a varint that didn't terminate. Is the usize too big for this platform?"
  | .badBool => "Found a bool that wasn't 0 or 1"
  | .badChar => "Found an invalid unicode char"
  | .badText => "Tried to parse invalid utf-8"
  | .badOption => "Found an Option discriminant that wasn't 0 or 1"
  | .refused => "Serde Deserialization Error"

/-- Why a value cannot be written. -/
inductive WriteFault
  /-- The length of a sequence is not known before its end. -/
  | unknownLength
  /-- The value refused to be written. -/
  | refused
  deriving DecidableEq, Repr

/-- The wording of a fault. -/
def WriteFault.message : WriteFault → String
  | .unknownLength => "The length of a sequence must be known"
  | .refused => "Serde Serialization Error"

/-- A reader of bytes. -/
def Reader (α : Type) := Bytes → Except ReadFault (α × Bytes)

namespace Reader

/-- Reads nothing and gives the value. -/
def pure {α : Type} (value : α) : Reader α := fun bytes => .ok (value, bytes)

/-- Reads with the first reader and then, from what it left, with the second. -/
def bind {α β : Type} (first : Reader α) (second : α → Reader β) : Reader β := fun bytes =>
  match first bytes with
  | .ok (value, rest) => second value rest
  | .error fault => .error fault

instance : Monad Reader where
  pure := pure
  bind := bind

/-- Stops with a fault. -/
def fail {α : Type} (fault : ReadFault) : Reader α := fun _ => .error fault

/-- Reads one byte. -/
def byte : Reader UInt8
  | [] => .error .endOfInput
  | byte :: rest => .ok (byte, rest)

/-- Reads the given number of bytes. -/
def take (count : Nat) : Reader Bytes := fun bytes =>
  if count ≤ bytes.length then .ok (bytes.take count, bytes.drop count)
  else .error .endOfInput

/-- Reads as many values as asked for. -/
def many {α : Type} (item : Reader α) : Nat → Reader (List α)
  | 0 => pure []
  | count + 1 => do
      let first ← item
      let others ← many item count
      return first :: others

end Reader

end QueryCache.Wire
