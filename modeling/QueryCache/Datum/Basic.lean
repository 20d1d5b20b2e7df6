import QueryCache.Json.Basic

/-!
# Data

The data model of records: what any value looks like to a writer of JSON or of bytes. Both
writers take a `Datum`, and neither needs to know the type that the value had in a program.

A wrapper of one value is not part of the model, since it is written as the value it holds.
-/

namespace QueryCache

/-- The widths of integers. -/
inductive Width
  | w8
  | w16
  | w32
  | w64
  | w128
  deriving DecidableEq, Repr

/-- The number of bits of a width. -/
def Width.bits : Width → Nat
  | .w8 => 8
  | .w16 => 16
  | .w32 => 32
  | .w64 => 64
  | .w128 => 128

/-- One more than the largest unsigned integer of a width. -/
def Width.limit (width : Width) : Nat := Nat.pow 2 width.bits

/-- One more than the largest signed integer of a width. -/
def Width.signedLimit (width : Width) : Nat := Nat.pow 2 (width.bits - 1)

/-- A value of the data model. -/
inductive Datum
  /-- The value that holds nothing. -/
  | unit
  | bool (value : Bool)
  | unsigned (width : Width) (value : Nat)
  | signed (width : Width) (value : Int)
  /-- A floating-point number by its bits. -/
  | float32 (bits : UInt32)
  | float64 (bits : UInt64)
  | char (value : Char)
  | text (value : String)
  | bytes (value : List UInt8)
  /-- An absent optional value. -/
  | absent
  /-- A present optional value. -/
  | present (value : Datum)
  /-- A sequence of known length. -/
  | list (items : List Datum)
  /-- A sequence whose length is not known before its end. -/
  | stream (items : List Datum)
  /-- A fixed number of values side by side. -/
  | tuple (items : List Datum)
  /-- Entries in the order in which they are written; their number is known. -/
  | map (entries : List (Datum × Datum))
  /-- Entries whose number is not known before their end. -/
  | entryStream (entries : List (Datum × Datum))
  /-- Named fields. -/
  | record (fields : List (String × Datum))
  /-- A case of a choice, by its position and name, without content. -/
  | unitCase (index : Nat) (name : String)
  /-- A case that holds one value. -/
  | wrapCase (index : Nat) (name : String) (content : Datum)
  /-- A case that holds values side by side. -/
  | tupleCase (index : Nat) (name : String) (items : List Datum)
  /-- A case that holds named fields. -/
  | recordCase (index : Nat) (name : String) (fields : List (String × Datum))
  /-- A value that refuses to be written, with its reason. -/
  | refusal (reason : String)
  deriving Repr, Inhabited

namespace Datum

mutual

/-- A JSON value as a datum. Integers take 64 bits, unsigned unless they are negative. -/
def ofJson : Json → Datum
  | .null => .unit
  | .bool value => .bool value
  | .number (.int value) =>
      if value < 0 then .signed .w64 value else .unsigned .w64 value.toNat
  | .number (.float bits) => .float64 bits
  | .string value => .text value
  | .array items => .list (ofItems items)
  | .object members => .map (ofMembers members)

/-- The items of an array as data. -/
def ofItems : List Json → List Datum
  | [] => []
  | item :: items => ofJson item :: ofItems items

/-- The members of an object as entries under text keys. -/
def ofMembers : List (String × Json) → List (Datum × Datum)
  | [] => []
  | (name, value) :: members => (.text name, ofJson value) :: ofMembers members

end

end Datum

end QueryCache
