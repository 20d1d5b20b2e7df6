import QueryCache.Datum.Basic
import QueryCache.Json.Printer

/-!
# Data as JSON

The JSON value of a datum. Bytes become an array of numbers, an absent value and a
floating-point number that is not finite become `null`, and a case with content becomes an
object of one member. Members are sorted by name and the last of a name stays, so the JSON value
does not depend on the order in which a map was written.

A member needs a name: only texts, characters, integers, truth values, finite floating-point
numbers and cases without content can be keys of a map.
-/

namespace QueryCache.Datum

/-- Why a datum has no JSON value. -/
inductive JsonFault
  /-- A key of a map is of a kind that has no text. -/
  | keyNotText
  /-- A key of a map is an infinity or no number. -/
  | keyNotFinite
  /-- An integer needs more than 64 bits. -/
  | outOfRange
  /-- The value refused to be written. -/
  | refused (reason : String)
  deriving DecidableEq, Repr

/-- The member name of a floating-point key: its text, which only a finite number has. -/
def floatKey (text : Option (List Char)) : Except JsonFault String :=
  match text with
  | some digits => .ok (String.ofList digits)
  | none => .error .keyNotFinite

/-- The member name of a key. -/
def memberName : Datum → Except JsonFault String
  | .text value => .ok value
  | .char value => .ok (String.ofList [value])
  | .unitCase _ name => .ok name
  | .bool true => .ok "true"
  | .bool false => .ok "false"
  | .unsigned _ value => .ok (String.ofList (Nat.toDigits 10 value))
  | .signed _ value => .ok (String.ofList (Json.intChars value))
  | .float32 bits => floatKey (Decimal.text32? bits)
  | .float64 bits => floatKey (Decimal.text64? bits)
  | .refusal reason => .error (.refused reason)
  | _ => .error .keyNotText

/-- A floating-point number, or `null` where it is not finite. -/
def floatJson (bits : UInt64) : Json :=
  match Decimal.readFloat64 bits with
  | .finite _ _ => .number (.float bits)
  | _ => .null

/-- An integer that 64 bits can hold, with a sign or without. -/
def intJson (value : Int) : Except JsonFault Json :=
  if -(Width.w64.signedLimit : Int) ≤ value ∧ value < Width.w64.limit then
    .ok (.number (.int value))
  else .error .outOfRange

/-- A case and its content. -/
def caseJson (name : String) (content : Json) : Json :=
  .object [(name, content)]

mutual

/-- The JSON value of a datum, or the first fault in the order of writing. -/
def toJson : Datum → Except JsonFault Json
  | .unit => .ok .null
  | .bool value => .ok (.bool value)
  | .unsigned _ value => intJson value
  | .signed _ value => intJson value
  | .float32 bits => .ok (floatJson (Decimal.widen bits))
  | .float64 bits => .ok (floatJson bits)
  | .char value => .ok (.string (String.ofList [value]))
  | .text value => .ok (.string value)
  | .bytes value => .ok (.array (value.map fun byte => .number (.int byte.toNat)))
  | .absent => .ok .null
  | .present value => toJson value
  | .list items => return .array (← itemsJson items)
  | .stream items => return .array (← itemsJson items)
  | .tuple items => return .array (← itemsJson items)
  | .map entries => return Json.ofMembers (← entriesJson entries)
  | .entryStream entries => return Json.ofMembers (← entriesJson entries)
  | .record fields => return Json.ofMembers (← fieldsJson fields)
  | .unitCase _ name => .ok (.string name)
  | .wrapCase _ name content => return caseJson name (← toJson content)
  | .tupleCase _ name items => return caseJson name (.array (← itemsJson items))
  | .recordCase _ name fields => return caseJson name (Json.ofMembers (← fieldsJson fields))
  | .refusal reason => .error (.refused reason)

/-- The JSON values of a sequence. -/
def itemsJson : List Datum → Except JsonFault (List Json)
  | [] => .ok []
  | item :: items => do
      let item ← toJson item
      return item :: (← itemsJson items)

/-- The members that entries become, each key before its value. -/
def entriesJson : List (Datum × Datum) → Except JsonFault (List (String × Json))
  | [] => .ok []
  | (key, value) :: entries => do
      let name ← memberName key
      let value ← toJson value
      return (name, value) :: (← entriesJson entries)

/-- The members that named fields become. -/
def fieldsJson : List (String × Datum) → Except JsonFault (List (String × Json))
  | [] => .ok []
  | (name, value) :: fields => do
      let value ← toJson value
      return (name, value) :: (← fieldsJson fields)

end

end QueryCache.Datum
