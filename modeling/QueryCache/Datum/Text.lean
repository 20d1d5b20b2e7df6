import QueryCache.Datum.Json
import QueryCache.Json.Printer

/-!
# Data as JSON text

The text of a datum, written in one pass from the datum itself. It differs from the text of the
JSON value of the datum: an integer of any width has digits, a number of 32 bits is as short as its
own width allows, entries and fields stand in the order in which they are given, each as often as it
is given, and a present optional value can be the key of an entry.
-/

namespace QueryCache.Datum

/-- The name under which an entry is written: that of the key, or of what is present in it. -/
def entryName : Datum → Except JsonFault String
  | .present key => entryName key
  | key => memberName key

/-- A floating-point number, or `null` where it is not finite. -/
def floatChars (digits : Option (List Char)) : List Char :=
  digits.getD ['n', 'u', 'l', 'l']

/-- Parts between brackets, a comma between any two. -/
def enclosedChars (opening closing : Char) (parts : List (List Char)) : List Char :=
  opening :: ([','].intercalate parts ++ [closing])

/-- A name and what stands under it. -/
def memberChars (name : String) (content : List Char) : List Char :=
  Json.stringChars name ++ ':' :: content

/-- A case and its content. -/
def caseChars (name : String) (content : List Char) : List Char :=
  enclosedChars '{' '}' [memberChars name content]

mutual

/-- The characters of a datum, or the first fault in the order of writing. -/
def chars : Datum → Except JsonFault (List Char)
  | .unit => .ok ['n', 'u', 'l', 'l']
  | .bool true => .ok ['t', 'r', 'u', 'e']
  | .bool false => .ok ['f', 'a', 'l', 's', 'e']
  | .unsigned _ value => .ok (Nat.toDigits 10 value)
  | .signed _ value => .ok (Json.intChars value)
  | .float32 bits => .ok (floatChars (Decimal.text32? bits))
  | .float64 bits => .ok (floatChars (Decimal.text64? bits))
  | .char value => .ok (Json.stringChars (String.ofList [value]))
  | .text value => .ok (Json.stringChars value)
  | .bytes value =>
      .ok (enclosedChars '[' ']' (value.map fun byte => Nat.toDigits 10 byte.toNat))
  | .absent => .ok ['n', 'u', 'l', 'l']
  | .present value => chars value
  | .list items => return enclosedChars '[' ']' (← itemsChars items)
  | .stream items => return enclosedChars '[' ']' (← itemsChars items)
  | .tuple items => return enclosedChars '[' ']' (← itemsChars items)
  | .map entries => return enclosedChars '{' '}' (← entriesChars entries)
  | .entryStream entries => return enclosedChars '{' '}' (← entriesChars entries)
  | .record fields => return enclosedChars '{' '}' (← fieldsChars fields)
  | .unitCase _ name => .ok (Json.stringChars name)
  | .wrapCase _ name content => return caseChars name (← chars content)
  | .tupleCase _ name items => return caseChars name (enclosedChars '[' ']' (← itemsChars items))
  | .recordCase _ name fields =>
      return caseChars name (enclosedChars '{' '}' (← fieldsChars fields))
  | .refusal reason => .error (.refused reason)

/-- The characters of each item of a sequence. -/
def itemsChars : List Datum → Except JsonFault (List (List Char))
  | [] => .ok []
  | item :: items => do
      let item ← chars item
      return item :: (← itemsChars items)

/-- The characters of each entry, its key before its value. -/
def entriesChars : List (Datum × Datum) → Except JsonFault (List (List Char))
  | [] => .ok []
  | (key, value) :: entries => do
      let name ← entryName key
      let value ← chars value
      return memberChars name value :: (← entriesChars entries)

/-- The characters of each named field. -/
def fieldsChars : List (String × Datum) → Except JsonFault (List (List Char))
  | [] => .ok []
  | (name, value) :: fields => do
      let value ← chars value
      return memberChars name value :: (← fieldsChars fields)

end

/-- The text of a datum, or the first fault in the order of writing. -/
def render (datum : Datum) : Except JsonFault String := do
  return String.ofList (← datum.chars)

end QueryCache.Datum
