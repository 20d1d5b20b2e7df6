import QueryCache.Json.Basic

/-!
# Compact JSON text

The text of a value without blanks, members in the order in which the object holds them. Two
values of the same text are the same value, provided their floating-point numbers are finite.
-/

namespace QueryCache.Json

/-- One character of a string. Quote, backslash and the controls below the space are escaped,
five of these by a letter of their own; everything else stands for itself. -/
def escapedChar (c : Char) : List Char :=
  if c = '"' then ['\\', '"']
  else if c = '\\' then ['\\', '\\']
  else if c = '\n' then ['\\', 'n']
  else if c = '\r' then ['\\', 'r']
  else if c = '\t' then ['\\', 't']
  else if c = '\x08' then ['\\', 'b']
  else if c = '\x0c' then ['\\', 'f']
  else if c.toNat < 0x20 then
    ['\\', 'u', '0', '0', Nat.digitChar (c.toNat / 16), Nat.digitChar (c.toNat % 16)]
  else [c]

/-- A text in quotes. -/
def stringChars (text : String) : List Char :=
  '"' :: text.toList.flatMap escapedChar ++ ['"']

/-- The decimal digits of an integer, after a minus sign if it is negative. -/
def intChars (value : Int) : List Char :=
  (if value < 0 then ['-'] else []) ++ Nat.toDigits 10 value.natAbs

/-- A number; a floating-point number that is not finite has no JSON form and is written as
`null`. -/
def numberChars : Number → List Char
  | .int value => intChars value
  | .float bits => (Decimal.text64? bits).getD ['n', 'u', 'l', 'l']

mutual

/-- The characters of a value. -/
def chars : Json → List Char
  | .null => ['n', 'u', 'l', 'l']
  | .bool true => ['t', 'r', 'u', 'e']
  | .bool false => ['f', 'a', 'l', 's', 'e']
  | .number value => numberChars value
  | .string text => stringChars text
  | .array [] => ['[', ']']
  | .array (item :: items) => '[' :: chars item ++ itemsChars items ++ [']']
  | .object [] => ['{', '}']
  | .object ((name, value) :: members) =>
      '{' :: stringChars name ++ ':' :: chars value ++ membersChars members ++ ['}']

/-- The items after the first, each behind its comma. -/
def itemsChars : List Json → List Char
  | [] => []
  | item :: items => ',' :: chars item ++ itemsChars items

/-- The members after the first, each behind its comma. -/
def membersChars : List (String × Json) → List Char
  | [] => []
  | (name, value) :: members =>
      ',' :: stringChars name ++ ':' :: chars value ++ membersChars members

end

/-- The text of a value. -/
def render (value : Json) : String :=
  String.ofList value.chars

end QueryCache.Json
