import QueryCache.Json.Numeral

/-!
# Reading JSON text

Readers of the parts of JSON text: blanks, words, numbers, strings, and whole values. A reader
takes the characters that are left and gives back what it read and what is left after it. There
are two ways to fail: the text is no JSON (`malformed`), or it is JSON of another kind than the
one asked for (`mismatch`). This module only raises the first.

Arrays and objects may be nested `depthLimit - 1` levels deep. The recursion is bounded by the
number of characters, since every step of it reads one.
-/

namespace QueryCache.Json

/-- Why a text is refused. -/
inductive Fault
  /-- The text is no JSON, or ends too early, or nests too deeply. -/
  | malformed
  /-- The text is JSON, but not of the kind that was asked for. -/
  | mismatch
  deriving DecidableEq, Repr

/-- A reader of characters. -/
abbrev Reader (α : Type) := List Char → Except Fault (α × List Char)

/-- Nesting to this depth is refused. -/
def depthLimit : Nat := 128

/-- The four blanks of JSON. -/
def isBlank (c : Char) : Bool :=
  c = ' ' || c = '\n' || c = '\t' || c = '\r'

/-- What is left after blanks. -/
def skipBlanks (cs : List Char) : List Char :=
  cs.dropWhile isBlank

/-- Reads the given letters and nothing else. -/
def readLetters : List Char → Reader Unit
  | [], cs => .ok ((), cs)
  | _ :: _, [] => .error .malformed
  | letter :: letters, c :: cs =>
      if c = letter then readLetters letters cs else .error .malformed

/-- Splits off the digits at the front. -/
def spanDigits (cs : List Char) : List Char × List Char :=
  (cs.takeWhile Char.isDigit, cs.dropWhile Char.isDigit)

/-- Reads the exponent of a number, if one follows. -/
def readExponent : Reader (Option Int)
  | [] => .ok (none, [])
  | c :: cs =>
      if c = 'e' || c = 'E' then
        let (negative, cs) :=
          match cs with
          | '+' :: rest => (false, rest)
          | '-' :: rest => (true, rest)
          | rest => (false, rest)
        match spanDigits cs with
        | ([], _) => .error .malformed
        | (digits, rest) =>
            let value : Int := digitsValue digits
            .ok (some (if negative then -value else value), rest)
      else .ok (none, c :: cs)

/-- Reads a numeral from its first digit on. A zero stands alone before the point. -/
def readUnsigned (negative : Bool) : Reader Numeral := fun cs =>
  match spanDigits cs with
  | ([], _) => .error .malformed
  | ('0' :: _ :: _, _) => .error .malformed
  | (whole, '.' :: rest) =>
      match spanDigits rest with
      | ([], _) => .error .malformed
      | (fraction, rest) => do
          let (exponent, rest) ← readExponent rest
          return (⟨negative, whole, some fraction, exponent⟩, rest)
  | (whole, rest) => do
      let (exponent, rest) ← readExponent rest
      return (⟨negative, whole, none, exponent⟩, rest)

/-- Reads a numeral from its sign or first digit on. -/
def readNumeral : Reader Numeral
  | '-' :: cs => readUnsigned true cs
  | cs => readUnsigned false cs

/-- Reads a number from its sign or first digit on; one that is too large is malformed. -/
def readNumber : Reader Number := fun cs => do
  let (numeral, rest) ← readNumeral cs
  match numeral.number? with
  | some value => return (value, rest)
  | none => .error .malformed

/-- The value of a hexadecimal digit. -/
def hexValue? (c : Char) : Option Nat :=
  if c.isDigit then some (c.toNat - '0'.toNat)
  else if 'a' ≤ c ∧ c ≤ 'f' then some (c.toNat - 'a'.toNat + 10)
  else if 'A' ≤ c ∧ c ≤ 'F' then some (c.toNat - 'A'.toNat + 10)
  else none

/-- Reads four hexadecimal digits. -/
def readHex4 : Reader Nat
  | a :: b :: c :: d :: cs =>
      match hexValue? a, hexValue? b, hexValue? c, hexValue? d with
      | some a, some b, some c, some d => .ok (((a * 16 + b) * 16 + c) * 16 + d, cs)
      | _, _, _, _ => .error .malformed
  | _ => .error .malformed

/-- The character of a simple escape. -/
def simpleEscape? : Char → Option Char
  | '"' => some '"'
  | '\\' => some '\\'
  | '/' => some '/'
  | 'b' => some '\x08'
  | 'f' => some '\x0c'
  | 'n' => some '\n'
  | 'r' => some '\r'
  | 't' => some '\t'
  | _ => none

/-- How escapes by number are treated. -/
inductive EscapeRule
  /-- They must name characters, large ones by a pair of surrogates. -/
  | strict
  /-- Any four digits will do, since the text is thrown away. -/
  | lax
  deriving DecidableEq, Repr

/-- Reads the character that four digits, or two times four, name. -/
def readUnicode (rule : EscapeRule) : Reader Char := fun cs => do
  let (high, rest) ← readHex4 cs
  match rule with
  | .lax => return (Char.ofNat high, rest)
  | .strict =>
      if 0xDC00 ≤ high ∧ high ≤ 0xDFFF then .error .malformed
      else if 0xD800 ≤ high ∧ high ≤ 0xDBFF then
        match rest with
        | '\\' :: 'u' :: rest => do
            let (low, rest) ← readHex4 rest
            if 0xDC00 ≤ low ∧ low ≤ 0xDFFF then
              return (Char.ofNat (0x10000 + (high - 0xD800) * 0x400 + (low - 0xDC00)), rest)
            else .error .malformed
        | _ => .error .malformed
      else return (Char.ofNat high, rest)

/-- Reads the rest of a string whose opening quote is behind. The characters read so far come
in reverse. -/
def readStringFrom (rule : EscapeRule) : Nat → List Char → Reader String
  | 0, _, _ => .error .malformed
  | fuel + 1, done, cs =>
      match cs with
      | [] => .error .malformed
      | '"' :: rest => .ok (String.ofList done.reverse, rest)
      | '\\' :: 'u' :: rest => do
          let (c, rest) ← readUnicode rule rest
          readStringFrom rule fuel (c :: done) rest
      | '\\' :: c :: rest =>
          match simpleEscape? c with
          | some c => readStringFrom rule fuel (c :: done) rest
          | none => .error .malformed
      | c :: rest =>
          if c.toNat < 0x20 ∨ c = '\\' then .error .malformed
          else readStringFrom rule fuel (c :: done) rest

/-- Reads a string whose opening quote is behind. -/
def readString (rule : EscapeRule) : Reader String := fun cs =>
  readStringFrom rule (cs.length + 1) [] cs

mutual

/-- Reads a value, with the given levels of nesting still allowed. -/
def readValueFrom : Nat → Nat → Reader Json
  | 0, _, _ => .error .malformed
  | fuel + 1, depth, cs =>
      match skipBlanks cs with
      | 'n' :: rest => do
          let ((), rest) ← readLetters ['u', 'l', 'l'] rest
          return (.null, rest)
      | 't' :: rest => do
          let ((), rest) ← readLetters ['r', 'u', 'e'] rest
          return (.bool true, rest)
      | 'f' :: rest => do
          let ((), rest) ← readLetters ['a', 'l', 's', 'e'] rest
          return (.bool false, rest)
      | '"' :: rest => do
          let (text, rest) ← readString .strict rest
          return (.string text, rest)
      | '[' :: rest =>
          match depth with
          | depth + 1 => readItemsFrom fuel depth [] rest
          | 0 => .error .malformed
      | '{' :: rest =>
          match depth with
          | depth + 1 => readMembersFrom fuel depth [] rest
          | 0 => .error .malformed
      | c :: rest =>
          if c = '-' ∨ c.isDigit then do
            let (value, rest) ← readNumber (c :: rest)
            return (.number value, rest)
          else .error .malformed
      | [] => .error .malformed

/-- Reads the items of an array up to its closing bracket. The items read so far come in
reverse. -/
def readItemsFrom : Nat → Nat → List Json → Reader Json
  | 0, _, _, _ => .error .malformed
  | fuel + 1, depth, done, cs =>
      match skipBlanks cs with
      | ']' :: rest =>
          if done.isEmpty then .ok (.array [], rest) else .error .malformed
      | rest => do
          let (item, rest) ← readValueFrom fuel depth rest
          match skipBlanks rest with
          | ']' :: rest => return (.array (item :: done).reverse, rest)
          | ',' :: rest => readItemsFrom fuel depth (item :: done) rest
          | _ => .error .malformed

/-- Reads the members of an object up to its closing brace. The members read so far come in
reverse; of two with one name the later stays. -/
def readMembersFrom : Nat → Nat → List (String × Json) → Reader Json
  | 0, _, _, _ => .error .malformed
  | fuel + 1, depth, done, cs =>
      match skipBlanks cs with
      | '}' :: rest =>
          if done.isEmpty then .ok (.object [], rest) else .error .malformed
      | '"' :: rest => do
          let (name, rest) ← readString .strict rest
          match skipBlanks rest with
          | ':' :: rest => do
              let (value, rest) ← readValueFrom fuel depth rest
              match skipBlanks rest with
              | '}' :: rest => return (ofMembers ((name, value) :: done).reverse, rest)
              | ',' :: rest => readMembersFrom fuel depth ((name, value) :: done) rest
              | _ => .error .malformed
          | _ => .error .malformed
      | _ => .error .malformed

end

/-- Reads one value from characters that may go on after it. -/
def readValue : Reader Json := fun cs =>
  readValueFrom (2 * cs.length + 2) (depthLimit - 1) cs

/-- The value of a text that holds nothing else but blanks. -/
def parse (text : String) : Except Fault Json := do
  let (value, rest) ← readValue text.toList
  if (skipBlanks rest).isEmpty then return value else .error .malformed

end QueryCache.Json
