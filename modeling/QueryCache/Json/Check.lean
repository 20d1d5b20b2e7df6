import QueryCache.Json.Reader

/-!
# Checking JSON text while it is read

A check reads a value of one kind and gives back what is left. The first place where text and
kind disagree decides whether the text is malformed or holds something else: a scalar of the
wrong kind is read to its end before it is refused, an array or object is refused at its opening
bracket.

A record is an object with all its fields, each once, in any order and possibly with others, or
an array of the fields in order. A case without content is its name, any other is an object of
its name and content.
-/

namespace QueryCache.Json

/-- Reads a value and gives back what is left. -/
abbrev Check := List Char → Except Fault (List Char)

namespace Check

/-- Reads a value that is not of the kind asked for. -/
def mismatch : Check
  | 'n' :: rest => do
      let _ ← readLetters ['u', 'l', 'l'] rest
      .error .mismatch
  | 't' :: rest => do
      let _ ← readLetters ['r', 'u', 'e'] rest
      .error .mismatch
  | 'f' :: rest => do
      let _ ← readLetters ['a', 'l', 's', 'e'] rest
      .error .mismatch
  | '"' :: rest => do
      let _ ← readString .strict rest
      .error .mismatch
  | '[' :: _ => .error .mismatch
  | '{' :: _ => .error .mismatch
  | cs => do
      let _ ← readNumber cs
      .error .mismatch

/-- A value behind blanks begins a number. -/
def beginsNumber : List Char → Bool
  | c :: _ => c = '-' || c.isDigit
  | [] => false

/-- An integer in a range. -/
def integer (low high : Int) : Check := fun cs =>
  let cs := skipBlanks cs
  if beginsNumber cs then do
    match ← readNumber cs with
    | (.int value, rest) => if low ≤ value ∧ value ≤ high then return rest else .error .mismatch
    | (.float _, _) => .error .mismatch
  else mismatch cs

/-- Reads a string after blanks. -/
def readText : Reader String := fun cs =>
  match skipBlanks cs with
  | '"' :: rest => readString .strict rest
  | rest => do
      let _ ← mismatch rest
      .error .mismatch

/-- A string. -/
def text : Check := fun cs => do
  let (_, rest) ← readText cs
  return rest

/-- The value `null`. -/
def null : Check := fun cs =>
  match skipBlanks cs with
  | 'n' :: rest => do
      let (_, rest) ← readLetters ['u', 'l', 'l'] rest
      return rest
  | rest => mismatch rest

/-- Any value, nested within the limit of depth. -/
def value : Check := fun cs => do
  let (_, rest) ← readValue cs
  return rest

/-- Reads one character after blanks, which no kind of value excuses. -/
def mark (expected : Char) : Check := fun cs =>
  match skipBlanks cs with
  | c :: rest => if c = expected then .ok rest else .error .malformed
  | [] => .error .malformed

/-- Goes to the next item or member of a container with the given closing bracket, over the comma
before it unless it is the first. Before the closing bracket, which is not read, there is no
next. -/
def next (close : Char) (isFirst : Bool) (cs : List Char) : Except Fault (Option (List Char)) :=
  match skipBlanks cs with
  | [] => .error .malformed
  | c :: rest =>
      if c = close then .ok none
      else if isFirst then .ok (some (c :: rest))
      else if c = ',' then
        match skipBlanks rest with
        | [] => .error .malformed
        | d :: rest => if d = close then .error .malformed else .ok (some (d :: rest))
      else .error .malformed

mutual

/-- Any value without a limit of depth; numbers may have any size and escapes may name
surrogates. -/
def anything : Nat → Check
  | 0, _ => .error .malformed
  | fuel + 1, cs => do
      match skipBlanks cs with
      | '[' :: rest => anyItems fuel true rest
      | '{' :: rest => anyMembers fuel true rest
      | '"' :: rest => return (← readString .lax rest).2
      | 'n' :: rest => return (← readLetters ['u', 'l', 'l'] rest).2
      | 't' :: rest => return (← readLetters ['r', 'u', 'e'] rest).2
      | 'f' :: rest => return (← readLetters ['a', 'l', 's', 'e'] rest).2
      | rest => return (← readNumeral rest).2

/-- Any items up to and with the closing bracket. -/
def anyItems : Nat → Bool → Check
  | 0, _, _ => .error .malformed
  | fuel + 1, isFirst, cs => do
      match ← next ']' isFirst cs with
      | none => mark ']' cs
      | some rest => anyItems fuel false (← anything fuel rest)

/-- Any members up to and with the closing brace. -/
def anyMembers : Nat → Bool → Check
  | 0, _, _ => .error .malformed
  | fuel + 1, isFirst, cs => do
      match ← next '}' isFirst cs with
      | none => mark '}' cs
      | some ('"' :: rest) => do
          let (_, rest) ← readString .lax rest
          anyMembers fuel false (← anything fuel (← mark ':' rest))
      | some _ => .error .malformed

end

/-- A value that is thrown away. -/
def ignored : Check := fun cs =>
  anything (2 * cs.length + 2) cs

/-- Items of one kind up to and with the closing bracket. -/
def items (item : Check) : Nat → Bool → Check
  | 0, _, _ => .error .malformed
  | fuel + 1, isFirst, cs => do
      match ← next ']' isFirst cs with
      | none => mark ']' cs
      | some rest => items item fuel false (← item rest)

/-- Items of the given kinds, one each, up to and with the closing bracket. -/
def row : Bool → List Check → Check
  | _, [], cs => mark ']' cs
  | isFirst, item :: others, cs => do
      match ← next ']' isFirst cs with
      | none => .error .mismatch
      | some rest => row false others (← item rest)

/-- Members up to and with the closing brace, while fields of the given names are missing. -/
def members (fields : List (String × Check)) : Nat → Bool → List String → Check
  | 0, _, _, _ => .error .malformed
  | fuel + 1, isFirst, missing, cs => do
      match ← next '}' isFirst cs with
      | none => if missing.isEmpty then mark '}' cs else .error .mismatch
      | some ('"' :: rest) => do
          let (name, rest) ← readString .strict rest
          match fields.lookup name with
          | none => members fields fuel false missing (← ignored (← mark ':' rest))
          | some field =>
              if missing.contains name then
                members fields fuel false (missing.erase name) (← field (← mark ':' rest))
              else .error .mismatch
      | some _ => .error .malformed

/-- An array of items of one kind. -/
def array (item : Check) : Check := fun cs =>
  match skipBlanks cs with
  | '[' :: rest => items item (rest.length + 1) true rest
  | rest => mismatch rest

/-- An array of items of the given kinds. -/
def tuple (kinds : List Check) : Check := fun cs =>
  match skipBlanks cs with
  | '[' :: rest => row true kinds rest
  | rest => mismatch rest

/-- A record of the given fields. -/
def record (fields : List (String × Check)) : Check := fun cs =>
  match skipBlanks cs with
  | '{' :: rest => members fields (rest.length + 1) true (fields.map (·.1)) rest
  | rest => tuple (fields.map (·.2)) rest

/-- One of the given cases, each with a check of its content if it has any. -/
def choice (cases : List (String × Option Check)) : Check := fun cs =>
  match skipBlanks cs with
  | '{' :: rest => do
      let (name, rest) ← readText rest
      match cases.lookup name with
      | none => .error .mismatch
      | some content => mark '}' (← (content.getD null) (← mark ':' rest))
  | '"' :: rest => do
      let (name, rest) ← readString .strict rest
      match cases.lookup name with
      | some none => return rest
      | _ => .error .mismatch
  | _ => .error .malformed

/-- The whole text is of the kind. -/
def run (check : Check) (text : String) : Except Fault Unit := do
  let rest ← check text.toList
  if (skipBlanks rest).isEmpty then return () else .error .malformed

end Check

end QueryCache.Json
