import QueryCache.Json.Printer
import QueryCache.Json.Reader

/-!
# Lists of query keys

The texts of query keys as a JSON array, and back; and such a list sorted by code points without
repeats.
-/

namespace QueryCache.KeyList

/-- The JSON text of a list. -/
def render (keys : List String) : String :=
  (Json.array (keys.map .string)).render

/-- The text of a JSON string. -/
def text? : Json → Option String
  | .string text => some text
  | _ => none

/-- The list of a JSON text, if it is an array of strings. -/
def parse? (text : String) : Option (List String) :=
  match Json.parse text with
  | .ok (.array items) => items.mapM text?
  | _ => none

/-- A sorted list without repeats, with one more key. -/
def insert (key : String) : List String → List String
  | [] => [key]
  | other :: keys =>
      if key < other then key :: other :: keys
      else if key = other then other :: keys
      else other :: insert key keys

/-- The keys of a list in ascending order, each once. -/
def sorted (keys : List String) : List String :=
  keys.foldr insert []

end QueryCache.KeyList
