import QueryCache.Decimal.Float

/-!
# JSON values

The values that JSON text stands for. A number is an integer or the bits of a finite
floating-point number, so that `1` and `1.0` differ. An object is a list of members;
`insertMember` keeps it in ascending order of names with one member for each name.
-/

namespace QueryCache

/-- A JSON number. -/
inductive Number
  | int (value : Int)
  | float (bits : UInt64)
  deriving DecidableEq, Repr

/-- A JSON value. -/
inductive Json
  | null
  | bool (value : Bool)
  | number (value : Number)
  | string (text : String)
  | array (items : List Json)
  | object (members : List (String × Json))
  deriving Repr, Inhabited

namespace Json

/-- The members of an object with one more: in its place by name, and instead of an older member
of the same name. -/
def insertMember {α : Type} (name : String) (value : α) :
    List (String × α) → List (String × α)
  | [] => [(name, value)]
  | (other, old) :: members =>
      if name < other then (name, value) :: (other, old) :: members
      else if name = other then (name, value) :: members
      else (other, old) :: insertMember name value members

/-- The object that the given members make when they are inserted in turn: of two with one name
the later stays. -/
def ofMembers (members : List (String × Json)) : Json :=
  .object (members.foldl (fun sorted member => insertMember member.1 member.2 sorted) [])

/-- The member of a name, if the value is an object that has one. -/
def member? (name : String) : Json → Option Json
  | .object members => members.lookup name
  | _ => none

end Json

end QueryCache
