import Std.Data.ExtTreeMap
import QueryCache.Datum.Text
import QueryCache.Error

/-!
# Query keys

A query is named by its operation and its arguments. The text of a key is compact JSON with the
arguments sorted by name, so that the order in which they were given does not matter and two
keys have the same text exactly when they are the same.
-/

namespace QueryCache

/-- The failure of a datum that has no JSON form. What the writer of JSON detects itself counts as
unreadable, while a refusal of the value counts as unwritable. -/
def Datum.JsonFault.error : Datum.JsonFault → Error
  | .keyNotText => .deserialization "key must be a string"
  | .keyNotFinite => .deserialization "float key must be finite (got NaN or +/-inf)"
  | .outOfRange => .deserialization "number out of range"
  | .refused reason => .serialization reason

/-- The JSON value of a datum, with the failure that the cache reports for a fault. -/
def Datum.json (datum : Datum) : Except Error Json :=
  match datum.toJson with
  | .ok value => .ok value
  | .error fault => .error fault.error

/-- The JSON text of a datum, with the failure that the cache reports for a fault. -/
def Datum.jsonText (datum : Datum) : Except Error String :=
  match datum.render with
  | .ok written => .ok written
  | .error fault => .error fault.error

/-- A query by its operation and arguments. -/
structure QueryKey where
  operation : String
  arguments : Std.ExtTreeMap String Json

namespace QueryKey

/-- The operation that finds one entity by its identifier. -/
def findByIdName : String := "FindByID"

/-- The operation that finds all entities. -/
def findAllName : String := "FindAll"

/-- The name of the argument that holds the identifier. -/
def idName : String := "ID"

/-- A query without arguments. -/
def ofOperation (operation : String) : QueryKey := ⟨operation, ∅⟩

/-- The query with one more argument, which replaces an older one of its name. -/
def insert (key : QueryKey) (name : String) (value : Json) : QueryKey :=
  { key with arguments := key.arguments.insert name value }

/-- The query with one more argument, if its value has a JSON form. -/
def argument (key : QueryKey) (name : String) (value : Datum) : Except Error QueryKey := do
  return key.insert name (← value.json)

/-- The query for all entities. -/
def findAll : QueryKey := ofOperation findAllName

/-- The query for one entity, by the JSON value of its identifier. -/
def findByIdJson (id : Json) : QueryKey := (ofOperation findByIdName).insert idName id

/-- The query for one entity. -/
def findById (id : Datum) : Except Error QueryKey :=
  (ofOperation findByIdName).argument idName id

/-- The JSON value of a key. -/
def toJson (key : QueryKey) : Json :=
  .array [.string key.operation, .object key.arguments.toList]

/-- The text of a key. -/
def encode (key : QueryKey) : String := key.toJson.render

end QueryKey

end QueryCache
