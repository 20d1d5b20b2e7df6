import QueryCache.Datum.Binary
import QueryCache.Envelope
import QueryCache.Hit
import QueryCache.Key

/-!
# Schemas

A schema says how entities of one type are cached: under which label, how an entity is
identified, and which bytes it is stored as. Hits are stored in one way for all schemas, given
how identifiers are written and read.
-/

namespace QueryCache

open Wire

/-- How entities of type `ε` with identifiers of type `ι` are cached. -/
structure Schema (ι ε : Type) where
  /-- Stands before the identifier in the keys of stored entities and in messages. -/
  label : String
  idOf : ε → ι
  idDatum : ι → Datum
  readId : Reader ι
  /-- An identifier as it appears in messages of a source. -/
  idText : ι → String
  encode : ε → Except Error Bytes
  decode : Bytes → Except Error ε

namespace Schema

variable {ι ε : Type} (schema : Schema ι ε)

/-- The key under which the entity of an identifier is stored: the label and the JSON text of the
identifier. -/
def entityKey (id : ι) : Except Error String := do
  return schema.label ++ ":" ++ (← (schema.idDatum id).jsonText)

/-- The text of the query for the entity of an identifier. The identifier stands in it by its JSON
value, which it may lack although it has a JSON text. -/
def findByIdKey (id : ι) : Except Error String := do
  return (← QueryKey.findById (schema.idDatum id)).encode

/-- The stored form of a hit. -/
def encodeHit (hit : Hit ι) : Except Error Bytes :=
  Envelope.encode (hit.write fun id => (schema.idDatum id).write)

/-- The hit of stored bytes. -/
def decodeHit (bytes : Bytes) : Except Error (Hit ι) :=
  Envelope.decode (Hit.read schema.readId) bytes

/-- A label and an identifier, as a source names an entity in its messages. -/
def named (id : ι) : String := schema.label ++ " " ++ schema.idText id

end Schema

end QueryCache
