import QueryCache.Time.Timestamp
import QueryCache.Wire.Utf8

/-!
# Hits

A hit is the record of one answered query: the text of the query's key, the identifiers of the
entities that were the answer, in order, and the moment of the answer. Its byte form writes the
three one after the other, the moment as the text of a timestamp.
-/

namespace QueryCache

open Wire Time

/-- The record of an answered query. -/
structure Hit (ι : Type) where
  queryId : String
  entityIds : List ι
  timestamp : Timestamp
  deriving DecidableEq, Repr

namespace Hit

variable {ι : Type}

/-- The answer holds the entity of an identifier. -/
def references [DecidableEq ι] (hit : Hit ι) (id : ι) : Bool :=
  hit.entityIds.contains id

/-- The answer holds no entity. -/
def isEmpty (hit : Hit ι) : Bool :=
  hit.entityIds.isEmpty

/-- The bytes of identifiers side by side. -/
def writeIds (writeId : ι → Except WriteFault Bytes) : List ι → Except WriteFault Bytes
  | [] => .ok []
  | id :: ids => do
      let first ← writeId id
      return first ++ (← writeIds writeId ids)

/-- The bytes of a hit. -/
def write (writeId : ι → Except WriteFault Bytes) (hit : Hit ι) : Except WriteFault Bytes := do
  let ids ← writeIds writeId hit.entityIds
  return writeText hit.queryId ++ writeLength hit.entityIds.length ++ ids ++
    writeText hit.timestamp.text

/-- Reads the text of a timestamp. -/
def readTimestamp : Reader Timestamp := do
  let text ← readText
  match Timestamp.ofText? text with
  | some timestamp => return timestamp
  | none => .fail .refused

/-- Reads a hit. -/
def read (readId : Reader ι) : Reader (Hit ι) := do
  let queryId ← readText
  let count ← readLength
  let entityIds ← Reader.many readId count
  let timestamp ← readTimestamp
  return ⟨queryId, entityIds, timestamp⟩

end Hit

end QueryCache
