import QueryCache.Text.Quoted

/-!
# Failures

Every operation of the cache, of its stores and of a source ends in a value or in one of the
causes below. A cause has one wording for people (`message`) and one literal form that shows
its constructor and arguments (`literal`).
-/

namespace QueryCache

/-- What a source may be able to do besides finding one entity by its identifier. -/
inductive Capability
  | create
  | update
  | deleteById
  | deleteAll
  | findAll
  deriving DecidableEq, Repr

/-- The name under which a capability is reported. -/
def Capability.name : Capability → String
  | .create => "Create"
  | .update => "Update"
  | .deleteById => "DeleteByID"
  | .deleteAll => "DeleteAll"
  | .findAll => "FindAll"

/-- The causes of failure. -/
inductive Error
  /-- The source does not offer the operation. -/
  | capabilityMissing (capability : Capability)
  /-- The caller's context was cancelled. -/
  | cancelled
  /-- The caller's context ran past its deadline, or a store gave up waiting. -/
  | timeout (text : String)
  /-- A store failed. -/
  | backend (text : String)
  /-- The source failed. -/
  | source (text : String)
  /-- A transaction was used after its end, or where none is open. -/
  | transaction (text : String)
  /-- The record asked for is absent. -/
  | notFound (text : String)
  /-- A value could not be written. -/
  | serialization (text : String)
  /-- A value could not be read. -/
  | deserialization (text : String)
  /-- Stored bytes are no record of this cache. -/
  | invalidEntry (text : String)
  /-- Stored bytes belong to another version of the record format. -/
  | versionMismatch (expected found : UInt32)
  /-- Anything else. -/
  | other (text : String)
  deriving DecidableEq, Repr

namespace Error

/-- The name of the cause. -/
def kind : Error → String
  | .capabilityMissing _ => "CapabilityMissing"
  | .cancelled => "Cancelled"
  | .timeout _ => "Timeout"
  | .backend _ => "BackendError"
  | .source _ => "SourceError"
  | .transaction _ => "TransactionError"
  | .notFound _ => "NotFound"
  | .serialization _ => "SerializationError"
  | .deserialization _ => "DeserializationError"
  | .invalidEntry _ => "InvalidCacheEntry"
  | .versionMismatch _ _ => "VersionMismatch"
  | .other _ => "Other"

/-- The wording for people. -/
def message : Error → String
  | .capabilityMissing capability => capability.name ++ ": not implemented by source"
  | .cancelled => "Operation cancelled"
  | .timeout text => "Timeout: " ++ text
  | .backend text => "Backend error: " ++ text
  | .source text => "Source error: " ++ text
  | .transaction text => "Transaction error: " ++ text
  | .notFound text => "Not found: " ++ text
  | .serialization text => "Serialization error: " ++ text
  | .deserialization text => "Deserialization error: " ++ text
  | .invalidEntry text => "Invalid cache entry: " ++ text
  | .versionMismatch expected found =>
      "Cache version mismatch: expected " ++ toString expected.toNat ++ ", found " ++
        toString found.toNat
  | .other text => "Error: " ++ text

/-- The literal form: the name of the cause, then its arguments as they would be entered. -/
def literal : Error → String
  | .capabilityMissing capability => "CapabilityMissing(" ++ capability.name ++ ")"
  | .cancelled => "Cancelled"
  | .versionMismatch expected found =>
      "VersionMismatch \x7b expected: " ++ toString expected.toNat ++ ", found: " ++
        toString found.toNat ++ " \x7d"
  | .timeout text => "Timeout(" ++ Text.quoted text ++ ")"
  | .backend text => "BackendError(" ++ Text.quoted text ++ ")"
  | .source text => "SourceError(" ++ Text.quoted text ++ ")"
  | .transaction text => "TransactionError(" ++ Text.quoted text ++ ")"
  | .notFound text => "NotFound(" ++ Text.quoted text ++ ")"
  | .serialization text => "SerializationError(" ++ Text.quoted text ++ ")"
  | .deserialization text => "DeserializationError(" ++ Text.quoted text ++ ")"
  | .invalidEntry text => "InvalidCacheEntry(" ++ Text.quoted text ++ ")"
  | .other text => "Other(" ++ Text.quoted text ++ ")"

/-- A failure of the caller's context rather than of a store or a source. The cache passes
such a failure on at once, whereas it works around the others. -/
def isContext : Error → Bool
  | .cancelled => true
  | .timeout _ => true
  | _ => false

end Error

end QueryCache
