import QueryCache.Error
import QueryCache.Wire.Varint

/-!
# Envelopes

A stored record is a payload behind four magic bytes and the version of the record format. To
open stored bytes, the whole envelope is read first; only then are the magic bytes checked, and
after them the version. What follows the payload is ignored.
-/

namespace QueryCache

open Wire

/-- A payload with its labels. -/
structure Envelope (α : Type) where
  magic : Bytes
  version : UInt32
  payload : α
  deriving DecidableEq, Repr

namespace Envelope

/-- The magic bytes of this cache. -/
def standardMagic : Bytes := [0x43, 0x54, 0x48, 0x52]

/-- The version of the record format. -/
def currentVersion : UInt32 := 1

/-- A payload under the labels of this cache. -/
def wrap {α : Type} (payload : α) : Envelope α :=
  ⟨standardMagic, currentVersion, payload⟩

/-- The bytes of an envelope whose payload is written already. -/
def write (envelope : Envelope Bytes) : Bytes :=
  envelope.magic ++ writeUnsigned .w32 envelope.version.toNat ++ envelope.payload

/-- Reads an envelope around a payload. -/
def read {α : Type} (payload : Reader α) : Reader (Envelope α) := do
  let magic ← Reader.take 4
  let version ← readUnsigned .w32
  let payload ← payload
  return ⟨magic, .ofNat version, payload⟩

/-- Bytes as a list of numbers. -/
def bytesText (bytes : Bytes) : String :=
  "[" ++ String.intercalate ", " (bytes.map fun byte => toString byte.toNat) ++ "]"

/-- The payload of an envelope that bears the labels of this cache. -/
def contents {α : Type} (envelope : Envelope α) : Except Error α :=
  if envelope.magic ≠ standardMagic then
    .error (.invalidEntry ("Invalid magic: expected " ++ bytesText standardMagic ++ ", got " ++
      bytesText envelope.magic))
  else if envelope.version ≠ currentVersion then
    .error (.versionMismatch currentVersion envelope.version)
  else .ok envelope.payload

/-- The payload of stored bytes. -/
def decode {α : Type} (payload : Reader α) (bytes : Bytes) : Except Error α :=
  match read payload bytes with
  | .ok (envelope, _) => envelope.contents
  | .error fault => .error (.deserialization fault.message)

/-- The stored form of a payload, unless it refuses to be written. -/
def encode (payload : Except WriteFault Bytes) : Except Error Bytes :=
  match payload with
  | .ok bytes => .ok (wrap bytes).write
  | .error fault => .error (.serialization fault.message)

end Envelope

end QueryCache
