import QueryCache.Schema
import QueryCache.Simulation.IdKind

/-!
# Entities to try a cache out with

An entity of an identifier and a text. The text can ask for trouble: one that begins with a mark
makes its entity fail on the way into or out of a store, or makes the store keep bytes that are
damaged. All other texts are stored and read back as they are.
-/

namespace QueryCache.Simulation

open Wire

/-- An identifier and a text. -/
structure Entry (ι : Type) where
  id : ι
  text : String
  deriving DecidableEq, Repr

/-- What the mark at the beginning of a text does. -/
inductive Mark
  /-- The entity refuses to be written. -/
  | refuseWrite
  /-- The entity refuses to be read. -/
  | refuseRead
  /-- The entity is stored under the next version of the record format. -/
  | laterVersion
  /-- The entity is stored under other magic bytes. -/
  | otherMagic
  /-- The last byte of the stored form is lost. -/
  | truncated
  /-- Two bytes follow the stored form. -/
  | padded
  deriving DecidableEq, Repr

/-- The mark of a text. -/
def Mark.of? (text : String) : Option Mark :=
  if text.startsWith "!ser" then some .refuseWrite
  else if text.startsWith "!de" then some .refuseRead
  else if text.startsWith "!ver" then some .laterVersion
  else if text.startsWith "!magic" then some .otherMagic
  else if text.startsWith "!trunc" then some .truncated
  else if text.startsWith "!pad" then some .padded
  else none

namespace Entry

variable {ι : Type} (kind : IdKind ι)

/-- An entity without regard to marks, as a datum. -/
def toDatum (entry : Entry ι) : Datum :=
  .record [("id", kind.toDatum entry.id), ("v", .text entry.text)]

/-- The stored form without regard to marks. -/
def encodePlain (entry : Entry ι) : Except Error Bytes :=
  Envelope.encode (entry.toDatum kind).write

/-- Reads an entity without regard to marks. -/
def readPlain : Reader (Entry ι) := do
  let id ← kind.read
  let text ← readText
  return ⟨id, text⟩

/-- The entity of stored bytes without regard to marks. -/
def decodePlain (bytes : Bytes) : Except Error (Entry ι) :=
  Envelope.decode (readPlain kind) bytes

/-- The stored form of an entity. -/
def encode (entry : Entry ι) : Except Error Bytes := do
  match Mark.of? entry.text with
  | some .refuseWrite => Envelope.encode (.error .refused)
  | some .laterVersion => stored { Envelope.wrap [] with version := 2 }
  | some .otherMagic => stored { Envelope.wrap [] with magic := [0x58, 0x58, 0x58, 0x58] }
  | some .truncated => return (← entry.encodePlain kind).dropLast
  | some .padded => return (← entry.encodePlain kind) ++ [0x00, 0xFF]
  | _ => entry.encodePlain kind
where
  /-- The stored form under other labels. -/
  stored (labels : Envelope Bytes) : Except Error Bytes :=
    match (entry.toDatum kind).write with
    | .ok payload => .ok { labels with payload }.write
    | .error fault => Envelope.encode (.error fault)

/-- Reads an entity. -/
def read : Reader (Entry ι) := do
  let entry ← readPlain kind
  if Mark.of? entry.text = some .refuseRead then .fail .refused else return entry

/-- The entity of stored bytes. -/
def decode (bytes : Bytes) : Except Error (Entry ι) :=
  Envelope.decode (read kind) bytes

end Entry

/-- How the entities of a kind are cached. -/
def IdKind.schema {ι : Type} (kind : IdKind ι) : Schema ι (Entry ι) where
  label := kind.label
  idOf := Entry.id
  idDatum := kind.toDatum
  readId := kind.read
  idText := kind.literal
  encode := Entry.encode kind
  decode := Entry.decode kind

end QueryCache.Simulation
