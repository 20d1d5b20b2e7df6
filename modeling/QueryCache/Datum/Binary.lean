import QueryCache.Datum.Shape
import QueryCache.Wire.Utf8

/-!
# Data as bytes

The byte form of a datum says nothing about its shape: fields, tuples and the content of a case
follow one another, a sequence stands behind its length, an optional value behind a mark, a case
behind its place. `Datum.write` writes this form and `Shape.read` reads it.
-/

namespace QueryCache

open Wire

/-- The bytes of a number, lowest first. -/
def Wire.littleEndian : Nat → Nat → Bytes
  | 0, _ => []
  | count + 1, value => .ofNat (value % 256) :: littleEndian count (value / 256)

/-- The number of bytes that come lowest first. -/
def Wire.ofLittleEndian : Bytes → Nat
  | [] => 0
  | byte :: bytes => byte.toNat + 256 * ofLittleEndian bytes

namespace Datum

mutual

/-- The bytes of a datum. -/
def write : Datum → Except WriteFault Bytes
  | .unit => .ok []
  | .bool value => .ok [if value then 1 else 0]
  | .unsigned width value => .ok (writeUnsigned width value)
  | .signed width value => .ok (writeSigned width value)
  | .float32 bits => .ok (littleEndian 4 bits.toNat)
  | .float64 bits => .ok (littleEndian 8 bits.toNat)
  | .char value => .ok (writeChar value)
  | .text value => .ok (writeText value)
  | .bytes value => .ok (writeBytes value)
  | .absent => .ok [0]
  | .present value => return 1 :: (← write value)
  | .list items => return writeLength items.length ++ (← writeItems items)
  | .stream _ => .error .unknownLength
  | .tuple items => writeItems items
  | .map entries => return writeLength entries.length ++ (← writeEntries entries)
  | .entryStream _ => .error .unknownLength
  | .record fields => writeFields fields
  | .unitCase index _ => .ok (writeUnsigned .w32 index)
  | .wrapCase index _ content => return writeUnsigned .w32 index ++ (← write content)
  | .tupleCase index _ items => return writeUnsigned .w32 index ++ (← writeItems items)
  | .recordCase index _ fields => return writeUnsigned .w32 index ++ (← writeFields fields)
  | .refusal _ => .error .refused

/-- The bytes of data side by side. -/
def writeItems : List Datum → Except WriteFault Bytes
  | [] => .ok []
  | item :: items => do
      let first ← write item
      return first ++ (← writeItems items)

/-- The bytes of entries, each key before its value. -/
def writeEntries : List (Datum × Datum) → Except WriteFault Bytes
  | [] => .ok []
  | (key, value) :: entries => do
      let first ← write key
      let second ← write value
      return first ++ second ++ (← writeEntries entries)

/-- The bytes of fields; their names are not written. -/
def writeFields : List (String × Datum) → Except WriteFault Bytes
  | [] => .ok []
  | (_, value) :: fields => do
      let first ← write value
      return first ++ (← writeFields fields)

end

end Datum

/-- Reads the mark of an optional value: whether one follows. -/
def Wire.readMark : Reader Bool := do
  let byte ← Reader.byte
  if byte = 0 then return false
  else if byte = 1 then return true
  else .fail .badOption

/-- Reads a truth value. -/
def Wire.readBool : Reader Bool := do
  let byte ← Reader.byte
  if byte = 0 then return false
  else if byte = 1 then return true
  else .fail .badBool

mutual

/-- Reads a datum of a shape. -/
def Shape.read : Shape → Reader Datum
  | .unit => return .unit
  | .bool => return .bool (← readBool)
  | .unsigned width => return .unsigned width (← readUnsigned width)
  | .signed width => return .signed width (← readSigned width)
  | .float32 => return .float32 (.ofNat (ofLittleEndian (← Reader.take 4)))
  | .float64 => return .float64 (.ofNat (ofLittleEndian (← Reader.take 8)))
  | .char => return .char (← readChar)
  | .text => return .text (← readText)
  | .bytes => return .bytes (← readBytes)
  | .option content => do
      if ← readMark then return .present (← content.read) else return .absent
  | .list item => do
      let count ← readLength
      return .list (← Reader.many item.read count)
  | .tuple items => return .tuple (← Shape.readItems items)
  | .map key value => do
      let count ← readLength
      let entries ← Reader.many (do
        let key ← key.read
        let value ← value.read
        return (key, value)) count
      return .map (Datum.sortEntries entries)
  | .record fields => return .record (← Shape.readFields fields)
  | .choice cases => do
      let index ← readUnsigned .w32
      Shape.readCase index index cases

/-- Reads data of the shapes side by side. -/
def Shape.readItems : List Shape → Reader (List Datum)
  | [] => return []
  | shape :: shapes => do
      let first ← shape.read
      return first :: (← Shape.readItems shapes)

/-- Reads the fields of a record. -/
def Shape.readFields : List (String × Shape) → Reader (List (String × Datum))
  | [] => return []
  | (name, shape) :: shapes => do
      let first ← shape.read
      return (name, first) :: (← Shape.readFields shapes)

/-- Reads the content of the case that stands the given number of places further on. -/
def Shape.readCase (index : Nat) : Nat → List (String × Content) → Reader Datum
  | _, [] => .fail .refused
  | 0, (name, content) :: _ => content.read index name
  | further + 1, _ :: cases => Shape.readCase index further cases

/-- Reads the content of the case of a place and name. -/
def Content.read : Content → Nat → String → Reader Datum
  | .none, index, name => return .unitCase index name
  | .wrap shape, index, name => return .wrapCase index name (← shape.read)
  | .tuple shapes, index, name => return .tupleCase index name (← Shape.readItems shapes)
  | .record shapes, index, name => return .recordCase index name (← Shape.readFields shapes)

end

end QueryCache
