import QueryCache.Wire.Varint

/-!
# Texts as bytes

A text is written as the length of its UTF-8 form and then that form. A character is written as
the text of that one character, in at most four bytes.
-/

namespace QueryCache.Wire

/-- The UTF-8 form of a text. -/
def utf8 (text : String) : Bytes :=
  text.toUTF8.data.toList

/-- The text whose UTF-8 form the bytes are. -/
def ofUtf8? (bytes : Bytes) : Option String :=
  String.fromUTF8? ⟨bytes.toArray⟩

/-- Writes bytes behind their number. -/
def writeBytes (bytes : Bytes) : Bytes :=
  writeLength bytes.length ++ bytes

/-- Reads bytes behind their number. -/
def readBytes : Reader Bytes := do
  let length ← readLength
  Reader.take length

/-- Writes a text. -/
def writeText (text : String) : Bytes :=
  writeBytes (utf8 text)

/-- Reads a text. -/
def readText : Reader String := do
  let bytes ← readBytes
  match ofUtf8? bytes with
  | some text => return text
  | none => .fail .badText

/-- Writes a character. -/
def writeChar (c : Char) : Bytes :=
  writeText (String.ofList [c])

/-- Reads a character: the first of a text of at most four bytes. -/
def readChar : Reader Char := do
  let length ← readLength
  if 4 < length then .fail .badChar
  else
    let bytes ← Reader.take length
    match (ofUtf8? bytes).map String.toList with
    | some (c :: _) => return c
    | _ => .fail .badChar

end QueryCache.Wire
