import QueryCache.Datum.Binary
import QueryCache.Text.Quoted

/-!
# Kinds of identifiers

Seven kinds of identifiers, from numbers to maps, with which a cache can be tried out. A kind
tells the label of its entities, how an identifier is written and read, its literal form, and a
sequence of examples.

Among them are kinds with difficult traits: a label that is empty or holds a colon, identifiers
that share no JSON form with any text, and maps, which are no JSON keys unless they are empty.
-/

namespace QueryCache.Simulation

/-- A kind of identifiers. -/
structure IdKind (ι : Type) where
  label : String
  toDatum : ι → Datum
  shape : Shape
  ofDatum? : Datum → Option ι
  literal : ι → String
  nth : Nat → ι

/-- Reads an identifier. -/
def IdKind.read {ι : Type} (kind : IdKind ι) : Wire.Reader ι := do
  match kind.ofDatum? (← kind.shape.read) with
  | some id => return id
  | none => .fail .refused

namespace IdKind

/-- Numbers without a sign. -/
def natural : IdKind UInt64 where
  label := "item"
  toDatum id := .unsigned .w64 id.toNat
  shape := .unsigned .w64
  ofDatum?
    | .unsigned _ value => some (.ofNat value)
    | _ => none
  literal id := toString id.toNat
  nth n := .ofNat n

/-- Numbers with a sign. -/
def integer : IdKind Int64 where
  label := "delta"
  toDatum id := .signed .w64 id.toInt
  shape := .signed .w64
  ofDatum?
    | .signed _ value => some (.ofInt value)
    | _ => none
  literal id := toString id.toInt
  nth n := .ofInt (-(n : Int))

/-- Texts. -/
def text : IdKind String where
  label := "doc"
  toDatum id := .text id
  shape := .text
  ofDatum?
    | .text value => some value
    | _ => none
  literal id := Text.quoted id
  nth n := "d" ++ toString n

/-- Pairs of a number and a text. -/
def pair : IdKind (UInt32 × String) where
  label := "pair"
  toDatum id := .tuple [.unsigned .w32 id.1.toNat, .text id.2]
  shape := .tuple [.unsigned .w32, .text]
  ofDatum?
    | .tuple [.unsigned _ number, .text name] => some (.ofNat number, name)
    | _ => none
  literal id := "(" ++ toString id.1.toNat ++ ", " ++ Text.quoted id.2 ++ ")"
  nth n := (.ofNat n, "p" ++ toString n)

/-- Numbers or nothing. -/
def option : IdKind (Option UInt32) where
  label := "opt:x"
  toDatum
    | some number => .present (.unsigned .w32 number.toNat)
    | none => .absent
  shape := .option (.unsigned .w32)
  ofDatum?
    | .present (.unsigned _ number) => some (some (.ofNat number))
    | .absent => some none
    | _ => none
  literal
    | some number => "Some(" ++ toString number.toNat ++ ")"
    | none => "None"
  nth
    | 0 => none
    | n + 1 => some (.ofNat n)

end IdKind

/-- A choice with a case of every form. -/
inductive Code
  | root
  | num (number : UInt32)
  | pair (number : Int32) (text : String)
  | named (name : String)
  deriving DecidableEq, Repr

/-- The shape of codes. -/
def Code.shape : Shape :=
  .choice
    [("Root", .none), ("Num", .wrap (.unsigned .w32)), ("Pair", .tuple [.signed .w32, .text]),
      ("Named", .record [("name", .text)])]

/-- Codes. -/
def IdKind.code : IdKind Code where
  label := ""
  toDatum
    | .root => .unitCase 0 "Root"
    | .num number => .wrapCase 1 "Num" (.unsigned .w32 number.toNat)
    | .pair number text => .tupleCase 2 "Pair" [.signed .w32 number.toInt, .text text]
    | .named name => .recordCase 3 "Named" [("name", .text name)]
  shape := Code.shape
  ofDatum?
    | .unitCase 0 _ => some .root
    | .wrapCase 1 _ (.unsigned _ number) => some (.num (.ofNat number))
    | .tupleCase 2 _ [.signed _ number, .text text] => some (.pair (.ofInt number) text)
    | .recordCase 3 _ [(_, .text name)] => some (.named name)
    | _ => none
  literal
    | .root => "Root"
    | .num number => "Num(" ++ toString number.toNat ++ ")"
    | .pair number text =>
        "Pair(" ++ toString number.toInt ++ ", " ++ Text.quoted text ++ ")"
    | .named name => "Named \x7b name: " ++ Text.quoted name ++ " \x7d"
  nth n :=
    match n % 4 with
    | 0 => .root
    | 1 => .num (.ofNat n)
    | 2 => .pair (.ofInt (-(n : Int))) "x"
    | _ => .named ("n" ++ toString n)

/-- A map from bytes to small numbers, as entries in the order of their keys. -/
structure MapId where
  entries : List (List UInt8 × UInt8)
  deriving DecidableEq, Repr

namespace MapId

/-- Bytes as a datum. -/
def bytesDatum (bytes : List UInt8) : Datum :=
  .list (bytes.map fun byte => .unsigned .w8 byte.toNat)

/-- A map as a datum. -/
def toDatum (id : MapId) : Datum :=
  .map (id.entries.map fun entry => (bytesDatum entry.1, .unsigned .w8 entry.2.toNat))

/-- A small number from its datum. -/
def byteOf? : Datum → Option UInt8
  | .unsigned _ value => some (.ofNat value)
  | _ => none

/-- An entry from its data. -/
def entryOf? : Datum × Datum → Option (List UInt8 × UInt8)
  | (.list items, value) => do return (← items.mapM byteOf?, ← byteOf? value)
  | _ => none

/-- A map from its datum. -/
def ofDatum? : Datum → Option MapId
  | .map entries => do return ⟨← entries.mapM entryOf?⟩
  | _ => none

/-- The map of entries in any order: of two with one key the later stays. -/
def ofEntries (entries : List (List UInt8 × UInt8)) : MapId :=
  let data := entries.map fun entry => (bytesDatum entry.1, Datum.unsigned .w8 entry.2.toNat)
  (ofDatum? (.map (Datum.sortEntries data))).getD ⟨[]⟩

/-- Numbers between brackets. -/
def bytesLiteral (bytes : List UInt8) : String :=
  "[" ++ String.intercalate ", " (bytes.map fun byte => toString byte.toNat) ++ "]"

/-- The literal form of a map. -/
def literal (id : MapId) : String :=
  "MapId(\x7b" ++
    String.intercalate ", "
      (id.entries.map fun entry => bytesLiteral entry.1 ++ ": " ++ toString entry.2.toNat) ++
    "\x7d)"

end MapId

/-- Maps. -/
def IdKind.map : IdKind MapId where
  label := "map"
  toDatum := MapId.toDatum
  shape := .map (.list (.unsigned .w8)) (.unsigned .w8)
  ofDatum? := MapId.ofDatum?
  literal := MapId.literal
  nth n := ⟨(List.range' 1 (n - 1)).map fun k => ([.ofNat k], .ofNat k)⟩

end QueryCache.Simulation
