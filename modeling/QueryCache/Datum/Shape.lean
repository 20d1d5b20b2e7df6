import QueryCache.Datum.Basic

/-!
# Shapes

A shape says which data a reader is to expect: bytes and, to a large part, JSON text do not say
themselves what they hold. A datum that a shape holds is written and read back without loss.

Every shape has an order on the data it holds, by which the entries of a map are sorted.
-/

namespace QueryCache

mutual

/-- What is to be read. -/
inductive Shape
  | unit
  | bool
  | unsigned (width : Width)
  | signed (width : Width)
  | float32
  | float64
  | char
  | text
  | bytes
  /-- An optional value. -/
  | option (content : Shape)
  | list (item : Shape)
  | tuple (items : List Shape)
  /-- Entries sorted by their keys. -/
  | map (key value : Shape)
  | record (fields : List (String × Shape))
  /-- One of several named cases. -/
  | choice (cases : List (String × Content))

/-- What a case of a choice holds. -/
inductive Content
  | none
  | wrap (content : Shape)
  | tuple (items : List Shape)
  | record (fields : List (String × Shape))

end

instance : Inhabited Shape := ⟨.unit⟩

namespace Datum

/-- The place of a case in its choice. -/
def caseIndex? : Datum → Option Nat
  | .unitCase index _ => some index
  | .wrapCase index _ _ => some index
  | .tupleCase index _ _ => some index
  | .recordCase index _ _ => some index
  | _ => none

mutual

/-- The order of data of one shape: numbers by value, texts and characters by code points,
sequences and fields from the front, an absent value before a present one, cases by their
places. -/
def order : Datum → Datum → Ordering
  | .bool a, .bool b => compare a b
  | .unsigned _ a, .unsigned _ b => compare a b
  | .signed _ a, .signed _ b => compare a b
  | .char a, .char b => compare a.toNat b.toNat
  | .text a, .text b => compare a b
  | .bytes a, .bytes b => compare (a.map UInt8.toNat) (b.map UInt8.toNat)
  | .absent, .present _ => .lt
  | .present _, .absent => .gt
  | .present a, .present b => order a b
  | .list a, .list b => orderItems a b
  | .tuple a, .tuple b => orderItems a b
  | .map a, .map b => orderEntries a b
  | .record a, .record b => orderFields a b
  | .wrapCase i _ a, .wrapCase j _ b => (compare i j).then (order a b)
  | .tupleCase i _ a, .tupleCase j _ b => (compare i j).then (orderItems a b)
  | .recordCase i _ a, .recordCase j _ b => (compare i j).then (orderFields a b)
  | a, b =>
      match a.caseIndex?, b.caseIndex? with
      | some i, some j => compare i j
      | _, _ => .eq

/-- Sequences are ordered by the first place where they differ; a sequence stands behind its
beginnings. -/
def orderItems : List Datum → List Datum → Ordering
  | [], [] => .eq
  | [], _ :: _ => .lt
  | _ :: _, [] => .gt
  | a :: as, b :: bs => (order a b).then (orderItems as bs)

/-- Entries are ordered by their keys, then by their values. -/
def orderEntries : List (Datum × Datum) → List (Datum × Datum) → Ordering
  | [], [] => .eq
  | [], _ :: _ => .lt
  | _ :: _, [] => .gt
  | (k, a) :: as, (l, b) :: bs => ((order k l).then (order a b)).then (orderEntries as bs)

/-- Fields are ordered by their values from the front. -/
def orderFields : List (String × Datum) → List (String × Datum) → Ordering
  | [], [] => .eq
  | [], _ :: _ => .lt
  | _ :: _, [] => .gt
  | (_, a) :: as, (_, b) :: bs => (order a b).then (orderFields as bs)

end

/-- Sorted entries with one more; it takes the place of an entry of an equal key. -/
def insertEntry (key value : Datum) : List (Datum × Datum) → List (Datum × Datum)
  | [] => [(key, value)]
  | (other, old) :: entries =>
      match order key other with
      | .lt => (key, value) :: (other, old) :: entries
      | .eq => (key, value) :: entries
      | .gt => (other, old) :: insertEntry key value entries

/-- The sorted entries that the given ones make: of two with equal keys the later stays. -/
def sortEntries (entries : List (Datum × Datum)) : List (Datum × Datum) :=
  entries.foldl (fun sorted entry => insertEntry entry.1 entry.2 sorted) []

/-- Each key stands before all later ones. -/
def Ascending (entries : List (Datum × Datum)) : Prop :=
  entries.Pairwise fun a b => order b.1 a.1 = .gt

end Datum

mutual

/-- A datum is of a shape. Lengths and numbers fit their widths, maps are sorted, and a case
stands at the place of its name. -/
def Shape.Holds : Shape → Datum → Prop
  | .unit, .unit => True
  | .bool, .bool _ => True
  | .unsigned width, .unsigned width' value => width' = width ∧ value < width.limit
  | .signed width, .signed width' value =>
      width' = width ∧ -(width.signedLimit : Int) ≤ value ∧ value < width.signedLimit
  | .float32, .float32 _ => True
  | .float64, .float64 _ => True
  | .char, .char _ => True
  | .text, .text value => value.utf8ByteSize < Width.w64.limit
  | .bytes, .bytes value => value.length < Width.w64.limit
  | .option _, .absent => True
  | .option content, .present value => content.Holds value
  | .list item, .list items => items.length < Width.w64.limit ∧ ∀ value ∈ items, item.Holds value
  | .tuple shapes, .tuple items => Shape.HoldItems shapes items
  | .map key value, .map entries =>
      entries.length < Width.w64.limit ∧ Datum.Ascending entries ∧
        ∀ entry ∈ entries, key.Holds entry.1 ∧ value.Holds entry.2
  | .record shapes, .record fields => Shape.HoldFields shapes fields
  | .choice cases, datum => Shape.HoldCase 0 cases datum
  | _, _ => False

/-- Data side by side are of the shapes side by side. -/
def Shape.HoldItems : List Shape → List Datum → Prop
  | [], [] => True
  | shape :: shapes, item :: items => shape.Holds item ∧ Shape.HoldItems shapes items
  | _, _ => False

/-- Fields have the names and shapes of a record. -/
def Shape.HoldFields : List (String × Shape) → List (String × Datum) → Prop
  | [], [] => True
  | (name, shape) :: shapes, (name', value) :: fields =>
      name' = name ∧ shape.Holds value ∧ Shape.HoldFields shapes fields
  | _, _ => False

/-- A datum is one of the cases, the first of which stands at the given place. -/
def Shape.HoldCase : Nat → List (String × Content) → Datum → Prop
  | _, [], _ => False
  | index, (name, content) :: cases, datum =>
      index < Width.w32.limit ∧ content.Holds index name datum ∨
        Shape.HoldCase (index + 1) cases datum

/-- A datum is the case of a place and name with the content. -/
def Content.Holds : Content → Nat → String → Datum → Prop
  | .none, index, name, .unitCase index' name' => index' = index ∧ name' = name
  | .wrap shape, index, name, .wrapCase index' name' value =>
      index' = index ∧ name' = name ∧ shape.Holds value
  | .tuple shapes, index, name, .tupleCase index' name' items =>
      index' = index ∧ name' = name ∧ Shape.HoldItems shapes items
  | .record shapes, index, name, .recordCase index' name' fields =>
      index' = index ∧ name' = name ∧ Shape.HoldFields shapes fields
  | _, _, _, _ => False

end

end QueryCache
