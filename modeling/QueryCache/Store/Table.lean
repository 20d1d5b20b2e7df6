import Std.Data.ExtTreeMap
import QueryCache.Action
import QueryCache.Context
import QueryCache.Wire.Reader

/-!
# Tables with nested transactions

A table holds committed rows, and for every open transaction an overlay of the changes made in
it. A transaction may stand within another one, its parent. Who reads in a transaction sees the
committed rows under the overlays from the outermost transaction inwards; who writes in it
changes its overlay only. A commit lays an overlay over its parent, or over the rows if it has no
parent.
-/

namespace QueryCache

open Wire

/-- Rows by their keys. -/
abbrev Rows := Std.ExtTreeMap String Bytes

/-- Changes by the keys of the rows: new bytes, or none where a row is removed. -/
abbrev Changes := Std.ExtTreeMap String (Option Bytes)

/-- The rows after one change. -/
def Rows.change (rows : Rows) (key : String) : Option Bytes → Rows
  | some bytes => rows.insert key bytes
  | none => rows.erase key

/-- The changes made in an open transaction. When it is cleared, rows from outside are hidden and
the changes came after that. -/
structure Overlay where
  parent : Option TxId
  cleared : Bool
  changes : Changes

namespace Overlay

/-- The overlay of a new transaction. -/
def empty (parent : Option TxId) : Overlay := ⟨parent, false, ∅⟩

/-- The row of a key seen through an overlay, given the row below it. -/
def rowThrough (overlay : Overlay) (key : String) (below : Option Bytes) : Option Bytes :=
  overlay.changes[key]?.getD (if overlay.cleared then none else below)

/-- All rows seen through an overlay, given the rows below it. -/
def applyTo (overlay : Overlay) (rows : Rows) : Rows :=
  (if overlay.cleared then ∅ else rows).filter (fun key _ => !overlay.changes.contains key) ∪
    overlay.changes.filterMap fun _ change => change

/-- One overlay laid over another. -/
def onto (upper lower : Overlay) : Overlay :=
  { lower with
    cleared := upper.cleared || lower.cleared
    changes := (if upper.cleared then ∅ else lower.changes) ∪ upper.changes }

@[simp] theorem getElem?_applyTo (overlay : Overlay) (rows : Rows) (key : String) :
    (overlay.applyTo rows)[key]? = overlay.rowThrough key rows[key]? := by
  have known := Std.ExtTreeMap.contains_eq_isSome_getElem? (t := overlay.changes) (a := key)
  simp only [applyTo, rowThrough, Std.ExtTreeMap.getElem?_union,
    Std.ExtTreeMap.getElem?_filterMap', Std.ExtTreeMap.getElem?_filter', known]
  cases overlay.changes[key]? with
  | none =>
      by_cases cleared : overlay.cleared
      · simp [cleared]
      · cases below : rows[key]? <;> simp [cleared, below]
  | some change => cases change <;> simp

@[simp] theorem rowThrough_empty (parent : Option TxId) (key : String) (below : Option Bytes) :
    (empty parent).rowThrough key below = below := by
  simp [rowThrough, empty]

/-- Looking through one overlay laid over another is looking through both. -/
@[simp] theorem rowThrough_onto (upper lower : Overlay) (key : String) (below : Option Bytes) :
    (upper.onto lower).rowThrough key below =
      upper.rowThrough key (lower.rowThrough key below) := by
  simp only [rowThrough, onto, Std.ExtTreeMap.getElem?_union]
  by_cases cleared : upper.cleared
  · cases upper.changes[key]? <;> simp [cleared]
  · cases upper.changes[key]? <;> simp [cleared]

/-- Rows that agree on every key are the same. -/
theorem rows_ext {left right : Rows} (agree : ∀ key : String, left[key]? = right[key]?) :
    left = right :=
  Std.ExtTreeMap.ext_getElem? agree

@[simp] theorem applyTo_onto (upper lower : Overlay) (rows : Rows) :
    (upper.onto lower).applyTo rows = upper.applyTo (lower.applyTo rows) :=
  rows_ext fun key => by simp

@[simp] theorem applyTo_empty (parent : Option TxId) (rows : Rows) :
    (empty parent).applyTo rows = rows :=
  rows_ext fun key => by simp

end Overlay

/-- Committed rows, the overlays of the open transactions, and a failure that all calls meet
while it is set. -/
structure Table where
  rows : Rows
  overlays : Std.ExtTreeMap TxId Overlay
  failure : Option Error

namespace Table

/-- A table without rows. -/
def empty : Table := ⟨∅, ∅, none⟩

/-- The failure of a call in a transaction that is not open. -/
def finished (tx : TxId) : Error := .transaction (txName tx ++ " is already finished")

/-- The check that every call makes first: of its context, then of the failure that is set. -/
def precheck (table : Table) (signals : Signals) (ctx : Context) : Except Error Unit := do
  ctx.check signals
  match table.failure with
  | some e => .error e
  | none => .ok ()

/-- The overlays from a transaction outwards. All of them must be open. A parent has a smaller
number than its child, so one step for each number below suffices. -/
def chainFrom (table : Table) : Nat → TxId → Except Error (List Overlay)
  | 0, tx => .error (finished tx)
  | steps + 1, tx =>
      match table.overlays[tx]? with
      | none => .error (finished tx)
      | some overlay =>
          match overlay.parent with
          | none => .ok [overlay]
          | some parent => return overlay :: (← table.chainFrom steps parent)

/-- The overlays that a reader looks through, from the innermost outwards. Outside of
transactions there are none. -/
def chain (table : Table) : Option TxId → Except Error (List Overlay)
  | none => .ok []
  | some tx => table.chainFrom (tx + 1) tx

/-- A row looked up through overlays, the innermost of which comes first. -/
def lookup (rows : Rows) (key : String) (overlays : List Overlay) : Option Bytes :=
  overlays.foldr (fun overlay below => overlay.rowThrough key below) rows[key]?

/-- The row of a key, as it is seen in a transaction. -/
def get (table : Table) (tx : Option TxId) (key : String) : Except Error (Option Bytes) := do
  return lookup table.rows key (← table.chain tx)

/-- The rows seen through overlays. -/
def viewFrom (rows : Rows) (overlays : List Overlay) : Rows :=
  overlays.foldr Overlay.applyTo rows

/-- Looking up one row and looking at all rows agree. -/
theorem getElem?_viewFrom (rows : Rows) (overlays : List Overlay) (key : String) :
    (viewFrom rows overlays)[key]? = lookup rows key overlays := by
  induction overlays with
  | nil => rfl
  | cons overlay outer inductionHypothesis =>
      simp only [viewFrom, lookup, List.foldr_cons, Overlay.getElem?_applyTo] at *
      rw [inductionHypothesis]

/-- All rows, as they are seen in a transaction. -/
def view (table : Table) (tx : Option TxId) : Except Error Rows := do
  return viewFrom table.rows (← table.chain tx)

/-- Changes the overlay of an open transaction. -/
def changeOverlay (tx : TxId) (change : Overlay → Overlay) : Action Table Unit := fun table =>
  match table.overlays[tx]? with
  | some overlay => (.ok (), { table with overlays := table.overlays.insert tx (change overlay) })
  | none => (.error (finished tx), table)

/-- Changes one row, in a transaction if one is given. Only the transaction itself has to be
open. -/
def set (tx : Option TxId) (key : String) (change : Option Bytes) : Action Table Unit :=
  match tx with
  | some tx => changeOverlay tx fun overlay =>
      { overlay with changes := overlay.changes.insert key change }
  | none => Action.modify fun table => { table with rows := table.rows.change key change }

/-- Writes a row. -/
def put (tx : Option TxId) (key : String) (bytes : Bytes) : Action Table Unit :=
  set tx key (some bytes)

/-- Removes a row. -/
def remove (tx : Option TxId) (key : String) : Action Table Unit :=
  set tx key none

/-- Removes all rows, in a transaction if one is given. -/
def clear (tx : Option TxId) : Action Table Unit :=
  match tx with
  | some tx => changeOverlay tx fun overlay => { overlay with cleared := true, changes := ∅ }
  | none => Action.modify fun table => { table with rows := ∅ }

/-- Opens a transaction; its parent must be open. -/
def begin (tx : TxId) (parent : Option TxId) : Action Table Unit := fun table =>
  match parent.filter fun parent => !table.overlays.contains parent with
  | some parent => (.error (finished parent), table)
  | none => (.ok (), { table with overlays := table.overlays.insert tx (.empty parent) })

/-- Closes a transaction and publishes its changes. When its parent is closed already the
changes are lost. -/
def commit (tx : TxId) : Action Table Unit := fun table =>
  match table.overlays[tx]? with
  | none => (.error (finished tx), table)
  | some overlay =>
      let closed := { table with overlays := table.overlays.erase tx }
      match overlay.parent with
      | some parent => changeOverlay parent overlay.onto closed
      | none => (.ok (), { closed with rows := overlay.applyTo closed.rows })

/-- Closes a transaction and drops its changes. -/
def rollback (tx : TxId) : Action Table Unit := fun table =>
  if table.overlays.contains tx then
    (.ok (), { table with overlays := table.overlays.erase tx })
  else (.error (finished tx), table)

end Table

end QueryCache
