import QueryCache.Proofs.Actions
import QueryCache.Proofs.HitRecords
import QueryCache.Store.Hits

/-!
# What calls of a store do to a table

A call of either store, however it ends, has made a sequence of edits to its table, all of them in
the transaction of its context: `Edits`. Everything that such calls keep follows from what single
edits keep. The edits of a transaction stay within its overlay (`Frame`), and hits are only ever
stored in the row of their query (`Keyed`).
-/

namespace QueryCache.Table

open Wire

/-- Whether a transaction is open, and if so, in which one it stands. -/
def opened (table : Table) (tx : TxId) : Option (Option TxId) :=
  table.overlays[tx]?.map Overlay.parent

theorem opened_eq_some_iff {table : Table} {tx : TxId} {parent : Option TxId} :
    table.opened tx = some parent ↔
      ∃ overlay, table.overlays[tx]? = some overlay ∧ overlay.parent = parent := by
  simp [opened]

theorem opened_eq_none_iff {table : Table} {tx : TxId} :
    table.opened tx = none ↔ table.overlays[tx]? = none := by
  simp [opened]

/-- Edits in one transaction, or outside of transactions, each change of a row a legal one. Edits
in a transaction that is not open change nothing. -/
inductive Edits (legal : String → Option Bytes → Prop) (tx : Option TxId) :
    Table → Table → Prop
  | refl (table : Table) : Edits legal tx table table
  | set {before middle : Table} {key : String} {change : Option Bytes}
      (earlier : Edits legal tx before middle) (allowed : legal key change) :
      Edits legal tx before (Table.set tx key change middle).2
  | clear {before middle : Table} (earlier : Edits legal tx before middle) :
      Edits legal tx before (Table.clear tx middle).2

section Edits

variable {legal : String → Option Bytes → Prop} {tx : Option TxId}

instance : IsPreorder Table (Edits legal tx) where
  refl := .refl
  trans _ _ _ first second := by
    induction second with
    | refl => exact first
    | set _ allowed inductionHypothesis => exact .set inductionHypothesis allowed
    | clear _ inductionHypothesis => exact .clear inductionHypothesis

theorem along_set {key : String} {change : Option Bytes} (allowed : legal key change) :
    Action.Along (Edits legal tx) (Table.set tx key change) :=
  fun table => .set (.refl table) allowed

theorem along_clear : Action.Along (Edits legal tx) (Table.clear tx) :=
  fun table => .clear (.refl table)

end Edits

/-- What edits of a transaction keep, as far as transactions up to a number are concerned: which
are open, all other overlays, and the committed rows. Outside of transactions the rows may
change. -/
structure Frame (bound : TxId) (tx : Option TxId) (before after : Table) : Prop where
  opened : ∀ other ≤ bound, after.opened other = before.opened other
  overlays : ∀ other ≤ bound, some other ≠ tx → after.overlays[other]? = before.overlays[other]?
  rows : tx ≠ none → after.rows = before.rows
  failure : after.failure = before.failure

namespace Frame

variable {bound : TxId} {tx : Option TxId}

theorem refl (table : Table) : Frame bound tx table table :=
  ⟨fun _ _ => rfl, fun _ _ _ => rfl, fun _ => rfl, rfl⟩

theorem trans {before middle after : Table} {later : TxId} (first : Frame bound tx before middle)
    (second : Frame later tx middle after) (grows : bound ≤ later) :
    Frame bound tx before after where
  opened other le :=
    (second.opened other (Nat.le_trans le grows)).trans (first.opened other le)
  overlays other le apart :=
    (second.overlays other (Nat.le_trans le grows) apart).trans (first.overlays other le apart)
  rows inside := (second.rows inside).trans (first.rows inside)
  failure := second.failure.trans first.failure

/-- Work within a transaction that is not among those of concern stays anywhere. -/
theorem inside {before after : Table} {inner : TxId} (frame : Frame bound (some inner) before after)
    (younger : bound < inner) : Frame bound tx before after where
  opened := frame.opened
  overlays other le _ := by
    refine frame.overlays other le fun same => ?_
    cases same
    exact Nat.not_lt.mpr le younger
  rows _ := frame.rows nofun
  failure := frame.failure

end Frame

theorem frame_changeOverlay {change : Overlay → Overlay} (tx : TxId)
    (sameParent : ∀ overlay, (change overlay).parent = overlay.parent) (table : Table)
    (bound : TxId) : Frame bound (some tx) table (changeOverlay tx change table).2 := by
  unfold changeOverlay
  cases present : table.overlays[tx]? with
  | none => exact Frame.refl table
  | some overlay =>
      refine ⟨fun other _ => ?_, fun other _ apart => ?_, fun _ => rfl, rfl⟩
      · by_cases same : tx = other
        · subst same
          simp [opened, present, sameParent]
        · simp [opened, Std.ExtTreeMap.getElem?_insert, same]
      · have different : tx ≠ other := fun same => apart (congrArg some same.symm)
        simp [Std.ExtTreeMap.getElem?_insert, different]

/-- Edits stay within the overlay of their transaction. -/
theorem Edits.frame {legal : String → Option Bytes → Prop} {tx : Option TxId}
    {before after : Table} (edits : Edits legal tx before after) (bound : TxId) :
    Frame bound tx before after := by
  induction edits with
  | refl => exact Frame.refl _
  | @set middle key change _ _ inductionHypothesis =>
      refine inductionHypothesis.trans ?_ (Nat.le_refl _)
      cases tx with
      | none => exact ⟨fun _ _ => rfl, fun _ _ _ => rfl, fun inside => absurd rfl inside, rfl⟩
      | some tx =>
          apply frame_changeOverlay
          exact fun _ => rfl
  | @clear middle _ inductionHypothesis =>
      refine inductionHypothesis.trans ?_ (Nat.le_refl _)
      cases tx with
      | none => exact ⟨fun _ _ => rfl, fun _ _ _ => rfl, fun inside => absurd rfl inside, rfl⟩
      | some tx =>
          apply frame_changeOverlay
          exact fun _ => rfl

end QueryCache.Table

namespace QueryCache

open QueryCache.Action Table Wire

section Entities

variable {ι ε : Type} (schema : Schema ι ε) (signals : Signals)

/-- Calls of the store of entities may change any row. -/
abbrev Entities.Edits : Option TxId → Table → Table → Prop := Table.Edits fun _ _ => True

namespace Entities

section Reads

variable {relation : Table → Table → Prop} [IsPreorder Table relation]

theorem along_precheck (ctx : Context) : Along relation (precheck signals ctx) :=
  along_state.bind fun _ => along_liftM _

theorem along_row (ctx : Context) (key : String) : Along relation (row ctx key) :=
  along_state.bind fun _ => along_liftM _

theorem along_copy (ctx : Context) (key : String) : Along relation (copy schema ctx key) := by
  refine (along_row ctx key).bind fun found => ?_
  cases found with
  | none => exact along_pure none
  | some bytes => exact (along_liftM _).bind fun entity => along_pure (some entity)

theorem along_findById (ctx : Context) (id : ι) :
    Along relation (findById schema signals ctx id) :=
  (along_precheck signals ctx).bind fun _ => (along_liftM _).bind fun key =>
    along_copy schema ctx key

theorem along_copies (ctx : Context) (ids : List ι) : Along relation (copies schema ctx ids) := by
  induction ids with
  | nil => exact along_pure []
  | cons id ids inductionHypothesis =>
      refine (along_liftM _).bind fun key => (along_copy schema ctx key).bind fun found => ?_
      cases found with
      | none => exact along_fail _
      | some entity => exact inductionHypothesis.bind fun others => along_pure _

theorem along_findByIds (ctx : Context) (ids : List ι) :
    Along relation (findByIds schema signals ctx ids) :=
  (along_precheck signals ctx).bind fun _ => along_copies schema ctx ids

end Reads

section Writes

variable {legal : String → Option Bytes → Prop}

/-- What is stored of an entity is legal. -/
def Allows (legal : String → Option Bytes → Prop) (entity : ε) : Prop :=
  ∀ key bytes, schema.entityKey (schema.idOf entity) = .ok key →
    schema.encode entity = .ok bytes → legal key (some bytes)

theorem allows_all (entity : ε) : Allows schema (fun _ _ => True) entity :=
  fun _ _ _ _ => trivial

theorem along_create (ctx : Context) {entity : ε} (allows : Allows schema legal entity) :
    Along (Table.Edits legal ctx.tx) (create schema signals ctx entity) := by
  refine (along_precheck signals ctx).bind fun _ => Along.bind_liftM fun key named => ?_
  refine (along_row ctx key).bind fun found => ?_
  split
  · exact along_fail _
  · exact Along.bind_liftM fun bytes encoded => along_set (allows key bytes named encoded)

theorem along_update (ctx : Context) {entity : ε} (allows : Allows schema legal entity) :
    Along (Table.Edits legal ctx.tx) (update schema signals ctx entity) := by
  refine (along_precheck signals ctx).bind fun _ => Along.bind_liftM fun key named => ?_
  refine (along_row ctx key).bind fun found => ?_
  split
  · exact along_fail _
  · exact Along.bind_liftM fun bytes encoded => along_set (allows key bytes named encoded)

theorem along_upsert (ctx : Context) {entities : List ε}
    (allows : ∀ entity ∈ entities, Allows schema legal entity) :
    Along (Table.Edits legal ctx.tx) (upsert schema signals ctx entities) := by
  refine (along_precheck signals ctx).bind fun _ => Along.each fun entity member => ?_
  refine Along.bind_liftM fun key named => Along.bind_liftM fun bytes encoded => ?_
  exact along_set (allows entity member key bytes named encoded)

theorem along_deleteById (ctx : Context) (id : ι) (allows : ∀ key, legal key none) :
    Along (Table.Edits legal ctx.tx) (deleteById schema signals ctx id) := by
  refine (along_precheck signals ctx).bind fun _ => (along_liftM _).bind fun key => ?_
  refine (along_row ctx key).bind fun found => ?_
  split
  · exact along_fail _
  · exact along_set (allows key)

theorem along_deleteAll (ctx : Context) :
    Along (Table.Edits legal ctx.tx) (deleteAll signals ctx) :=
  (along_precheck signals ctx).bind fun _ => along_clear

end Writes

end Entities

end Entities

namespace Hits

variable {ι ε : Type} (schema : Schema ι ε) (signals : Signals)

open Entities (along_precheck along_row)

section Reads

variable {relation : Table → Table → Prop} [IsPreorder Table relation]

theorem along_findById (ctx : Context) (queryId : String) :
    Along relation (findById schema signals ctx queryId) := by
  refine (along_precheck signals ctx).bind fun _ => (along_row ctx _).bind fun found => ?_
  cases found with
  | none => exact along_pure none
  | some bytes => exact (along_liftM _).bind fun hit => along_pure (some hit)

theorem along_findAllIn (listing : Listing) (ctx : Context) :
    Along relation (findAllIn schema signals listing ctx) :=
  (along_precheck signals ctx).bind fun _ => along_state.bind fun _ =>
    (along_liftM _).bind fun _ => along_liftM _

end Reads

/-- The bytes put into a row, if they can be read, are a hit of the row's query. -/
def Legal (key : String) (change : Option Bytes) : Prop :=
  ∀ bytes hit, change = some bytes → schema.decodeHit bytes = .ok hit → hit.queryId = key

theorem legal_none (key : String) : Legal schema key none :=
  fun _ _ absent => nomatch absent

theorem legal_encodeHit {hit : Hit ι} {bytes : Bytes}
    (encoded : schema.encodeHit hit = .ok bytes) : Legal schema hit.queryId (some bytes) := by
  intro other found same decoded
  cases same
  exact Schema.queryId_of_decodeHit encoded decoded

/-- Calls of the store of hits put hits into the rows of their queries. -/
abbrev Edits : Option TxId → Table → Table → Prop := Table.Edits (Legal schema)

section Writes

variable {legal : String → Option Bytes → Prop}

/-- What is stored of a hit is legal. -/
def Allows (legal : String → Option Bytes → Prop) (hit : Hit ι) : Prop :=
  ∀ bytes, schema.encodeHit hit = .ok bytes → legal hit.queryId (some bytes)

theorem allows_legal (hit : Hit ι) : Allows schema (Legal schema) hit :=
  fun _ => legal_encodeHit schema

theorem along_create (ctx : Context) {hit : Hit ι} (allows : Allows schema legal hit) :
    Along (Table.Edits legal ctx.tx) (create schema signals ctx hit) :=
  (along_precheck signals ctx).bind fun _ => Along.bind_liftM fun bytes encoded =>
    along_set (allows bytes encoded)

theorem along_update (ctx : Context) {hit : Hit ι} (allows : Allows schema legal hit) :
    Along (Table.Edits legal ctx.tx) (update schema signals ctx hit) := by
  refine (along_precheck signals ctx).bind fun _ => (along_row ctx _).bind fun found => ?_
  split
  · exact along_fail _
  · exact Along.bind_liftM fun bytes encoded => along_set (allows bytes encoded)

theorem along_deleteById (ctx : Context) (queryId : String) (allows : legal queryId none) :
    Along (Table.Edits legal ctx.tx) (deleteById signals ctx queryId) := by
  refine (along_precheck signals ctx).bind fun _ => (along_row ctx _).bind fun found => ?_
  split
  · exact along_fail _
  · exact along_set allows

theorem along_deleteAll (ctx : Context) :
    Along (Table.Edits legal ctx.tx) (deleteAll signals ctx) :=
  (along_precheck signals ctx).bind fun _ => along_clear

end Writes

end Hits

end QueryCache
