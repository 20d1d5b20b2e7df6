import Mathlib.Control.Monad.Basic
import QueryCache.Proofs.HitRecords
import QueryCache.Proofs.Names
import QueryCache.Proofs.Views

/-!
# Calls by what they see

Where a store is not made to fail and the context of a call is live, how the call ends and what is
seen after it depends only on what was seen before it. `Table.Turns` says so of one call; it has a
rule for each step of which calls are made, and from these follows what each call does.
-/

namespace QueryCache

open QueryCache.Action Wire

namespace Table

/-- A context sees the given rows in a table, and its calls are neither called off nor made to
fail. -/
structure Shows (signals : Signals) (ctx : Context) (seen : Rows) (table : Table) : Prop where
  ordered : table.Ordered
  healthy : table.failure = none
  live : ctx.check signals = .ok ()
  view : table.view ctx.tx = .ok seen

/-- Where a context sees some rows, the action ends as stated, and the context sees the other
rows. -/
def Turns {α : Type} (signals : Signals) (ctx : Context) (seen : Rows) (action : Action Table α)
    (result : Except Error α) (later : Rows) : Prop :=
  ∀ table, Shows signals ctx seen table →
    (action table).1 = result ∧ Shows signals ctx later (action table).2

section Rules

variable {α β : Type} {signals : Signals} {ctx : Context} {seen middle later : Rows}

theorem turns_liftM {result outcome : Except Error α} (known : result = outcome) :
    Turns signals ctx seen (liftM result) outcome seen :=
  fun _ shows => ⟨known, shows⟩

theorem turns_pure (value : α) :
    Turns signals ctx seen (Pure.pure value) (.ok value) seen :=
  fun _ shows => ⟨rfl, shows⟩

theorem turns_fail (e : Error) :
    Turns signals ctx seen (fail e : Action Table α) (.error e) seen :=
  fun _ shows => ⟨rfl, shows⟩

theorem Turns.bind {first : Action Table α} {second : α → Action Table β} {value : α}
    {result : Except Error β} (atFirst : Turns signals ctx seen first (.ok value) middle)
    (atSecond : Turns signals ctx middle (second value) result later) :
    Turns signals ctx seen (first >>= second) result later := by
  intro table shows
  obtain ⟨succeeds, shows⟩ := atFirst table shows
  rw [bind_of_ok (Prod.ext succeeds rfl)]
  exact atSecond _ shows

theorem Turns.bind_error {first : Action Table α} {second : α → Action Table β} {e : Error}
    (atFirst : Turns signals ctx seen first (.error e) later) :
    Turns signals ctx seen (first >>= second) (.error e) later := by
  intro table shows
  obtain ⟨fails, shows⟩ := atFirst table shows
  rw [bind_of_error (Prod.ext fails rfl)]
  exact ⟨rfl, shows⟩

/-- What follows a call that changes nothing depends on its result. -/
theorem Turns.read {first : Action Table α} {second : α → Action Table β}
    {result : Except Error α} {form : α → Except Error β}
    (atFirst : Turns signals ctx seen first result seen)
    (atSecond : ∀ value, Turns signals ctx seen (second value) (form value) seen) :
    Turns signals ctx seen (first >>= second) (result >>= form) seen := by
  cases result with
  | error e => exact atFirst.bind_error
  | ok value => exact atFirst.bind (atSecond value)

theorem turns_precheck : Turns signals ctx seen (Entities.precheck signals ctx) (.ok ()) seen := by
  intro table shows
  refine ⟨?_, shows⟩
  change table.precheck signals ctx = .ok ()
  rw [Table.precheck, shows.live, shows.healthy]
  rfl

theorem turns_row (key : String) :
    Turns signals ctx seen (Entities.row ctx key) (.ok seen[key]?) seen := by
  intro table shows
  refine ⟨?_, shows⟩
  change table.get ctx.tx key = _
  rw [get_eq, shows.view]
  rfl

/-- A transaction in which rows are seen is open. -/
theorem Shows.opened {table : Table} (shows : Shows signals ctx seen table) (tx : TxId)
    (inside : ctx.tx = some tx) : (table.opened tx).isSome := by
  have view := shows.view
  cases isOpen : table.opened tx with
  | some place => rfl
  | none =>
      rw [inside, view_of_closed (opened_eq_none_iff.mp isOpen)] at view
      cases view

/-- Changes of the table that keep its transactions and its failure keep its order and its
health. -/
theorem Shows.of_frame {table after : Table} (shows : Shows signals ctx seen table)
    (frame : ∀ bound, Frame bound ctx.tx table after) (view : after.view ctx.tx = .ok later) :
    Shows signals ctx later after where
  ordered tx parent isOpen :=
    shows.ordered tx parent ((frame tx).opened tx (Nat.le_refl tx) ▸ isOpen)
  healthy := (frame 0).failure.trans shows.healthy
  live := shows.live
  view := view

theorem turns_set (key : String) (change : Option Bytes) :
    Turns signals ctx seen (Table.set ctx.tx key change) (.ok ()) (seen.change key change) := by
  intro table shows
  obtain ⟨succeeds, view⟩ := view_set shows.ordered shows.view key change
  have edits : Edits (fun _ _ => True) ctx.tx table (Table.set ctx.tx key change table).2 :=
    .set (.refl table) trivial
  exact ⟨succeeds, shows.of_frame edits.frame view⟩

theorem turns_clear : Turns signals ctx seen (Table.clear ctx.tx) (.ok ()) ∅ := by
  intro table shows
  obtain ⟨succeeds, view⟩ := view_clear shows.ordered shows.view
  have edits : Edits (fun _ _ => True) ctx.tx table (Table.clear ctx.tx table).2 :=
    .clear (.refl table)
  exact ⟨succeeds, shows.of_frame edits.frame view⟩

end Rules

end Table

section Calls

variable {ι ε : Type} (schema : Schema ι ε) {signals : Signals} {ctx : Context} {seen : Rows}

open Table

/-- What is told of a row: nothing if there is none, and else what its bytes are read as. -/
def told {α : Type} (read : Bytes → Except Error α) : Option Bytes → Except Error (Option α)
  | none => .ok none
  | some bytes => (read bytes).map some

theorem told_of_absent {α : Type} {read : Bytes → Except Error α} {found : Option Bytes}
    (absent : found = none) : told read found = .ok none := by
  rw [absent, told]

theorem told_of_present {α : Type} {read : Bytes → Except Error α} {found : Option Bytes}
    {bytes : Bytes} {value : α} (present : found = some bytes) (decoded : read bytes = .ok value) :
    told read found = .ok (some value) := by
  rw [present, told, decoded, Except.map]

/-- Where nothing was told of a row, there is none. -/
theorem eq_none_of_told_eq_none {α : Type} {read : Bytes → Except Error α} {found : Option Bytes}
    (isTold : told read found = .ok none) : found = none := by
  cases found with
  | none => rfl
  | some bytes =>
      rw [told] at isTold
      cases decoded : read bytes <;> rw [decoded] at isTold <;> cases isTold

/-- What was told of a row was read from it. -/
theorem exists_of_told_eq_some {α : Type} {read : Bytes → Except Error α} {found : Option Bytes}
    {value : α} (isTold : told read found = .ok (some value)) :
    ∃ bytes, found = some bytes ∧ read bytes = .ok value := by
  cases found with
  | none => cases isTold
  | some bytes =>
      refine ⟨bytes, rfl, ?_⟩
      cases decoded : read bytes <;> rw [told, decoded] at isTold <;> cases isTold
      rfl

theorem turns_told {α : Type} (read : Bytes → Except Error α) (found : Option Bytes) :
    Turns signals ctx seen
      (match found with
        | some bytes => do return some (← read bytes)
        | none => return none)
      (told read found) seen := by
  cases found with
  | none => exact turns_pure none
  | some bytes =>
      change Turns signals ctx seen (do return some (← read bytes)) ((read bytes).map some) seen
      cases result : read bytes with
      | error e => exact (turns_liftM rfl).bind_error
      | ok value => exact (turns_liftM rfl).bind (turns_pure (some value))

/-- An entity can be stored, and is read back as it was. -/
def Schema.Keeps (entity : ε) : Prop :=
  (schema.encode entity >>= schema.decode) = .ok entity

/-- A hit can be stored, and is read back as it was. -/
def Schema.KeepsHit (hit : Hit ι) : Prop :=
  (schema.encodeHit hit >>= schema.decodeHit) = .ok hit

instance [DecidableEq ε] (entity : ε) : Decidable (schema.Keeps entity) :=
  inferInstanceAs (Decidable (_ = _))

instance [DecidableEq ι] (hit : Hit ι) : Decidable (schema.KeepsHit hit) :=
  inferInstanceAs (Decidable (_ = _))

/-- Copies of entities were stored: in a row there is the copy of one of them, or the row is as it
was and is not that of any of them. -/
def Copied (entities : List ε) (earlier later : Rows) : Prop :=
  ∀ key : String,
    (later[key]? = earlier[key]? ∧
      ∀ entity ∈ entities, schema.entityKey (schema.idOf entity) ≠ .ok key) ∨
    ∃ entity ∈ entities, schema.entityKey (schema.idOf entity) = .ok key ∧
      ∃ bytes, later[key]? = some bytes ∧ schema.decode bytes = .ok entity

section Copied

variable {schema} {entities : List ε} {entity : ε} {earlier middle later : Rows} {key : String}
  {bytes : Bytes}

theorem copied_nil (rows : Rows) : Copied schema [] rows rows :=
  fun _ => .inl ⟨rfl, nofun⟩

theorem copied_insert (rows : Rows) (named : schema.entityKey (schema.idOf entity) = .ok key)
    (decoded : schema.decode bytes = .ok entity) :
    Copied schema [entity] rows (rows.insert key bytes) := by
  intro other
  by_cases same : key = other
  · subst same
    exact .inr ⟨entity, List.mem_singleton_self entity, named, bytes, by simp, decoded⟩
  · refine .inl ⟨by simp [Std.ExtTreeMap.getElem?_insert, same], fun single member => ?_⟩
    rw [List.mem_singleton.mp member, named]
    exact fun equal => same (Except.ok.inj equal)

theorem Copied.cons (first : Copied schema [entity] earlier middle)
    (rest : Copied schema entities middle later) :
    Copied schema (entity :: entities) earlier later := by
  intro key
  rcases rest key with ⟨untouched, others⟩ | ⟨stored, member, copy⟩
  · rcases first key with ⟨same, other⟩ | ⟨stored, member, named, bytes, present, decoded⟩
    · refine .inl ⟨untouched.trans same, fun stored member => ?_⟩
      rcases List.mem_cons.mp member with rfl | member
      · exact other _ (List.mem_singleton_self _)
      · exact others stored member
    · cases List.mem_singleton.mp member
      exact .inr ⟨_, List.mem_cons_self, named, bytes, untouched.trans present, decoded⟩
  · exact .inr ⟨stored, List.mem_cons_of_mem _ member, copy⟩

end Copied

/-- Copies were stored over rows: in a row there is what was there before, or the stored form of
one of the entities. -/
def Overlaid (entities : List ε) (earlier later : Rows) : Prop :=
  ∀ key : String, later[key]? = earlier[key]? ∨
    ∃ entity ∈ entities, schema.entityKey (schema.idOf entity) = .ok key ∧
      ∃ bytes, schema.encode entity = .ok bytes ∧ later[key]? = some bytes

section Overlaid

variable {schema} {entities : List ε} {entity : ε} {earlier later : Rows} {key : String}
  {bytes : Bytes}

theorem overlaid_refl (entities : List ε) (rows : Rows) : Overlaid schema entities rows rows :=
  fun _ => .inl rfl

/-- The first of several entities is stored, and then the others. -/
theorem Overlaid.cons (named : schema.entityKey (schema.idOf entity) = .ok key)
    (encoded : schema.encode entity = .ok bytes)
    (rest : Overlaid schema entities (earlier.insert key bytes) later) :
    Overlaid schema (entity :: entities) earlier later := by
  intro place
  rcases rest place with same | ⟨other, member, stored⟩
  · rw [same, Std.ExtTreeMap.getElem?_insert]
    split
    · rename_i isPlace
      cases Std.LawfulEqCmp.eq_of_compare isPlace
      exact .inr ⟨entity, List.mem_cons_self, named, bytes, encoded, rfl⟩
    · exact .inl rfl
  · exact .inr ⟨other, List.mem_cons_of_mem _ member, stored⟩

theorem Overlaid.isSome (overlaid : Overlaid schema entities earlier later) (key : String)
    (present : earlier[key]?.isSome) : later[key]?.isSome := by
  rcases overlaid key with same | ⟨-, -, -, bytes, -, stored⟩
  · rwa [same]
  · rw [stored]
    rfl

end Overlaid

namespace Entities

theorem turns_copy (key : String) :
    Turns signals ctx seen (copy schema ctx key) (told schema.decode seen[key]?) seen :=
  (turns_row key).bind (turns_told schema.decode seen[key]?)

theorem turns_findById {id : ι} {key : String} (named : schema.entityKey id = .ok key) :
    Turns signals ctx seen (findById schema signals ctx id) (told schema.decode seen[key]?) seen :=
  turns_precheck.bind ((turns_liftM named).bind (turns_copy schema key))

theorem turns_deleteById {id : ι} {key : String} (named : schema.entityKey id = .ok key)
    {bytes : Bytes} (present : seen[key]? = some bytes) :
    Turns signals ctx seen (deleteById schema signals ctx id) (.ok ()) (seen.erase key) := by
  refine turns_precheck.bind ((turns_liftM named).bind ((turns_row key).bind ?_))
  rw [present]
  exact turns_set key none

theorem turns_deleteAll : Turns signals ctx seen (deleteAll signals ctx) (.ok ()) ∅ :=
  turns_precheck.bind turns_clear

theorem turns_create {entity : ε} {key : String} (keeps : schema.Keeps entity)
    (named : schema.entityKey (schema.idOf entity) = .ok key) (absent : seen[key]? = none) :
    ∃ later, Copied schema [entity] seen later ∧
      Turns signals ctx seen (create schema signals ctx entity) (.ok ()) later := by
  obtain ⟨bytes, encoded, decoded⟩ := Action.exists_of_bind_eq_ok keeps
  refine ⟨seen.insert key bytes, copied_insert seen named decoded, ?_⟩
  refine turns_precheck.bind ((turns_liftM named).bind ((turns_row key).bind ?_))
  rw [absent]
  exact (turns_liftM encoded).bind (turns_set key (some bytes))

theorem turns_update {entity : ε} {key : String} (keeps : schema.Keeps entity)
    (named : schema.entityKey (schema.idOf entity) = .ok key) {old : Bytes}
    (present : seen[key]? = some old) :
    ∃ later, Copied schema [entity] seen later ∧
      Turns signals ctx seen (update schema signals ctx entity) (.ok ()) later := by
  obtain ⟨bytes, encoded, decoded⟩ := Action.exists_of_bind_eq_ok keeps
  refine ⟨seen.insert key bytes, copied_insert seen named decoded, ?_⟩
  refine turns_precheck.bind ((turns_liftM named).bind ((turns_row key).bind ?_))
  rw [present]
  exact (turns_liftM encoded).bind (turns_set key (some bytes))

theorem turns_update_of_absent {entity : ε} {key : String}
    (named : schema.entityKey (schema.idOf entity) = .ok key) (absent : seen[key]? = none) :
    Turns signals ctx seen (update schema signals ctx entity) (.error (.notFound key)) seen := by
  refine turns_precheck.bind ((turns_liftM named).bind ((turns_row key).bind ?_))
  rw [absent]
  exact turns_fail _

/-- Storing copies of entities that can be named and read back succeeds. -/
theorem turns_upsert {entities : List ε} (keeps : ∀ entity ∈ entities, schema.Keeps entity)
    (named : ∀ entity ∈ entities, ∃ key, schema.entityKey (schema.idOf entity) = .ok key) :
    ∃ later, Copied schema entities seen later ∧
      Turns signals ctx seen (upsert schema signals ctx entities) (.ok ()) later := by
  have each : ∃ later, Copied schema entities seen later ∧
      Turns signals ctx seen (Action.each (store schema ctx) entities) (.ok ()) later := by
    induction entities generalizing seen with
    | nil => exact ⟨seen, copied_nil seen, turns_pure ()⟩
    | cons entity entities inductionHypothesis =>
        obtain ⟨bytes, encoded, decoded⟩ :=
          Action.exists_of_bind_eq_ok (keeps entity List.mem_cons_self)
        obtain ⟨key, isNamed⟩ := named entity List.mem_cons_self
        obtain ⟨later, copied, turns⟩ := inductionHypothesis
          (fun other member => keeps other (List.mem_cons_of_mem _ member))
          (fun other member => named other (List.mem_cons_of_mem _ member))
        have stores : Turns signals ctx seen (store schema ctx entity) (.ok ())
            (seen.insert key bytes) :=
          (turns_liftM isNamed).bind ((turns_liftM encoded).bind (turns_set key (some bytes)))
        exact ⟨later, (copied_insert seen isNamed decoded).cons copied, stores.bind turns⟩
  obtain ⟨later, copied, turns⟩ := each
  exact ⟨later, copied, turns_precheck.bind turns⟩

/-- Copies are stored up to the first that cannot be; where all are stored, each has its row. -/
theorem exists_turns_upsert (encodes : ∀ entity, Tolerable (schema.encode entity))
    (entities : List ε) : ∃ result later, Tolerable result ∧
      Overlaid schema entities seen later ∧
      (result = .ok () → ∀ entity ∈ entities, ∃ place,
        schema.entityKey (schema.idOf entity) = .ok place ∧ later[place]?.isSome) ∧
      Turns signals ctx seen (upsert schema signals ctx entities) result later := by
  suffices each : ∃ result later, Tolerable result ∧ Overlaid schema entities seen later ∧
      (result = .ok () → ∀ entity ∈ entities, ∃ place,
        schema.entityKey (schema.idOf entity) = .ok place ∧ later[place]?.isSome) ∧
      Turns signals ctx seen (Action.each (store schema ctx) entities) result later by
    obtain ⟨result, later, tolerable, overlaid, placed, turns⟩ := each
    exact ⟨result, later, tolerable, overlaid, placed, turns_precheck.bind turns⟩
  induction entities generalizing seen with
  | nil => exact ⟨.ok (), seen, tolerable_ok (), overlaid_refl [] seen, nofun, turns_pure ()⟩
  | cons entity entities inductionHypothesis =>
      cases named : schema.entityKey (schema.idOf entity) with
      | error e =>
          refine ⟨.error e, seen, tolerable_error (schema.tolerable_entityKey _ e named),
            overlaid_refl _ seen, nofun, ?_⟩
          exact (turns_liftM named).bind_error.bind_error
      | ok key =>
          cases encoded : schema.encode entity with
          | error e =>
              refine ⟨.error e, seen, tolerable_error (encodes entity e encoded),
                overlaid_refl _ seen, nofun, ?_⟩
              exact ((turns_liftM named).bind (turns_liftM encoded).bind_error).bind_error
          | ok bytes =>
              obtain ⟨result, later, tolerable, overlaid, placed, turns⟩ := @inductionHypothesis
                (seen.change key (some bytes))
              have stores : Turns signals ctx seen (store schema ctx entity) (.ok ())
                  (seen.change key (some bytes)) :=
                (turns_liftM named).bind ((turns_liftM encoded).bind
                  (turns_set key (some bytes)))
              refine ⟨result, later, tolerable, overlaid.cons named encoded, fun succeeds => ?_,
                stores.bind turns⟩
              rintro other member
              rcases List.mem_cons.mp member with rfl | member
              · refine ⟨key, named, overlaid.isSome key ?_⟩
                simp [Rows.change]
              · exact placed succeeds other member

/-- The copies of identifiers among rows, in their order. -/
def gathered (rows : Rows) : List ι → Except Error (List ε)
  | [] => .ok []
  | id :: ids => do
      let key ← schema.entityKey id
      match ← told schema.decode rows[key]? with
      | some entity => return entity :: (← gathered rows ids)
      | none => .error (.notFound key)

theorem gathered_of_absent {rows : Rows} {id : ι} {key : String}
    (named : schema.entityKey id = .ok key) (absent : rows[key]? = none) (ids : List ι) :
    gathered schema rows (id :: ids) = .error (.notFound key) := by
  rw [gathered, named]
  change (told schema.decode rows[key]? >>= _) = _
  rw [absent]
  rfl

theorem gathered_of_present {rows : Rows} {id : ι} {key : String} {bytes : Bytes} {entity : ε}
    (named : schema.entityKey id = .ok key) (present : rows[key]? = some bytes)
    (decoded : schema.decode bytes = .ok entity) (ids : List ι) :
    gathered schema rows (id :: ids) = (gathered schema rows ids).map (entity :: ·) := by
  rw [gathered, named]
  change (told schema.decode rows[key]? >>= _) = _
  rw [present, told, decoded]
  change (gathered schema rows ids >>= _) = _
  cases gathered schema rows ids <;> rfl

theorem turns_findByIds (ids : List ι) :
    Turns signals ctx seen (findByIds schema signals ctx ids) (gathered schema seen ids) seen := by
  refine turns_precheck.bind ?_
  induction ids with
  | nil => exact turns_pure []
  | cons id ids inductionHypothesis =>
      rw [copies, gathered]
      refine (turns_liftM rfl).read fun key => ?_
      refine (turns_copy schema key).read fun found => ?_
      cases found with
      | none => exact turns_fail (.notFound key)
      | some entity =>
          exact inductionHypothesis.read fun entities => turns_pure (entity :: entities)

end Entities

namespace Hits

theorem turns_findById (queryId : String) :
    Turns signals ctx seen (findById schema signals ctx queryId)
      (told schema.decodeHit seen[queryId]?) seen :=
  turns_precheck.bind ((turns_row queryId).bind (turns_told schema.decodeHit seen[queryId]?))

/-- Looking for a hit that is not there leaves the table as it is. -/
theorem findById_of_absent {table : Table} (shows : Shows signals ctx seen table) {queryId : String}
    (absent : seen[queryId]? = none) :
    findById schema signals ctx queryId table = (.ok none, table) := by
  have checked : table.precheck signals ctx = .ok () := by
    rw [Table.precheck, shows.live, shows.healthy]
    rfl
  have found : table.get ctx.tx queryId = .ok none := by
    rw [get_eq, shows.view, ← absent]
    rfl
  simp only [findById, Entities.precheck, Entities.row, Action.bind_apply, Action.state,
    Action.liftM_apply, checked, found, Action.pure_apply]

theorem turns_findAllIn (listing : Listing) :
    Turns signals ctx seen (findAllIn schema signals listing ctx) (ofRowsIn schema listing seen)
      seen := by
  refine turns_precheck.bind ?_
  intro table shows
  simp only [Action.bind_apply, Action.state, Action.liftM_apply, shows.view]
  exact ⟨trivial, shows⟩

theorem turns_create {hit : Hit ι} {bytes : Bytes} (encoded : schema.encodeHit hit = .ok bytes) :
    Turns signals ctx seen (create schema signals ctx hit) (.ok ())
      (seen.insert hit.queryId bytes) :=
  turns_precheck.bind ((turns_liftM encoded).bind (turns_set hit.queryId (some bytes)))

/-- A hit is stored, unless it cannot be. -/
theorem exists_turns_create (hit : Hit ι) : ∃ result later, Tolerable result ∧
    Turns signals ctx seen (create schema signals ctx hit) result later := by
  cases encoded : schema.encodeHit hit with
  | ok bytes => exact ⟨.ok (), _, tolerable_ok (), turns_create schema encoded⟩
  | error e =>
      refine ⟨.error e, seen, tolerable_error (schema.tolerable_encodeHit hit e encoded), ?_⟩
      exact turns_precheck.bind (turns_liftM encoded).bind_error

theorem turns_deleteById {queryId : String} {bytes : Bytes}
    (present : seen[queryId]? = some bytes) :
    Turns signals ctx seen (deleteById signals ctx queryId) (.ok ()) (seen.erase queryId) := by
  refine turns_precheck.bind ((turns_row queryId).bind ?_)
  rw [present]
  exact turns_set queryId none

theorem turns_deleteAll : Turns signals ctx seen (deleteAll signals ctx) (.ok ()) ∅ :=
  turns_precheck.bind turns_clear

end Hits

end Calls

end QueryCache
