import QueryCache.Proofs.Publication

/-!
# Finished transactions are rejected

A call in a transaction that has ended is told so and leaves both tables as they are, however many
transactions have been opened since. That is not checked where a call begins, but where it first
looks through the overlay of its transaction or changes it. Every call comes there, after it has
built its key or its bytes, but two: who asks for no copies, or stores none, is answered as if the
transaction were open.
-/

namespace QueryCache

open Wire

namespace Request

variable {ι ε : Type}

/-- What a request is about can be stored: its identifiers have keys, and its copy or hit can be
written. -/
def Encodes (schema : Schema ι ε) : Request ι ε → Prop
  | .createEntity entity | .updateEntity entity => CanStore entity
  | .findEntity id | .deleteEntity id => ∃ key, schema.entityKey id = .ok key
  | .findEntities ids => ∀ id ∈ ids, ∃ key, schema.entityKey id = .ok key
  | .upsertEntities entities => ∀ entity ∈ entities, CanStore entity
  | .createHit hit | .updateHit hit => ∃ bytes, schema.encodeHit hit = .ok bytes
  | _ => True
where
  /-- A copy has a key and can be written. -/
  CanStore (entity : ε) : Prop :=
    ∃ key bytes, schema.entityKey (schema.idOf entity) = .ok key ∧
      schema.encode entity = .ok bytes

/-- What a request on an empty list of copies is answered. -/
def idleAnswer? : Request ι ε → Option (Answer ι ε)
  | .findEntities [] => some (.entities [])
  | .upsertEntities [] => some .done
  | _ => none

end Request

/-! ## Calls on a table -/

namespace Table

variable {α β : Type} {table : Table} {tx : TxId} {signals : Signals} {ctx : Context}

/-- An action finds its transaction finished and leaves the table as it is. -/
def Rejects (table : Table) (tx : TxId) (action : Action Table α) : Prop :=
  action table = (.error (finished tx), table)

theorem Rejects.bind {first : Action Table α} (rejects : table.Rejects tx first)
    (second : α → Action Table β) : table.Rejects tx (first >>= second) :=
  Action.bind_of_error rejects

theorem rejects_after {first : Action Table α} {second : α → Action Table β} {value : α}
    (passes : first table = (.ok value, table)) (rejects : table.Rejects tx (second value)) :
    table.Rejects tx (first >>= second) :=
  (Action.bind_of_ok passes).trans rejects

theorem rejects_known {result : Except Error α} {second : α → Action Table β} {value : α}
    (known : result = .ok value) (rejects : table.Rejects tx (second value)) :
    table.Rejects tx (liftM result >>= second) := by
  subst known
  exact rejects

/-- A live call in a transaction that is closed, while no failure is set. -/
structure Late (table : Table) (signals : Signals) (ctx : Context) (tx : TxId) : Prop where
  live : ctx.check signals = .ok ()
  inside : ctx.tx = some tx
  closed : table.opened tx = none
  healthy : table.failure = none

section Calls

variable (late : table.Late signals ctx tx)
include late

theorem Late.precheck_apply : Entities.precheck signals ctx table = (.ok (), table) := by
  change (table.precheck signals ctx, table) = _
  rw [precheck, late.live, late.healthy]
  rfl

theorem Late.rejects_beyond {second : Unit → Action Table α}
    (rejects : table.Rejects tx (second ())) :
    table.Rejects tx (Entities.precheck signals ctx >>= second) :=
  rejects_after late.precheck_apply rejects

theorem Late.view_eq : table.view ctx.tx = .error (finished tx) := by
  rw [late.inside, view_of_closed (opened_eq_none_iff.mp late.closed)]

theorem Late.rejects_view : table.Rejects tx (liftM (table.view ctx.tx)) := by
  rw [late.view_eq]
  rfl

theorem Late.rejects_row (key : String) : table.Rejects tx (Entities.row ctx key) := by
  change (table.get ctx.tx key, table) = _
  rw [get_eq, late.view_eq]
  rfl

theorem Late.rejects_set (key : String) (change : Option Bytes) :
    table.Rejects tx (set ctx.tx key change) := by
  rw [late.inside]
  exact changeOverlay_of_closed (opened_eq_none_iff.mp late.closed) _

theorem Late.rejects_clear : table.Rejects tx (clear ctx.tx) := by
  rw [late.inside]
  exact changeOverlay_of_closed (opened_eq_none_iff.mp late.closed) _

end Calls

end Table

namespace Entities

open Table

variable {ι ε : Type} {schema : Schema ι ε} {table : Table} {tx : TxId} {signals : Signals}
  {ctx : Context} {key : String}

section Calls

variable (late : table.Late signals ctx tx)
include late

theorem rejects_create {entity : ε} (named : schema.entityKey (schema.idOf entity) = .ok key) :
    table.Rejects tx (create schema signals ctx entity) :=
  late.rejects_beyond (rejects_known named ((late.rejects_row key).bind _))

theorem rejects_update {entity : ε} (named : schema.entityKey (schema.idOf entity) = .ok key) :
    table.Rejects tx (update schema signals ctx entity) :=
  late.rejects_beyond (rejects_known named ((late.rejects_row key).bind _))

theorem rejects_findById {id : ι} (named : schema.entityKey id = .ok key) :
    table.Rejects tx (findById schema signals ctx id) :=
  late.rejects_beyond (rejects_known named ((late.rejects_row key).bind _))

/-- The first of the copies is where the transaction is found finished. -/
theorem rejects_findByIds {id : ι} (named : schema.entityKey id = .ok key) (ids : List ι) :
    table.Rejects tx (findByIds schema signals ctx (id :: ids)) :=
  late.rejects_beyond (rejects_known named (((late.rejects_row key).bind _).bind _))

theorem rejects_upsert {entity : ε} {bytes : Bytes}
    (named : schema.entityKey (schema.idOf entity) = .ok key)
    (written : schema.encode entity = .ok bytes) (entities : List ε) :
    table.Rejects tx (upsert schema signals ctx (entity :: entities)) := by
  have first : table.Rejects tx (store schema ctx entity) :=
    rejects_known named (rejects_known written (late.rejects_set key (some bytes)))
  exact late.rejects_beyond (first.bind _)

theorem rejects_deleteById {id : ι} (named : schema.entityKey id = .ok key) :
    table.Rejects tx (deleteById schema signals ctx id) :=
  late.rejects_beyond (rejects_known named ((late.rejects_row key).bind _))

theorem rejects_deleteAll : table.Rejects tx (deleteAll signals ctx) :=
  late.rejects_beyond late.rejects_clear

end Calls

end Entities

namespace Hits

open Table

variable {ι ε : Type} {schema : Schema ι ε} {table : Table} {tx : TxId} {signals : Signals}
  {ctx : Context}

section Calls

variable (late : table.Late signals ctx tx)
include late

theorem rejects_create {hit : Hit ι} {bytes : Bytes} (written : schema.encodeHit hit = .ok bytes) :
    table.Rejects tx (create schema signals ctx hit) :=
  late.rejects_beyond (rejects_known written (late.rejects_set hit.queryId (some bytes)))

theorem rejects_update (hit : Hit ι) : table.Rejects tx (update schema signals ctx hit) :=
  late.rejects_beyond ((late.rejects_row hit.queryId).bind _)

theorem rejects_findById (queryId : String) :
    table.Rejects tx (findById schema signals ctx queryId) :=
  late.rejects_beyond ((late.rejects_row queryId).bind _)

theorem rejects_findAll : table.Rejects tx (findAll schema signals ctx) :=
  late.rejects_beyond (rejects_after rfl (late.rejects_view.bind _))

theorem rejects_deleteById (queryId : String) :
    table.Rejects tx (deleteById signals ctx queryId) :=
  late.rejects_beyond ((late.rejects_row queryId).bind _)

theorem rejects_deleteAll : table.Rejects tx (deleteAll signals ctx) :=
  late.rejects_beyond late.rejects_clear

end Calls

end Hits

/-! ## Requests to a repository -/

namespace Repository

variable {ι ε α : Type} {schema : Schema ι ε} {repository : Repository} {tx : TxId}
  {signals : Signals} {ctx : Context}

/-- An action finds its transaction finished and leaves both tables as they are. -/
def Rejects (repository : Repository) (tx : TxId) (action : Action Repository α) : Prop :=
  ∃ lastTx, action repository = (.error (Table.finished tx), { repository with lastTx })

theorem Rejects.map {action : Action Repository α} (rejects : repository.Rejects tx action)
    {β : Type} (result : α → β) : repository.Rejects tx (action.map result) := by
  obtain ⟨lastTx, same⟩ := rejects
  refine ⟨lastTx, ?_⟩
  rw [Action.map_apply, same]
  rfl

theorem rejects_onEntities {action : Action Table α}
    (rejects : repository.entities.Rejects tx action) :
    repository.Rejects tx (onEntities action) := by
  refine ⟨repository.lastTx, ?_⟩
  rw [onEntities, Action.within_apply, rejects]

theorem rejects_onHits {action : Action Table α} (rejects : repository.hits.Rejects tx action) :
    repository.Rejects tx (onHits action) := by
  refine ⟨repository.lastTx, ?_⟩
  rw [onHits, Action.within_apply, rejects]

/-- A live call in a transaction that is closed, while no failure is set. -/
structure Late (repository : Repository) (signals : Signals) (ctx : Context) (tx : TxId) :
    Prop where
  entities : repository.entities.Late signals ctx tx
  hits : repository.hits.Late signals ctx tx

section Requests

variable (late : repository.Late signals ctx tx)
include late

theorem Late.rejects_begin : repository.Rejects tx (begin signals ctx) :=
  ⟨_, begin_of_closed late.hits.live late.hits.inside late.entities.closed⟩

theorem Late.rejects_commit (sound : repository.Sound schema) :
    repository.Rejects tx (commit ctx) := by
  refine ⟨repository.lastTx, ?_⟩
  rw [sound.commit_eq late.hits.inside, Table.commit_of_closed late.entities.closed,
    Table.commit_of_closed late.hits.closed]

theorem Late.rejects_rollback (sound : repository.Sound schema) :
    repository.Rejects tx (rollback ctx) := by
  refine ⟨repository.lastTx, ?_⟩
  rw [sound.rollback_eq late.hits.inside, Table.closing_of_closed late.entities.closed,
    Table.closing_of_closed late.hits.closed, late.hits.closed]
  rfl

/-- Every request that encodes is rejected, unless it is on an empty list of copies. -/
theorem Late.rejects_perform (sound : repository.Sound schema) {request : Request ι ε}
    (encodes : request.Encodes schema) (busy : request.idleAnswer? = none) :
    repository.Rejects tx ((stores schema signals).perform ctx request) := by
  cases request with
  | begin => exact late.rejects_begin.map _
  | commit => exact (late.rejects_commit sound).map _
  | rollback => exact (late.rejects_rollback sound).map _
  | createEntity entity =>
      obtain ⟨key, bytes, named, -⟩ := encodes
      exact (rejects_onEntities (Entities.rejects_create late.entities named)).map _
  | updateEntity entity =>
      obtain ⟨key, bytes, named, -⟩ := encodes
      exact (rejects_onEntities (Entities.rejects_update late.entities named)).map _
  | findEntity id =>
      obtain ⟨key, named⟩ := encodes
      exact (rejects_onEntities (Entities.rejects_findById late.entities named)).map _
  | findEntities ids =>
      cases ids with
      | nil => cases busy
      | cons id ids =>
          obtain ⟨key, named⟩ := encodes id (List.mem_cons_self ..)
          exact (rejects_onEntities (Entities.rejects_findByIds late.entities named ids)).map _
  | upsertEntities entities =>
      cases entities with
      | nil => cases busy
      | cons entity entities =>
          obtain ⟨key, bytes, named, written⟩ := encodes entity (List.mem_cons_self ..)
          exact (rejects_onEntities
            (Entities.rejects_upsert late.entities named written entities)).map _
  | deleteEntity id =>
      obtain ⟨key, named⟩ := encodes
      exact (rejects_onEntities (Entities.rejects_deleteById late.entities named)).map _
  | deleteEntities => exact (rejects_onEntities (Entities.rejects_deleteAll late.entities)).map _
  | createHit hit =>
      obtain ⟨bytes, written⟩ := encodes
      exact (rejects_onHits (Hits.rejects_create late.hits written)).map _
  | updateHit hit => exact (rejects_onHits (Hits.rejects_update late.hits hit)).map _
  | findHit queryId => exact (rejects_onHits (Hits.rejects_findById late.hits queryId)).map _
  | findHits => exact (rejects_onHits (Hits.rejects_findAll late.hits)).map _
  | deleteHit queryId => exact (rejects_onHits (Hits.rejects_deleteById late.hits queryId)).map _
  | deleteHits => exact (rejects_onHits (Hits.rejects_deleteAll late.hits)).map _

/-- A request on an empty list of copies does not come to see that its transaction is closed. -/
theorem Late.idle_perform {request : Request ι ε} {answer : Answer ι ε}
    (idle : request.idleAnswer? = some answer) :
    (stores schema signals).perform ctx request repository = (.ok answer, repository) := by
  have found : Entities.findByIds schema signals ctx [] repository.entities =
      (.ok [], repository.entities) :=
    (Action.bind_of_ok late.entities.precheck_apply).trans rfl
  have stored : Entities.upsert schema signals ctx [] repository.entities =
      (.ok (), repository.entities) :=
    (Action.bind_of_ok late.entities.precheck_apply).trans rfl
  cases request with
  | findEntities ids =>
      cases ids with
      | nil =>
          cases idle
          change (onEntities _).map _ repository = _
          rw [Action.map_apply, onEntities, Action.within_apply, found]
          rfl
      | cons id ids => cases idle
  | upsertEntities entities =>
      cases entities with
      | nil =>
          cases idle
          change (onEntities _).map _ repository = _
          rw [Action.map_apply, onEntities, Action.within_apply, stored]
          rfl
      | cons entity entities => cases idle
  | _ => cases idle

end Requests

/-- A commit or a rollback that succeeded has ended the transaction. -/
theorem finished_of_ended (sound : repository.Sound schema) (inside : ctx.tx = some tx)
    {ending : Request ι ε} (ends : ending = .commit ∨ ending = .rollback) {answer : Answer ι ε}
    (ended : ((stores schema signals).perform ctx ending repository).1 = .ok answer) :
    ((stores schema signals).perform ctx ending repository).2.Finished tx := by
  have isOpen : (repository.hits.opened tx).isSome := by
    rw [← Option.ne_none_iff_isSome]
    intro closed
    rcases ends with rfl | rfl
    · change ((commit ctx).map _ repository).1 = _ at ended
      rw [Action.map_apply, sound.commit_eq inside, Table.commit_of_closed closed] at ended
      cases ended
    · change ((rollback ctx).map _ repository).1 = _ at ended
      rw [Action.map_apply, sound.rollback_eq inside, closed] at ended
      cases ended
  have turn : Publishes tx repository (.request signals ctx ending) ∨
      Discards tx repository (.request signals ctx ending) := by
    rcases ends with rfl | rfl
    · by_cases publishes : repository.hits.Publishes tx
      · exact .inl ⟨signals, ctx, rfl, inside, publishes⟩
      · exact .inr ⟨signals, ctx, inside, isOpen, .inr ⟨rfl, publishes⟩⟩
    · exact .inr ⟨signals, ctx, inside, isOpen, .inl rfl⟩
  exact finished_of_ends sound turn

/-- A finished transaction is rejected. Once a commit or a rollback of it has succeeded, whatever
run follows, a live call in it ends with the error of a finished transaction, if what it is about
can be stored and no failure is set. Only who asks for no copies or stores none is answered. Either
way both tables are left as they are. -/
theorem finished_transaction_is_rejected (repository : Repository)
    (reachable : repository.Reachable schema) (tx : TxId) (signals : Signals) (ctx : Context)
    (inside : ctx.tx = some tx) (ending : Request ι ε)
    (ends : ending = .commit ∨ ending = .rollback) (answer : Answer ι ε)
    (ended : ((stores schema signals).perform ctx ending repository).1 = .ok answer)
    (run : List (Turn ι ε)) :
    let later := after schema run ((stores schema signals).perform ctx ending repository).2
    later.entities.failure = none → later.hits.failure = none →
    ∀ (signals : Signals) (ctx : Context), ctx.tx = some tx → ctx.check signals = .ok () →
    ∀ request : Request ι ε, request.Encodes schema →
      ∃ lastTx, (stores schema signals).perform ctx request later =
        (match request.idleAnswer? with
          | none => .error (Table.finished tx)
          | some answer => .ok answer,
        { later with lastTx }) := by
  intro later healthyEntities healthyHits signals' ctx' inside' live request encodes
  have sound : repository.Sound schema := reachable.sound
  have finished := finished_of_ended sound inside ends ended
  obtain ⟨⟨closed, -⟩, -⟩ : later.Finished tx ∧ ¬ Occurs schema (Publishes tx) run _ :=
    finished.after (sound.take (.request signals ctx ending)) (fun _ _ => isOpen_of_publishes) run
  have laterSound : later.Sound schema :=
    ((reachable.take (.request signals ctx ending)).after run).sound
  have late : later.Late signals' ctx' tx :=
    ⟨⟨live, inside', (laterSound.paired tx).trans closed, healthyEntities⟩,
      ⟨live, inside', closed, healthyHits⟩⟩
  cases idle : request.idleAnswer? with
  | none => exact late.rejects_perform laterSound encodes idle
  | some answer => exact ⟨later.lastTx, late.idle_perform idle⟩

/-- A repository in which one transaction is open. -/
def startedRepository : Repository :=
  after Simulation.IdKind.natural.schema [.request .initial .root .begin] .empty

theorem commit_startedRepository :
    ((stores Simulation.IdKind.natural.schema .initial).perform (Context.root.withTx 1) .commit
      startedRepository).1 = .ok .done := by
  have sound : startedRepository.Sound Simulation.IdKind.natural.schema :=
    Reachable.sound ⟨_, rfl⟩
  have outermost : startedRepository.hits.opened 1 = some none := by decide +kernel
  have committed : (commit (Context.root.withTx 1) startedRepository).1 = .ok () := by
    rw [sound.commit_eq rfl, Table.commit_fst, outermost]
  change ((commit _).map _ startedRepository).1 = _
  rw [Action.map_apply, committed]
  rfl

/-- The same repository after a commit, with another transaction open. -/
def restartedRepository : Repository :=
  after Simulation.IdKind.natural.schema [.request .initial .root .begin]
    ((stores Simulation.IdKind.natural.schema .initial).perform (Context.root.withTx 1) .commit
      startedRepository).2

/-- Copies are asked for in a transaction that was committed before another one was opened. -/
theorem finished_transaction_is_rejected_restartedRepository :
    ∃ lastTx, (stores Simulation.IdKind.natural.schema .initial).perform (Context.root.withTx 1)
      (.findEntities [7, 8]) restartedRepository =
      (.error (Table.finished 1), { restartedRepository with lastTx }) := by
  have encodes : Request.Encodes Simulation.IdKind.natural.schema (.findEntities [7, 8]) := by
    simp only [Request.Encodes, List.forall_mem_cons]
    exact ⟨⟨_, rfl⟩, ⟨_, rfl⟩, nofun⟩
  have reachable : startedRepository.Reachable Simulation.IdKind.natural.schema := ⟨_, rfl⟩
  have healthyEntities : restartedRepository.entities.failure = none := by decide +kernel
  have healthyHits : restartedRepository.hits.failure = none := by decide +kernel
  exact finished_transaction_is_rejected startedRepository reachable 1 .initial
    (Context.root.withTx 1) rfl .commit (.inl rfl) .done commit_startedRepository
    [.request .initial .root .begin] healthyEntities healthyHits .initial (Context.root.withTx 1)
    rfl rfl _ encodes

/-- After its transaction was committed, a call that asks for no copies is answered, and so is one
that stores none. -/
theorem finished_transaction_answers_empty_lists :
    let stores := stores Simulation.IdKind.natural.schema .initial
    let ctx := Context.root.withTx 1
    let committed := stores.perform ctx .commit startedRepository
    committed.1 = .ok .done ∧
      (stores.perform ctx (.findEntities []) committed.2).1 = .ok (.entities []) ∧
      (stores.perform ctx (.upsertEntities []) committed.2).1 = .ok .done :=
  ⟨commit_startedRepository, rfl, rfl⟩

end Repository

end QueryCache
