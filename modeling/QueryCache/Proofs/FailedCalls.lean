import QueryCache.Proofs.Outcomes
import QueryCache.Simulation.Entry

/-!
# What failed calls leave behind

A call of a store that fails has changed nothing, whatever made it fail: its context, the failure
that is set, a key, a row that is missing or cannot be read, an encoding, or a transaction that is
not open. Only a call that stores any number of copies may have done a part of its work. It has then
stored, in the scope of its context, the copies before the first one that could not be stored.
-/

namespace QueryCache

open QueryCache.Action Wire

namespace Table

/-- Whether rows can be written in a place. Only the transaction itself has to be open. -/
def admits (table : Table) : Option TxId → Except Error Unit
  | none => .ok ()
  | some tx => if table.overlays.contains tx then .ok () else .error (finished tx)

/-- The table after rows were written in a place, one after the other: outside of transactions they
are committed, and in a transaction they are changes of its overlay. -/
def written (table : Table) (rows : List (String × Bytes)) : Option TxId → Table
  | none =>
      { table with rows := rows.foldl (fun rows row => rows.insert row.1 row.2) table.rows }
  | some tx =>
      { table with
        overlays := table.overlays.modify tx fun overlay =>
          { overlay with
            changes := rows.foldl (fun changes row => changes.insert row.1 (some row.2))
              overlay.changes } }

section Written

variable (table : Table) (place : Option TxId)

@[simp] theorem written_nil : table.written [] place = table := by
  cases place with
  | none => rfl
  | some tx =>
      have same : (table.overlays.modify tx fun overlay => overlay) = table.overlays := by
        refine Std.ExtTreeMap.ext_getElem? fun other => ?_
        rw [Std.ExtTreeMap.getElem?_modify]
        split
        · rename_i equal
          rw [Option.map_id', Std.LawfulEqCmp.compare_eq_iff_eq.mp equal]
        · rfl
      change { table with overlays := table.overlays.modify tx fun overlay => overlay } = table
      rw [same]

/-- What is written after other rows is written over them. -/
theorem written_written (first second : List (String × Bytes)) :
    (table.written first place).written second place = table.written (first ++ second) place := by
  cases place with
  | none => simp only [written, List.foldl_append]
  | some tx =>
      simp only [written, List.foldl_append, mk.injEq, true_and, and_true]
      refine Std.ExtTreeMap.ext_getElem? fun other => ?_
      simp only [Std.ExtTreeMap.getElem?_modify]
      split <;> simp [Option.map_map, Function.comp_def]

@[simp] theorem admits_written (rows : List (String × Bytes)) :
    (table.written rows place).admits place = table.admits place := by
  cases place with
  | none => rfl
  | some tx => simp only [admits, written, Std.ExtTreeMap.contains_modify]

theorem put_of_admits (admitted : table.admits place = .ok ()) (key : String) (bytes : Bytes) :
    put place key bytes table = (.ok (), table.written [(key, bytes)] place) := by
  cases place with
  | none => rfl
  | some tx =>
      rw [admits] at admitted
      split at admitted
      · rename_i isOpen
        rw [Std.ExtTreeMap.contains_eq_isSome_getElem?] at isOpen
        obtain ⟨overlay, present⟩ := Option.isSome_iff_exists.mp isOpen
        rw [put, set, changeOverlay_of_open present]
        refine congrArg (fun overlays => (Except.ok (), { table with overlays })) ?_
        refine Std.ExtTreeMap.ext_getElem? fun other => ?_
        rw [Std.ExtTreeMap.getElem?_insert, Std.ExtTreeMap.getElem?_modify]
        split
        · rename_i same
          cases Std.LawfulEqCmp.compare_eq_iff_eq.mp same
          rw [present]
          rfl
        · rfl
      · cases admitted

theorem put_of_not_admits {e : Error} (refused : table.admits place = .error e) (key : String)
    (bytes : Bytes) : put place key bytes table = (.error e, table) := by
  cases place with
  | none => cases refused
  | some tx =>
      rw [admits] at refused
      split at refused
      · cases refused
      · rename_i closed
        rw [Std.ExtTreeMap.contains_eq_isSome_getElem?, Option.not_isSome_iff_eq_none] at closed
        cases refused
        exact changeOverlay_of_closed closed _

end Written

end Table

namespace Entities

variable {ι ε : Type} (schema : Schema ι ε) (signals : Signals)

/-- The row in which a copy is to be stored, or why it cannot be: its key comes first, then its
bytes, and last the transaction. -/
def rowFor (table : Table) (place : Option TxId) (entity : ε) : Except Error (String × Bytes) := do
  let key ← schema.entityKey (schema.idOf entity)
  let bytes ← schema.encode entity
  table.admits place
  return (key, bytes)

/-- Of some copies, those before one that could not be stored were stored one after the other. -/
def StoredUpTo (table : Table) (place : Option TxId) (entities : List ε) (e : Error)
    (later : Table) : Prop :=
  ∃ stored failed rest rows, entities = stored ++ failed :: rest ∧
    stored.mapM (rowFor schema table place) = .ok rows ∧
    rowFor schema table place failed = .error e ∧ later = table.written rows place

variable {schema} {table : Table} {ctx : Context}

@[simp] theorem rowFor_written (rows : List (String × Bytes)) (place : Option TxId) (entity : ε) :
    rowFor schema (table.written rows place) place entity = rowFor schema table place entity := by
  rw [rowFor, rowFor, Table.admits_written]

/-- A copy is written in its row, unless it has none. -/
theorem store_apply (entity : ε) :
    store schema ctx entity table =
      match rowFor schema table ctx.tx entity with
      | .ok row => (.ok (), table.written [row] ctx.tx)
      | .error e => (.error e, table) := by
  rw [rowFor, store, bind_apply, liftM_apply]
  cases schema.entityKey (schema.idOf entity) with
  | error unnamed => rfl
  | ok key =>
      dsimp only
      rw [bind_apply, liftM_apply]
      cases schema.encode entity with
      | error unwritable => rfl
      | ok bytes =>
          cases admitted : table.admits ctx.tx with
          | error closed => exact table.put_of_not_admits ctx.tx admitted key bytes
          | ok _ => exact table.put_of_admits ctx.tx admitted key bytes

/-- Copies are stored one after the other up to the first that cannot be. -/
theorem storedUpTo_of_each {entities : List ε} {e : Error}
    (failed : (each (store schema ctx) entities table).1 = .error e) :
    StoredUpTo schema table ctx.tx entities e (each (store schema ctx) entities table).2 := by
  induction entities generalizing table with
  | nil => cases failed
  | cons entity entities inductionHypothesis =>
      have stores : store schema ctx entity table = _ := store_apply entity
      cases found : rowFor schema table ctx.tx entity with
      | error refused =>
          rw [found] at stores
          have ends : each (store schema ctx) (entity :: entities) table =
              (.error refused, table) :=
            bind_of_error stores
          rw [ends] at failed ⊢
          cases failed
          exact ⟨[], entity, entities, [], rfl, rfl, found, (table.written_nil ctx.tx).symm⟩
      | ok row =>
          rw [found] at stores
          have next : each (store schema ctx) (entity :: entities) table =
              each (store schema ctx) entities (table.written [row] ctx.tx) :=
            bind_of_ok stores
          rw [next] at failed ⊢
          obtain ⟨stored, refused, rest, rows, split, all, first, later⟩ :=
            inductionHypothesis failed
          -- What was written before has no part in whether a copy has a row, so the rows that the
          -- hypothesis speaks of are those that were planned before the first write.
          have sameRows : rowFor schema (table.written [row] ctx.tx) ctx.tx =
              rowFor schema table ctx.tx := funext (rowFor_written [row] ctx.tx)
          rw [sameRows] at all first
          refine ⟨entity :: stored, refused, rest, row :: rows, ?_, ?_, first, ?_⟩
          · rw [split, List.cons_append]
          · rw [List.mapM_cons, found, all]
            rfl
          · rw [later, Table.written_written, List.singleton_append]

/-- Where its context is live and no failure is set, a call that stores copies and fails has stored
those before the first that cannot be stored. -/
theorem storedUpTo_of_upsert {entities : List ε} {e : Error}
    (admitted : table.precheck signals ctx = .ok ())
    (failed : (upsert schema signals ctx entities table).1 = .error e) :
    StoredUpTo schema table ctx.tx entities e (upsert schema signals ctx entities table).2 := by
  have checked : precheck signals ctx table = (.ok (), table) := Prod.ext admitted rfl
  rw [upsert, bind_of_ok checked] at failed ⊢
  exact storedUpTo_of_each failed

/-- Otherwise it has stored nothing. -/
theorem upsert_of_precheck_error {entities : List ε} {e : Error}
    (refused : table.precheck signals ctx = .error e) :
    upsert schema signals ctx entities table = (.error e, table) := by
  have checked : precheck signals ctx table = (.error e, table) := Prod.ext refused rfl
  rw [upsert, bind_of_error checked]

end Entities

namespace Repository

variable {ι ε : Type} {schema : Schema ι ε}

/-- A call of a store that fails leaves the repository as it was, unless it was to store copies and
got past the first check. It then has stored, in the transaction of its context, the copies before
the first whose key, bytes or transaction fails, and its answer is that failure. -/
theorem failed_call_leaves_tables (repository : Repository) (signals : Signals) (ctx : Context)
    (request : Request ι ε) (isCall : request.isCall = true) (e : Error)
    (failed : ((stores schema signals).perform ctx request repository).1 = .error e) :
    let later := ((stores schema signals).perform ctx request repository).2
    (request.isUpsert = false ∨ repository.entities.precheck signals ctx ≠ .ok () →
      later = repository) ∧
    ∀ entities, request = .upsertEntities entities →
      repository.entities.precheck signals ctx = .ok () →
        ∃ table, Entities.StoredUpTo schema repository.entities ctx.tx entities e table ∧
          later = { repository with entities := table } := by
  intro later
  constructor
  · rintro (single | refused)
    · exact failsClean_perform isCall single repository e failed
    · cases request with
      | upsertEntities entities =>
          cases checked : repository.entities.precheck signals ctx with
          | ok _ => exact absurd checked refused
          | error cause =>
              change { repository with
                entities := (Entities.upsert schema signals ctx entities repository.entities).2 } =
                repository
              rw [Entities.upsert_of_precheck_error signals checked]
      | _ => exact failsClean_perform isCall rfl repository e failed
  · rintro entities rfl admitted
    have failedHere : (Entities.upsert schema signals ctx entities repository.entities).1 =
        .error e := map_eq_error_iff.mp failed
    exact ⟨_, Entities.storedUpTo_of_upsert signals admitted failedHere, rfl⟩

/-- A repository with a transaction whose parent was rolled back. -/
def orphanedRepository : Repository :=
  after Simulation.IdKind.natural.schema
    [.request .initial .root .begin, .request .initial (Context.root.withTx 1) .begin,
      .request .initial (Context.root.withTx 1) .rollback] .empty

/-- The third of four copies refuses to be stored. The two before it, which are of one entity, were
stored in the transaction of the call, where nothing can be read any more. -/
theorem failed_call_leaves_tables_orphanedRepository :
    let performed := (stores Simulation.IdKind.natural.schema .initial).perform
      (Context.root.withTx 2) (.upsertEntities [⟨7, "x"⟩, ⟨7, "y"⟩, ⟨8, "!ser"⟩, ⟨9, "z"⟩])
      orphanedRepository
    performed.1 = .error (.serialization "Serde Serialization Error") ∧
      ∃ table, performed.2 = { orphanedRepository with entities := table } ∧
        Entities.StoredUpTo Simulation.IdKind.natural.schema orphanedRepository.entities (some 2)
          [⟨7, "x"⟩, ⟨7, "y"⟩, ⟨8, "!ser"⟩, ⟨9, "z"⟩]
          (.serialization "Serde Serialization Error") table := by
  intro performed
  have refused : (Entities.upsert Simulation.IdKind.natural.schema .initial (Context.root.withTx 2)
      [⟨7, "x"⟩, ⟨7, "y"⟩, ⟨8, "!ser"⟩, ⟨9, "z"⟩] orphanedRepository.entities).1 =
      .error (.serialization "Serde Serialization Error") := by
    decide +kernel
  have failed : performed.1 = .error (.serialization "Serde Serialization Error") :=
    map_eq_error_iff.mpr refused
  obtain ⟨table, stored, later⟩ := (failed_call_leaves_tables orphanedRepository .initial
    (Context.root.withTx 2) _ rfl _ failed).2 _ rfl rfl
  exact ⟨failed, table, later, stored⟩

end Repository

end QueryCache
