import QueryCache.Proofs.Journals
import QueryCache.Proofs.Soundness

/-!
# The repository answers as the ledger does

A repository stands for a ledger if both of its tables do. Every turn keeps that and is answered
alike by both, so all runs are. The derivation goes through the calls as they are built: first
what a call does to its table, then the calls themselves, then the ends of transactions.
-/

namespace QueryCache

open Wire QueryCache.Action

namespace Ledger

/-- A table stands for one kind of rows of a ledger, while another table stands for the other kind
and a number for the number of the last transaction. -/
structure Mirrors (side : Side) (beside : Table) (lastTx : TxId) (table : Table)
    (ledger : Ledger) : Prop where
  own : Reflects side table ledger
  beside : Reflects side.other beside ledger
  wellFormed : ledger.WellFormed
  lastTx : lastTx = ledger.lastTx

section Calls

variable {side : Side} {beside : Table} {lastTx : TxId} (signals : Signals) (ctx : Context)

theorem simulates_precheck :
    Simulates (Mirrors side beside lastTx) (Entities.precheck signals ctx)
      (precheck side signals ctx) := by
  intro table ledger mirrors
  change (table.precheck signals ctx, table).1 = _ ∧ Mirrors _ _ _ table _
  rw [precheck, Table.precheck, mirrors.own.failure]
  cases ctx.check signals with
  | error e => exact ⟨rfl, mirrors⟩
  | ok _ => cases ledger.failure side <;> exact ⟨rfl, mirrors⟩

theorem simulates_row (key : String) :
    Simulates (Mirrors side beside lastTx) (Entities.row ctx key) (read side ctx key) := by
  intro table ledger mirrors
  refine ⟨?_, mirrors⟩
  change table.get ctx.tx key = _
  rw [Table.get_eq, mirrors.own.view mirrors.wellFormed]
  rfl

theorem simulates_scan {α : Type} (use : Rows → Except Error α) :
    Simulates (Mirrors side beside lastTx)
      (do let table ← Action.state; use (← table.view ctx.tx)) (do use (← scan side ctx)) := by
  intro table ledger mirrors
  have same := mirrors.own.view mirrors.wellFormed ctx.tx
  simp only [Action.bind_apply, Action.state, Action.liftM_apply, scan, same]
  cases ledger.view side ctx.tx <;> exact ⟨rfl, mirrors⟩

theorem write_outside (outside : ctx.tx = none) (step : Step) (ledger : Ledger) :
    write side ctx step ledger =
      (.ok (), { ledger with committed := fun other =>
        if other = side then step.run (ledger.committed side) else ledger.committed other }) := by
  rw [write, outside]

theorem write_of_closed {tx : TxId} (inside : ctx.tx = some tx) {ledger : Ledger}
    (closed : ledger.journals[tx]? = none) (step : Step) :
    write side ctx step ledger = (.error (Table.finished tx), ledger) := by
  rw [write, inside]
  simp only [closed]

theorem write_of_open {tx : TxId} (inside : ctx.tx = some tx) {ledger : Ledger}
    {journal : Journal} (isOpen : ledger.journals[tx]? = some journal) (step : Step) :
    write side ctx step ledger =
      (.ok (), { ledger with
        journals := ledger.journals.insert tx
          { journal with entries := journal.entries ++ [⟨side, step⟩] } }) := by
  rw [write, inside]
  simp only [isOpen]

/-- A step that is staged is a step that is written down. On the other kind of rows the longer
journal says what it said before. -/
theorem simulates_write (step : Step) :
    Simulates (Mirrors side beside lastTx) (step.perform ctx.tx) (write side ctx step) := by
  intro table ledger mirrors
  obtain ⟨own, other, wellFormed, numbered⟩ := mirrors
  cases place : ctx.tx with
  | none =>
      rw [Step.perform_outside, write_outside ctx place]
      refine ⟨rfl, ⟨?_, own.failure, own.present, own.absent⟩,
        ⟨?_, other.failure, other.present, other.absent⟩,
        wellFormed.congr rfl (Nat.le_refl _), numbered⟩
      · simp only [own.rows, if_true]
      · simp only [other.rows, side.other_ne, if_false]
  | some tx =>
      rw [Step.perform_inside]
      cases found : ledger.journals[tx]? with
      | none =>
          rw [Table.changeOverlay_of_closed (own.absent tx found), write_of_closed ctx place found]
          exact ⟨rfl, own, other, wellFormed, numbered⟩
      | some journal =>
          obtain ⟨overlay, present, records⟩ := own.present tx journal found
          obtain ⟨otherOverlay, otherPresent, otherRecords⟩ := other.present tx journal found
          rw [Table.changeOverlay_of_open present, write_of_open ctx place found]
          exact ⟨rfl, own.insert tx (records.own step),
            other.reinsert otherPresent (otherRecords.other side.other_ne.symm step),
            wellFormed.lengthen found rfl, numbered⟩

end Calls

section Stores

variable {ι ε : Type} (schema : Schema ι ε) (signals : Signals) (ctx : Context)
  {beside : Table} {lastTx : TxId}

theorem simulates_copy (key : String) :
    Simulates (Mirrors .entities beside lastTx) (Entities.copy schema ctx key)
      (copy schema ctx key) := by
  refine (simulates_row ctx key).bind fun found => ?_
  cases found with
  | none => exact simulates_pure none
  | some bytes => exact (simulates_liftM _).bind fun entity => simulates_pure (some entity)

theorem simulates_copies (ids : List ι) :
    Simulates (Mirrors .entities beside lastTx) (Entities.copies schema ctx ids)
      (copies schema ctx ids) := by
  induction ids with
  | nil => exact simulates_pure []
  | cons id ids inductionHypothesis =>
      refine (simulates_liftM _).bind fun key => ?_
      refine (simulates_copy schema ctx key).bind fun found => ?_
      cases found with
      | none => exact simulates_fail _
      | some entity => exact inductionHypothesis.bind fun others => simulates_pure _

theorem simulates_store (entity : ε) :
    Simulates (Mirrors .entities beside lastTx) (Entities.store schema ctx entity)
      (store schema ctx entity) :=
  (simulates_liftM _).bind fun key => (simulates_liftM _).bind fun bytes =>
    simulates_write ctx (.put key bytes)

theorem simulates_createEntity (entity : ε) :
    Simulates (Mirrors .entities beside lastTx) (Entities.create schema signals ctx entity)
      ((entityStore schema signals).create ctx entity) := by
  refine (simulates_precheck signals ctx).bind fun _ => (simulates_liftM _).bind fun key => ?_
  refine (simulates_row ctx key).bind fun found => ?_
  cases found with
  | some bytes => exact simulates_fail _
  | none => exact (simulates_liftM _).bind fun bytes => simulates_write ctx (.put key bytes)

theorem simulates_updateEntity (entity : ε) :
    Simulates (Mirrors .entities beside lastTx) (Entities.update schema signals ctx entity)
      ((entityStore schema signals).update ctx entity) := by
  refine (simulates_precheck signals ctx).bind fun _ => (simulates_liftM _).bind fun key => ?_
  refine (simulates_row ctx key).bind fun found => ?_
  cases found with
  | none => exact simulates_fail _
  | some bytes => exact (simulates_liftM _).bind fun bytes => simulates_write ctx (.put key bytes)

theorem simulates_deleteEntity (id : ι) :
    Simulates (Mirrors .entities beside lastTx) (Entities.deleteById schema signals ctx id)
      ((entityStore schema signals).deleteById ctx id) := by
  refine (simulates_precheck signals ctx).bind fun _ => (simulates_liftM _).bind fun key => ?_
  refine (simulates_row ctx key).bind fun found => ?_
  cases found with
  | none => exact simulates_fail _
  | some bytes => exact simulates_write ctx (.delete key)

theorem simulates_createHit (hit : Hit ι) :
    Simulates (Mirrors .hits beside lastTx) (Hits.create schema signals ctx hit)
      ((hitStore schema signals).create ctx hit) :=
  (simulates_precheck signals ctx).bind fun _ => (simulates_liftM _).bind fun bytes =>
    simulates_write ctx (.put hit.queryId bytes)

theorem simulates_updateHit (hit : Hit ι) :
    Simulates (Mirrors .hits beside lastTx) (Hits.update schema signals ctx hit)
      ((hitStore schema signals).update ctx hit) := by
  refine (simulates_precheck signals ctx).bind fun _ => (simulates_row ctx _).bind fun found => ?_
  cases found with
  | none => exact simulates_fail _
  | some bytes =>
      exact (simulates_liftM _).bind fun bytes => simulates_write ctx (.put hit.queryId bytes)

theorem simulates_findHit (queryId : String) :
    Simulates (Mirrors .hits beside lastTx) (Hits.findById schema signals ctx queryId)
      ((hitStore schema signals).findById ctx queryId) := by
  refine (simulates_precheck signals ctx).bind fun _ => (simulates_row ctx _).bind fun found => ?_
  cases found with
  | none => exact simulates_pure none
  | some bytes => exact (simulates_liftM _).bind fun hit => simulates_pure (some hit)

theorem simulates_deleteHit (queryId : String) :
    Simulates (Mirrors .hits beside lastTx) (Hits.deleteById signals ctx queryId)
      ((hitStore schema signals).deleteById ctx queryId) := by
  refine (simulates_precheck signals ctx).bind fun _ => (simulates_row ctx _).bind fun found => ?_
  cases found with
  | none => exact simulates_fail _
  | some bytes => exact simulates_write ctx (.delete queryId)

end Stores

/-- A repository stands for a ledger. -/
def Mirrored (repository : Repository) (ledger : Ledger) : Prop :=
  Mirrors .entities repository.hits repository.lastTx repository.entities ledger

theorem simulates_onEntities {α : Type} {action : Action Table α} {action' : Action Ledger α}
    (simulates : ∀ beside lastTx, Simulates (Mirrors .entities beside lastTx) action action') :
    Simulates Mirrored (Repository.onEntities action) action' :=
  fun repository ledger mirrored =>
    simulates repository.hits repository.lastTx repository.entities ledger mirrored

theorem simulates_onHits {α : Type} {action : Action Table α} {action' : Action Ledger α}
    (simulates : ∀ beside lastTx, Simulates (Mirrors .hits beside lastTx) action action') :
    Simulates Mirrored (Repository.onHits action) action' := by
  intro repository ledger ⟨entities, hits, wellFormed, lastTx⟩
  obtain ⟨same, hits, entities, wellFormed, lastTx⟩ :=
    simulates repository.entities repository.lastTx repository.hits ledger
      ⟨hits, entities, wellFormed, lastTx⟩
  exact ⟨same, entities, hits, wellFormed, lastTx⟩

section Transactions

variable {signals : Signals} {ctx : Context} {ledger : Ledger} {tx : TxId}

theorem begin_of_ended {e : Error} (ended : ctx.check signals = .error e) :
    begin signals ctx ledger = (.error e, ledger) := by
  rw [begin, ended]

theorem begin_of_closed (live : ctx.check signals = .ok ()) (inside : ctx.tx = some tx)
    (closed : ledger.journals[tx]? = none) :
    begin signals ctx ledger =
      (.error (Table.finished tx), { ledger with lastTx := ledger.lastTx + 1 }) := by
  simp only [begin, live, inside, closed]

theorem begin_of_open (live : ctx.check signals = .ok ())
    (parentOpen : ∀ parent, ctx.tx = some parent → (ledger.around parent).isSome) :
    begin signals ctx ledger =
      (.ok (ctx.withTx (ledger.lastTx + 1)), { ledger with
        journals := ledger.journals.insert (ledger.lastTx + 1) ⟨ledger.path ctx.tx, []⟩
        lastTx := ledger.lastTx + 1 }) := by
  cases inside : ctx.tx with
  | none => simp only [begin, live, inside, path]
  | some parent =>
      obtain ⟨ancestors, around⟩ := Option.isSome_iff_exists.mp (parentOpen parent inside)
      obtain ⟨journal, found, rfl⟩ := Option.map_eq_some_iff.mp around
      simp only [begin, live, inside, path, found, around, Option.getD_some]

/-- The transactions around a new one are its parent and those around the parent. -/
theorem around_of_path {place : Option TxId} {parent : TxId} {outer : List TxId}
    (placeOpen : ∀ tx, place = some tx → (ledger.around tx).isSome)
    (within : ledger.path place = parent :: outer) : ledger.around parent = some outer := by
  cases place with
  | none => cases within
  | some tx =>
      obtain ⟨ancestors, around⟩ := Option.isSome_iff_exists.mp (placeOpen tx rfl)
      rw [path, around] at within
      cases within
      exact around

theorem simulates_begin (signals : Signals) (ctx : Context) :
    Simulates Mirrored (Repository.begin signals ctx) (begin signals ctx) := by
  intro repository ledger ⟨entities, hits, wellFormed, numbered⟩
  cases live : ctx.check signals with
  | error e =>
      rw [Repository.begin_of_ended live, begin_of_ended live]
      exact ⟨rfl, entities, hits, wellFormed, numbered⟩
  | ok _ =>
      by_cases parentOpen : ∀ parent, ctx.tx = some parent → (ledger.around parent).isSome
      · have inEntities parent (inside : ctx.tx = some parent) :
            (repository.entities.opened parent).isSome := by
          rw [entities.opened, Option.isSome_map]
          exact parentOpen parent inside
        have inHits parent (inside : ctx.tx = some parent) :
            (repository.hits.opened parent).isSome := by
          rw [hits.opened, Option.isSome_map]
          exact parentOpen parent inside
        have head : ctx.tx = (ledger.path ctx.tx).head? := by cases ctx.tx <;> rfl
        rw [Repository.begin_of_open live inEntities inHits, begin_of_open live parentOpen,
          Repository.opening, numbered]
        have opened side := Records.empty side (ledger.path ctx.tx)
        rw [← head] at opened
        have inserted := entities.insert (ledger.lastTx + 1) (opened .entities)
        have insertedHits := hits.insert (ledger.lastTx + 1) (opened .hits)
        exact ⟨rfl, ⟨inserted.rows, inserted.failure, inserted.present, inserted.absent⟩,
          ⟨insertedHits.rows, insertedHits.failure, insertedHits.present, insertedHits.absent⟩,
          wellFormed.begin fun _ _ => around_of_path parentOpen, rfl⟩
      · obtain ⟨parent, failed⟩ := Classical.not_forall.mp parentOpen
        obtain ⟨inside, closed⟩ := Classical.not_imp.mp failed
        rw [Option.not_isSome_iff_eq_none] at closed
        have inEntities : repository.entities.opened parent = none := by
          rw [entities.opened, closed]
          rfl
        rw [Repository.begin_of_closed live inside inEntities,
          begin_of_closed live inside (Option.map_eq_none_iff.mp closed), numbered]
        exact ⟨rfl, ⟨entities.rows, entities.failure, entities.present, entities.absent⟩,
          ⟨hits.rows, hits.failure, hits.present, hits.absent⟩,
          wellFormed.congr rfl (Nat.le_succ _), rfl⟩

theorem commit_outside (outside : ctx.tx = none) :
    commit ctx ledger =
      (.error (.transaction "context is not bound to a transaction"), ledger) := by
  rw [commit, outside]

theorem commit_of_closed (inside : ctx.tx = some tx) (closed : ledger.journals[tx]? = none) :
    commit ctx ledger = (.error (Table.finished tx), ledger) := by
  simp only [commit, inside, closed]

theorem commit_of_outermost {journal : Journal} (inside : ctx.tx = some tx)
    (isOpen : ledger.journals[tx]? = some journal) (outermost : journal.ancestors = []) :
    commit ctx ledger =
      (.ok (), { ledger with
        committed := fun side => replay side journal.entries (ledger.committed side)
        journals := ledger.journals.erase tx }) := by
  simp only [commit, inside, isOpen, outermost]

theorem commit_of_orphan {journal : Journal} {parent : TxId} {outer : List TxId}
    (inside : ctx.tx = some tx) (isOpen : ledger.journals[tx]? = some journal)
    (nested : journal.ancestors = parent :: outer) (closed : ledger.journals[parent]? = none) :
    commit ctx ledger =
      (.error (Table.finished parent), { ledger with journals := ledger.journals.erase tx }) := by
  simp only [commit, inside, isOpen, nested, closed]

theorem commit_of_nested {journal outerJournal : Journal} {parent : TxId} {outer : List TxId}
    (inside : ctx.tx = some tx) (isOpen : ledger.journals[tx]? = some journal)
    (nested : journal.ancestors = parent :: outer)
    (parentOpen : ledger.journals[parent]? = some outerJournal) :
    commit ctx ledger =
      (.ok (), { ledger with
        journals := (ledger.journals.erase tx).insert parent
          { outerJournal with entries := outerJournal.entries ++ journal.entries } }) := by
  simp only [commit, inside, isOpen, nested, parentOpen]

section Commit

variable {side : Side} {table : Table} {journal : Journal}

theorem Reflects.commit_outermost (reflects : Reflects side table ledger)
    (isOpen : ledger.journals[tx]? = some journal) (outermost : journal.ancestors = []) :
    ∃ after, Table.commit tx table = (.ok (), after) ∧
      Reflects side after { ledger with
        committed := fun side => replay side journal.entries (ledger.committed side)
        journals := ledger.journals.erase tx } := by
  obtain ⟨overlay, present, records⟩ := reflects.present tx journal isOpen
  have parent : overlay.parent = none := by rw [records.parent, outermost]; rfl
  have closed := reflects.erase tx
  refine ⟨_, Table.commit_of_outermost present parent, ?_, closed.failure, closed.present,
    closed.absent⟩
  simp only [records.replayed, reflects.rows]

theorem Reflects.commit_orphan {parent : TxId} {outer : List TxId}
    (reflects : Reflects side table ledger) (isOpen : ledger.journals[tx]? = some journal)
    (nested : journal.ancestors = parent :: outer) (closed : ledger.journals[parent]? = none) :
    ∃ after, Table.commit tx table = (.error (Table.finished parent), after) ∧
      Reflects side after { ledger with journals := ledger.journals.erase tx } := by
  obtain ⟨overlay, present, records⟩ := reflects.present tx journal isOpen
  have place : overlay.parent = some parent := by rw [records.parent, nested]; rfl
  have stillClosed : (ledger.journals.erase tx)[parent]? = none := by
    rw [Std.ExtTreeMap.getElem?_erase, closed, ite_self]
  refine ⟨_, ?_, reflects.erase tx⟩
  rw [Table.commit_of_nested present place,
    Table.changeOverlay_of_closed ((reflects.erase tx).absent parent stillClosed)]

theorem Reflects.commit_nested {outerJournal : Journal} {parent : TxId} {outer : List TxId}
    (reflects : Reflects side table ledger) (isOpen : ledger.journals[tx]? = some journal)
    (nested : journal.ancestors = parent :: outer) (different : tx ≠ parent)
    (parentOpen : ledger.journals[parent]? = some outerJournal) :
    ∃ after, Table.commit tx table = (.ok (), after) ∧
      Reflects side after { ledger with
        journals := (ledger.journals.erase tx).insert parent
          { outerJournal with entries := outerJournal.entries ++ journal.entries } } := by
  obtain ⟨overlay, present, records⟩ := reflects.present tx journal isOpen
  have place : overlay.parent = some parent := by rw [records.parent, nested]; rfl
  have stillOpen : (ledger.journals.erase tx)[parent]? = some outerJournal := by
    simp only [Std.ExtTreeMap.getElem?_erase, Nat.compare_eq_eq, different, if_false, parentOpen]
  have closed := reflects.erase tx
  obtain ⟨outerOverlay, outerPresent, outerRecords⟩ := closed.present parent _ stillOpen
  refine ⟨_, ?_, closed.insert parent (records.onto outerRecords)⟩
  rw [Table.commit_of_nested present place, Table.changeOverlay_of_open outerPresent]

end Commit

theorem simulates_commit (ctx : Context) :
    Simulates Mirrored (Repository.commit ctx) (commit ctx) := by
  intro repository ledger ⟨entities, hits, wellFormed, numbered⟩
  cases inside : ctx.tx with
  | none =>
      rw [Repository.commit_outside inside, commit_outside inside]
      exact ⟨rfl, entities, hits, wellFormed, numbered⟩
  | some tx =>
      rw [Repository.commit_inside inside, Repository.onBoth_apply]
      cases isOpen : ledger.journals[tx]? with
      | none =>
          rw [commit_of_closed inside isOpen,
            Table.commit_of_closed (Table.opened_eq_none_iff.mpr (entities.absent tx isOpen)),
            Table.commit_of_closed (Table.opened_eq_none_iff.mpr (hits.absent tx isOpen))]
          exact ⟨rfl, entities, hits, wellFormed, numbered⟩
      | some journal =>
          have around : ledger.around tx = some journal.ancestors := by
            rw [Ledger.around, isOpen]
            rfl
          cases nested : journal.ancestors with
          | nil =>
              obtain ⟨table, done, entities⟩ := entities.commit_outermost isOpen nested
              obtain ⟨hitTable, hitsDone, hits⟩ := hits.commit_outermost isOpen nested
              rw [commit_of_outermost inside isOpen nested, done, hitsDone]
              exact ⟨rfl, entities, hits,
                (wellFormed.erase tx).congr rfl (Nat.le_refl _), numbered⟩
          | cons parent outer =>
              cases parentOpen : ledger.journals[parent]? with
              | none =>
                  obtain ⟨table, done, entities⟩ := entities.commit_orphan isOpen nested parentOpen
                  obtain ⟨hitTable, hitsDone, hits⟩ := hits.commit_orphan isOpen nested parentOpen
                  rw [commit_of_orphan inside isOpen nested parentOpen, done, hitsDone]
                  exact ⟨rfl, entities, hits, wellFormed.erase tx, numbered⟩
              | some outerJournal =>
                  rw [nested] at around
                  have different := Nat.ne_of_gt (wellFormed.parent_lt tx parent outer around)
                  obtain ⟨table, done, entities⟩ :=
                    entities.commit_nested isOpen nested different parentOpen
                  obtain ⟨hitTable, hitsDone, hits⟩ :=
                    hits.commit_nested isOpen nested different parentOpen
                  have stillOpen : (ledger.journals.erase tx)[parent]? = some outerJournal := by
                    simp only [Std.ExtTreeMap.getElem?_erase, Nat.compare_eq_eq, different,
                      if_false, parentOpen]
                  rw [commit_of_nested inside isOpen nested parentOpen, done, hitsDone]
                  exact
                    ⟨rfl, entities, hits, (wellFormed.erase tx).lengthen stillOpen rfl, numbered⟩

theorem rollback_outside (outside : ctx.tx = none) :
    rollback ctx ledger =
      (.error (.transaction "context is not bound to a transaction"), ledger) := by
  rw [rollback, outside]

theorem rollback_of_closed (inside : ctx.tx = some tx) (closed : ledger.journals[tx]? = none) :
    rollback ctx ledger = (.error (Table.finished tx), ledger) := by
  simp only [rollback, inside, closed]

theorem rollback_of_open {journal : Journal} (inside : ctx.tx = some tx)
    (isOpen : ledger.journals[tx]? = some journal) :
    rollback ctx ledger = (.ok (), { ledger with journals := ledger.journals.erase tx }) := by
  simp only [rollback, inside, isOpen]

theorem simulates_rollback (ctx : Context) :
    Simulates Mirrored (Repository.rollback ctx) (rollback ctx) := by
  intro repository ledger ⟨entities, hits, wellFormed, numbered⟩
  cases inside : ctx.tx with
  | none =>
      rw [Repository.rollback_outside inside, rollback_outside inside]
      exact ⟨rfl, entities, hits, wellFormed, numbered⟩
  | some tx =>
      have same : repository.entities.opened tx = repository.hits.opened tx := by
        rw [entities.opened, hits.opened]
      rw [Repository.rollback_inside inside, Repository.onBoth_apply, Table.rollback_eq,
        Table.rollback_eq, same, hits.opened, Option.isSome_map]
      cases isOpen : ledger.journals[tx]? with
      | none =>
          have closed : repository.hits.opened tx = none :=
            Table.opened_eq_none_iff.mpr (hits.absent tx isOpen)
          rw [rollback_of_closed inside isOpen, Ledger.around, isOpen,
            Table.closing_of_closed closed, Table.closing_of_closed (same.trans closed)]
          exact ⟨rfl, entities, hits, wellFormed, numbered⟩
      | some journal =>
          rw [rollback_of_open inside isOpen, Ledger.around, isOpen]
          exact ⟨rfl, entities.erase tx, hits.erase tx, wellFormed.erase tx, numbered⟩

end Transactions

section Runs

variable {ι ε : Type} (schema : Schema ι ε)

/-- Every request is answered alike, and leaves what stands for each other. -/
theorem simulates_perform (signals : Signals) (ctx : Context) (request : Request ι ε) :
    Simulates Mirrored ((Repository.stores schema signals).perform ctx request)
      ((stores schema signals).perform ctx request) := by
  cases request with
  | begin => exact (simulates_begin signals ctx).map _
  | commit => exact (simulates_commit ctx).map _
  | rollback => exact (simulates_rollback ctx).map _
  | createEntity entity =>
      exact (simulates_onEntities fun _ _ => simulates_createEntity schema signals ctx entity).map _
  | updateEntity entity =>
      exact (simulates_onEntities fun _ _ => simulates_updateEntity schema signals ctx entity).map _
  | findEntity id =>
      refine (simulates_onEntities fun _ _ => ?_).map _
      exact (simulates_precheck signals ctx).bind fun _ => (simulates_liftM _).bind fun key =>
        simulates_copy schema ctx key
  | findEntities ids =>
      refine (simulates_onEntities fun _ _ => ?_).map _
      exact (simulates_precheck signals ctx).bind fun _ => simulates_copies schema ctx ids
  | upsertEntities entities =>
      refine (simulates_onEntities fun _ _ => ?_).map _
      exact (simulates_precheck signals ctx).bind fun _ =>
        Simulates.each (simulates_store schema ctx) entities
  | deleteEntity id =>
      exact (simulates_onEntities fun _ _ => simulates_deleteEntity schema signals ctx id).map _
  | deleteEntities =>
      refine (simulates_onEntities fun _ _ => ?_).map _
      exact (simulates_precheck signals ctx).bind fun _ => simulates_write ctx .clear
  | createHit hit =>
      exact (simulates_onHits fun _ _ => simulates_createHit schema signals ctx hit).map _
  | updateHit hit =>
      exact (simulates_onHits fun _ _ => simulates_updateHit schema signals ctx hit).map _
  | findHit queryId =>
      exact (simulates_onHits fun _ _ => simulates_findHit schema signals ctx queryId).map _
  | findHits =>
      refine (simulates_onHits fun _ _ => ?_).map _
      exact (simulates_precheck signals ctx).bind fun _ =>
        simulates_scan ctx (Hits.ofRows schema)
  | deleteHit queryId =>
      exact (simulates_onHits fun _ _ => simulates_deleteHit schema signals ctx queryId).map _
  | deleteHits =>
      refine (simulates_onHits fun _ _ => ?_).map _
      exact (simulates_precheck signals ctx).bind fun _ => simulates_write ctx .clear

theorem simulates_take (turn : Turn ι ε) :
    Simulates Mirrored (Repository.take schema turn) (take schema turn) := by
  cases turn with
  | request signals ctx request => exact simulates_perform schema signals ctx request
  | failEntities failure =>
      intro repository ledger ⟨entities, hits, wellFormed, numbered⟩
      exact ⟨rfl, ⟨entities.rows, rfl, entities.present, entities.absent⟩,
        ⟨hits.rows, hits.failure, hits.present, hits.absent⟩,
        wellFormed.congr rfl (Nat.le_refl _), numbered⟩
  | failHits failure =>
      intro repository ledger ⟨entities, hits, wellFormed, numbered⟩
      exact ⟨rfl, ⟨entities.rows, entities.failure, entities.present, entities.absent⟩,
        ⟨hits.rows, rfl, hits.present, hits.absent⟩,
        wellFormed.congr rfl (Nat.le_refl _), numbered⟩

theorem mirrored_empty : Mirrored .empty .empty where
  own := ⟨rfl, rfl, fun tx journal isOpen => by simp [empty] at isOpen,
    fun tx _ => by simp [Repository.empty, Table.empty]⟩
  beside := ⟨rfl, rfl, fun tx journal isOpen => by simp [empty] at isOpen,
    fun tx _ => by simp [Repository.empty, Table.empty]⟩
  wellFormed := .empty
  lastTx := rfl

/-- From where one stands for the other, all later turns are answered alike. -/
theorem answers_eq_of_mirrored (run : List (Turn ι ε)) {repository : Repository} {ledger : Ledger}
    (mirrored : Mirrored repository ledger) :
    answers (Repository.take schema) run repository = answers (take schema) run ledger := by
  induction run generalizing repository ledger with
  | nil => rfl
  | cons turn run inductionHypothesis =>
      obtain ⟨same, later⟩ := simulates_take schema turn repository ledger mirrored
      rw [answers, answers, same, inductionHypothesis later]

end Runs

/-- Overlays implement nested transactions faithfully. Whatever is asked of the stores and of their
transactions, in whatever contexts and in whatever order, the repository gives the answers, and the
failures, of the ledger, which keeps the journal of every open transaction in full. -/
theorem answers_repository_eq_answers_ledger {ι ε : Type} (schema : Schema ι ε)
    (run : List (Turn ι ε)) :
    answers (Repository.take schema) run .empty = answers (Ledger.take schema) run .empty :=
  answers_eq_of_mirrored schema run mirrored_empty

end Ledger

end QueryCache
