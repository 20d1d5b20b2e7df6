import QueryCache.Proofs.Chains
import QueryCache.Proofs.Requests

/-!
# Sound repositories

The invariant of a repository. Transactions are open in both of its tables or in none, and stand
in the same transaction in both; a transaction stands in an older one, and none is younger than
the last that was numbered; and a hit is stored in the row of its query. Every reachable
repository is sound.
-/

namespace QueryCache

open Wire

section Obeys

variable {legal : String → Option Bytes → Prop}

/-- All rows are legal. -/
def Rows.Obey (legal : String → Option Bytes → Prop) (rows : Rows) : Prop :=
  ∀ key bytes, rows[key]? = some bytes → legal key (some bytes)

/-- All changes of an overlay are legal. -/
def Overlay.Obeys (legal : String → Option Bytes → Prop) (overlay : Overlay) : Prop :=
  ∀ key change, overlay.changes[key]? = some change → legal key change

namespace Overlay.Obeys

theorem empty (parent : Option TxId) : (Overlay.empty parent).Obeys legal := by
  intro key change changed
  simp [Overlay.empty] at changed

theorem insert {overlay : Overlay} (obeys : overlay.Obeys legal) {key : String}
    {change : Option Bytes} (allowed : legal key change) :
    Overlay.Obeys legal { overlay with changes := overlay.changes.insert key change } := by
  intro other edit changed
  rw [Std.ExtTreeMap.getElem?_insert] at changed
  split at changed
  · rename_i same
    rw [Std.LawfulEqCmp.compare_eq_iff_eq.mp same] at allowed
    cases changed
    exact allowed
  · exact obeys _ _ changed

theorem applyTo {overlay : Overlay} (obeys : overlay.Obeys legal) {rows : Rows}
    (obey : rows.Obey legal) : (overlay.applyTo rows).Obey legal := by
  intro key bytes seen
  rw [Overlay.getElem?_applyTo, rowThrough] at seen
  cases changed : overlay.changes[key]? with
  | some change =>
      rw [changed, Option.getD_some] at seen
      exact seen ▸ obeys _ _ changed
  | none =>
      rw [changed, Option.getD_none] at seen
      split at seen
      · cases seen
      · exact obey _ _ seen

theorem onto {upper lower : Overlay} (obeysUpper : upper.Obeys legal)
    (obeysLower : lower.Obeys legal) : (upper.onto lower).Obeys legal := by
  intro key change changed
  rw [Overlay.onto, Std.ExtTreeMap.getElem?_union] at changed
  cases own : upper.changes[key]? with
  | some edit =>
      rw [own] at changed
      cases changed
      exact obeysUpper _ _ own
  | none =>
      rw [own, Option.none_or] at changed
      split at changed
      · simp at changed
      · exact obeysLower _ _ changed

end Overlay.Obeys

namespace Table

/-- All committed rows and all staged changes are legal. -/
structure Obeys (legal : String → Option Bytes → Prop) (table : Table) : Prop where
  rows : table.rows.Obey legal
  overlays : ∀ {tx : TxId} {overlay : Overlay}, table.overlays[tx]? = some overlay →
    overlay.Obeys legal

namespace Obeys

variable {table : Table} {tx : TxId}

theorem stage (obeys : table.Obeys legal) {overlay : Overlay} (allowed : overlay.Obeys legal) :
    Obeys legal { table with overlays := table.overlays.insert tx overlay } := by
  refine ⟨obeys.rows, fun {other found} stored => ?_⟩
  rw [Std.ExtTreeMap.getElem?_insert] at stored
  split at stored
  · cases stored
    exact allowed
  · exact obeys.overlays stored

theorem changeOverlay {change : Overlay → Overlay} (obeys : table.Obeys legal)
    (allowed : ∀ {overlay : Overlay}, overlay.Obeys legal → (change overlay).Obeys legal) :
    (Table.changeOverlay tx change table).2.Obeys legal := by
  cases present : table.overlays[tx]? with
  | none =>
      rw [changeOverlay_of_closed present]
      exact obeys
  | some overlay =>
      rw [changeOverlay_of_open present]
      exact obeys.stage (allowed (obeys.overlays present))

theorem opening (obeys : table.Obeys legal) (parent : Option TxId) :
    (table.opening tx parent).Obeys legal :=
  obeys.stage (Overlay.Obeys.empty parent)

theorem closing (obeys : table.Obeys legal) (tx : TxId) : (table.closing tx).Obeys legal := by
  refine ⟨obeys.rows, fun {other found} stored => ?_⟩
  rw [Table.closing, Std.ExtTreeMap.getElem?_erase] at stored
  split at stored
  · cases stored
  · exact obeys.overlays stored

theorem commit (obeys : table.Obeys legal) (tx : TxId) :
    (Table.commit tx table).2.Obeys legal := by
  cases present : table.overlays[tx]? with
  | none =>
      rw [commit_of_closed (opened_eq_none_iff.mpr present)]
      exact obeys
  | some overlay =>
      cases place : overlay.parent with
      | none =>
          rw [commit_of_outermost present place]
          exact ⟨(obeys.overlays present).applyTo obeys.rows, (obeys.closing tx).overlays⟩
      | some parent =>
          rw [commit_of_nested present place]
          exact (obeys.closing tx).changeOverlay (obeys.overlays present).onto

theorem set (obeys : table.Obeys legal) {place : Option TxId} {key : String}
    {change : Option Bytes} (allowed : legal key change) :
    (Table.set place key change table).2.Obeys legal := by
  cases place with
  | some tx => exact obeys.changeOverlay fun staged => staged.insert allowed
  | none =>
      refine ⟨fun other bytes stored => ?_, obeys.overlays⟩
      cases change with
      | some written =>
          simp only [Table.set, Action.modify, Rows.change,
            Std.ExtTreeMap.getElem?_insert] at stored
          split at stored
          · rename_i same
            rw [Std.LawfulEqCmp.compare_eq_iff_eq.mp same] at allowed
            exact stored ▸ allowed
          · exact obeys.rows _ _ stored
      | none =>
          simp only [Table.set, Action.modify, Rows.change,
            Std.ExtTreeMap.getElem?_erase] at stored
          split at stored
          · cases stored
          · exact obeys.rows _ _ stored

theorem clear (obeys : table.Obeys legal) (place : Option TxId) :
    (Table.clear place table).2.Obeys legal := by
  cases place with
  | some tx =>
      refine obeys.changeOverlay fun _ => ?_
      intro key change changed
      simp at changed
  | none =>
      refine ⟨fun key bytes stored => ?_, obeys.overlays⟩
      simp [Table.clear, Action.modify] at stored

theorem edits {place : Option TxId} {before after : Table} (obeys : before.Obeys legal)
    (edits : Edits legal place before after) : after.Obeys legal := by
  induction edits with
  | refl => exact obeys
  | set _ allowed inductionHypothesis => exact inductionHypothesis.set allowed
  | clear _ inductionHypothesis => exact inductionHypothesis.clear _

/-- What is seen in a transaction is legal. -/
theorem view (obeys : table.Obeys legal) (ordered : table.Ordered) {place : Option TxId}
    {seen : Rows} (shown : table.view place = .ok seen) : seen.Obey legal := by
  cases place with
  | none =>
      cases shown
      exact obeys.rows
  | some tx =>
      induction tx using Nat.strongRecOn generalizing seen with
      | ind tx inductionHypothesis =>
          cases present : table.overlays[tx]? with
          | none => cases (view_of_closed present).symm.trans shown
          | some overlay =>
              rw [view_of_open ordered present] at shown
              cases nested : overlay.parent with
              | none =>
                  rw [nested] at shown
                  cases shown
                  exact (obeys.overlays present).applyTo obeys.rows
              | some parent =>
                  rw [nested] at shown
                  cases outer : table.view (some parent) with
                  | error e => cases outer ▸ shown
                  | ok below =>
                      rw [outer] at shown
                      cases shown
                      have older := ordered.parent_lt present nested
                      have obeysParent := inductionHypothesis parent older outer
                      exact (obeys.overlays present).applyTo obeysParent

end Obeys

end Table

end Obeys

namespace Repository

variable {ι ε : Type} (schema : Schema ι ε) {listing : Listing} {signals : Signals} {ctx : Context}
  {repository : Repository}

/-- The invariant of a repository. -/
structure Sound (repository : Repository) : Prop where
  /-- Both tables have the same open transactions, in the same places. -/
  paired : ∀ tx, repository.entities.opened tx = repository.hits.opened tx
  ordered : repository.hits.Ordered
  /-- No open transaction is younger than the last that was numbered. -/
  le_lastTx : ∀ tx, (repository.hits.opened tx).isSome → tx ≤ repository.lastTx
  /-- Hits are stored in the rows of their queries. -/
  keyed : repository.hits.Obeys (Hits.Legal schema)

/-- What calls of the stores in one transaction do to a repository. -/
structure Edits (tx : Option TxId) (before after : Repository) : Prop where
  entities : Entities.Edits tx before.entities after.entities
  hits : Hits.Edits schema tx before.hits after.hits
  lastTx : after.lastTx = before.lastTx

variable {schema}

/-- What calls of the stores in one transaction do to a repository, each change of a row a legal one
of its table. -/
structure Edited (legalEntities legalHits : String → Option Bytes → Prop) (tx : Option TxId)
    (before after : Repository) : Prop where
  entities : Table.Edits legalEntities tx before.entities after.entities
  hits : Table.Edits legalHits tx before.hits after.hits
  lastTx : after.lastTx = before.lastTx

theorem Edited.edits {tx : Option TxId} {before after : Repository}
    (edited : Edited (fun _ _ => True) (Hits.Legal schema) tx before after) :
    Edits schema tx before after :=
  ⟨edited.entities, edited.hits, edited.lastTx⟩

section Calls

variable {legalEntities legalHits : String → Option Bytes → Prop}

/-- What a request stores is legal, and so is each removal. -/
structure Allows (schema : Schema ι ε) (legalEntities legalHits : String → Option Bytes → Prop)
    (request : Request ι ε) : Prop where
  entities : ∀ entity ∈ request.storedEntities, Entities.Allows schema legalEntities entity
  hits : ∀ hit ∈ request.storedHits, Hits.Allows schema legalHits hit
  removedEntities : ∀ key, legalEntities key none
  removedHits : ∀ key, legalHits key none

theorem edited_onEntities {α : Type} {action : Action Table α} {tx : Option TxId}
    (along : action.Along (Table.Edits legalEntities tx)) :
    (onEntities action).Along (Edited legalEntities legalHits tx) :=
  fun repository => ⟨along repository.entities, .refl _, rfl⟩

theorem edited_onHits {α : Type} {action : Action Table α} {tx : Option TxId}
    (along : action.Along (Table.Edits legalHits tx)) :
    (onHits action).Along (Edited legalEntities legalHits tx) :=
  fun repository => ⟨.refl _, along repository.hits, rfl⟩

/-- A call of a store makes legal changes in the transaction of its context, if what it stores is
legal. -/
theorem edited_perform {request : Request ι ε} (call : request.isCall)
    (allows : Allows schema legalEntities legalHits request) :
    ((storesIn schema listing signals).perform ctx request).Along
      (Edited legalEntities legalHits ctx.tx) := by
  obtain ⟨entities, hits, removedEntities, removedHits⟩ := allows
  cases request with
  | begin | commit | rollback => cases call
  | createEntity entity =>
      exact (edited_onEntities (Entities.along_create _ _ _ (entities _ List.mem_cons_self))).map _
  | updateEntity entity =>
      exact (edited_onEntities (Entities.along_update _ _ _ (entities _ List.mem_cons_self))).map _
  | findEntity id => exact (edited_onEntities (Entities.along_findById _ _ _ _)).map _
  | findEntities ids => exact (edited_onEntities (Entities.along_findByIds _ _ _ _)).map _
  | upsertEntities stored => exact (edited_onEntities (Entities.along_upsert _ _ _ entities)).map _
  | deleteEntity id =>
      exact (edited_onEntities (Entities.along_deleteById _ _ _ _ removedEntities)).map _
  | deleteEntities => exact (edited_onEntities (Entities.along_deleteAll _ _)).map _
  | createHit hit =>
      exact (edited_onHits (Hits.along_create _ _ _ (hits _ List.mem_cons_self))).map _
  | updateHit hit =>
      exact (edited_onHits (Hits.along_update _ _ _ (hits _ List.mem_cons_self))).map _
  | findHit queryId => exact (edited_onHits (Hits.along_findById _ _ _ _)).map _
  | findHits => exact (edited_onHits (Hits.along_findAllIn _ _ _ _)).map _
  | deleteHit queryId =>
      exact (edited_onHits (Hits.along_deleteById _ _ _ (removedHits queryId))).map _
  | deleteHits => exact (edited_onHits (Hits.along_deleteAll _ _)).map _

end Calls

/-- A call of a store makes edits in the transaction of its context. -/
theorem along_perform {request : Request ι ε} (call : request.isCall) :
    ((storesIn schema listing signals).perform ctx request).Along (Edits schema ctx.tx) := by
  intro repository
  have allows : Allows schema (fun _ _ => True) (Hits.Legal schema) request :=
    ⟨fun entity _ => Entities.allows_all schema entity, fun hit _ => Hits.allows_legal schema hit,
      fun _ => trivial, Hits.legal_none schema⟩
  exact (edited_perform call allows repository).edits

/-- Looking something up changes nothing. -/
theorem perform_of_reads {request : Request ι ε} (reads : request.reads) :
    ((storesIn schema listing signals).perform ctx request repository).2 = repository := by
  have onEntities {α : Type} {action : Action Table α} (along : action.Along Eq) :
      (onEntities action repository).2 = repository :=
    congrArg (fun table => { repository with entities := table }) (along repository.entities).symm
  have onHits {α : Type} {action : Action Table α} (along : action.Along Eq) :
      (onHits action repository).2 = repository :=
    congrArg (fun table => { repository with hits := table }) (along repository.hits).symm
  cases request with
  | findEntity id => exact onEntities (Entities.along_findById _ _ _ _)
  | findEntities ids => exact onEntities (Entities.along_findByIds _ _ _ _)
  | findHit queryId => exact onHits (Hits.along_findById _ _ _ _)
  | findHits => exact onHits (Hits.along_findAllIn _ _ _ _)
  | _ => cases reads

theorem onBoth_apply (action : Action Table Unit) (repository : Repository) :
    onBoth action repository =
      (match (action repository.entities).1 with
        | .ok () => (action repository.hits).1
        | .error e => .error e,
      { repository with
        entities := (action repository.entities).2
        hits := (action repository.hits).2 }) := by
  simp only [onBoth, Action.bind_apply, Action.attempt_apply, onEntities, onHits,
    Action.within_apply]
  cases (action repository.entities).1 <;> rfl

/-- A repository whose next transaction was numbered and opened in both tables. -/
def opening (repository : Repository) (parent : Option TxId) : Repository where
  entities := repository.entities.opening (repository.lastTx + 1) parent
  hits := repository.hits.opening (repository.lastTx + 1) parent
  lastTx := repository.lastTx + 1

theorem begin_of_ended {e : Error} (ended : ctx.check signals = .error e) :
    begin signals ctx repository = (.error e, repository) := by
  rw [begin, Action.bind_apply, Action.liftM_apply, ended]

/-- The number of a transaction is used up even if its parent is closed. -/
theorem begin_of_closed {outer : TxId} (live : ctx.check signals = .ok ())
    (inside : ctx.tx = some outer) (closed : repository.entities.opened outer = none) :
    begin signals ctx repository =
      (.error (Table.finished outer), { repository with lastTx := repository.lastTx + 1 }) := by
  rw [begin, Action.bind_apply, Action.liftM_apply, live]
  simp only [Action.bind_apply, nextTx, onEntities, Action.within_apply, inside,
    Table.begin_of_closed closed]

theorem begin_of_open (live : ctx.check signals = .ok ())
    (entitiesOpen : ∀ outer, ctx.tx = some outer → (repository.entities.opened outer).isSome)
    (hitsOpen : ∀ outer, ctx.tx = some outer → (repository.hits.opened outer).isSome) :
    begin signals ctx repository =
      (.ok (ctx.withTx (repository.lastTx + 1)), repository.opening ctx.tx) := by
  rw [begin, Action.bind_apply, Action.liftM_apply, live]
  simp only [Action.bind_apply, nextTx, onEntities, onHits, Action.within_apply,
    Table.begin_of_open entitiesOpen, Table.begin_of_open hitsOpen, Action.attempt_apply]
  rfl

theorem commit_outside (outside : ctx.tx = none) :
    commit ctx repository =
      (.error (.transaction "context is not bound to a transaction"), repository) := by
  rw [commit, requireTx, outside]
  rfl

theorem rollback_outside (outside : ctx.tx = none) :
    rollback ctx repository =
      (.error (.transaction "context is not bound to a transaction"), repository) := by
  rw [rollback, requireTx, outside]
  rfl

theorem commit_inside {tx : TxId} (inside : ctx.tx = some tx) :
    commit ctx repository = onBoth (Table.commit tx) repository := by
  rw [commit, requireTx, inside]
  rfl

theorem rollback_inside {tx : TxId} (inside : ctx.tx = some tx) :
    rollback ctx repository = onBoth (Table.rollback tx) repository := by
  rw [rollback, requireTx, inside]
  rfl

namespace Sound

/-- Both tables answer a commit alike. -/
theorem commit_eq (sound : repository.Sound schema) {tx : TxId} (inside : ctx.tx = some tx) :
    commit ctx repository =
      ((Table.commit tx repository.hits).1,
        { repository with
          entities := (Table.commit tx repository.entities).2
          hits := (Table.commit tx repository.hits).2 }) := by
  have same : (Table.commit tx repository.entities).1 = (Table.commit tx repository.hits).1 := by
    simp only [Table.commit_fst, Table.opened_closing, sound.paired]
  rw [commit_inside inside, onBoth_apply, same]
  cases (Table.commit tx repository.hits).1 <;> rfl

/-- A commit succeeds where its transaction and the one around it are open. -/
theorem commit_of_open (sound : repository.Sound schema) {tx : TxId} {parent : Option TxId}
    (inside : ctx.tx = some tx) (isOpen : repository.hits.opened tx = some parent)
    (parentOpen : ∀ outer, parent = some outer → (repository.hits.opened outer).isSome) :
    commit ctx repository =
      (.ok (), { repository with
        entities := (Table.commit tx repository.entities).2
        hits := (Table.commit tx repository.hits).2 }) := by
  rw [sound.commit_eq inside, Table.commit_fst, isOpen]
  cases place : parent with
  | none => rfl
  | some outer =>
      have different : outer ≠ tx := Nat.ne_of_lt (sound.ordered tx outer (place ▸ isOpen))
      simp only [Table.opened_closing, different, if_false, parentOpen outer place, if_true]

/-- A transaction in which nothing was done leaves nothing behind but its number. -/
theorem commit_opening (sound : repository.Sound schema)
    (parentOpen : ∀ outer, ctx.tx = some outer → (repository.hits.opened outer).isSome) :
    Repository.commit (ctx.withTx (repository.lastTx + 1)) (repository.opening ctx.tx) =
      (.ok (), { repository with lastTx := repository.lastTx + 1 }) := by
  have fresh : repository.hits.opened (repository.lastTx + 1) = none := by
    rw [← Option.not_isSome_iff_eq_none]
    exact fun isOpen => Nat.not_succ_le_self _ (sound.le_lastTx _ isOpen)
  have inside : (ctx.withTx (repository.lastTx + 1)).tx = some (repository.lastTx + 1) := rfl
  rw [commit_inside inside, onBoth_apply, Repository.opening, Table.commit_opening fresh parentOpen,
    Table.commit_opening ((sound.paired _).trans fresh) fun outer place => by
      rw [sound.paired]
      exact parentOpen outer place]

/-- Both tables answer a rollback alike. -/
theorem rollback_eq (sound : repository.Sound schema) {tx : TxId} (inside : ctx.tx = some tx) :
    rollback ctx repository =
      (if (repository.hits.opened tx).isSome then .ok () else .error (Table.finished tx),
        { repository with
          entities := repository.entities.closing tx
          hits := repository.hits.closing tx }) := by
  rw [rollback_inside inside, onBoth_apply, Table.rollback_eq, Table.rollback_eq, sound.paired]
  cases (repository.hits.opened tx).isSome <;> rfl

theorem entitiesOrdered (sound : repository.Sound schema) : repository.entities.Ordered :=
  fun tx parent isOpen => sound.ordered tx parent (sound.paired tx ▸ isOpen)

theorem empty : Sound schema .empty where
  paired tx := by simp [Repository.empty, Table.empty, Table.opened]
  ordered tx parent isOpen := by simp [Repository.empty, Table.empty, Table.opened] at isOpen
  le_lastTx tx isOpen := by simp [Repository.empty, Table.empty, Table.opened] at isOpen
  keyed :=
    ⟨fun key bytes stored => by simp [Repository.empty, Table.empty] at stored,
      fun stored => by simp [Repository.empty, Table.empty] at stored⟩

theorem edits {tx : Option TxId} {before after : Repository} (sound : before.Sound schema)
    (edits : Edits schema tx before after) : after.Sound schema := by
  have entitiesOpened tx := (edits.entities.frame tx).opened tx (Nat.le_refl _)
  have hitsOpened tx := (edits.hits.frame tx).opened tx (Nat.le_refl _)
  refine ⟨fun tx => ?_, fun tx parent isOpen => ?_, fun tx isOpen => ?_,
    sound.keyed.edits edits.hits⟩
  · rw [entitiesOpened, hitsOpened, sound.paired]
  · exact sound.ordered tx parent (hitsOpened tx ▸ isOpen)
  · exact edits.lastTx ▸ sound.le_lastTx tx (hitsOpened tx ▸ isOpen)

/-- A repository that lost some of its open transactions, in both tables alike, is sound. -/
theorem shrink {after : Repository} (sound : repository.Sound schema)
    (paired : ∀ tx, after.entities.opened tx = after.hits.opened tx)
    (opened : ∀ tx, (after.hits.opened tx).isSome →
      after.hits.opened tx = repository.hits.opened tx)
    (lastTx : repository.lastTx ≤ after.lastTx)
    (keyed : after.hits.Obeys (Hits.Legal schema)) : after.Sound schema where
  paired := paired
  ordered tx parent isOpen := by
    have before := opened tx (by rw [isOpen]; rfl)
    exact sound.ordered tx parent (before ▸ isOpen)
  le_lastTx tx isOpen := by
    have before := opened tx isOpen
    exact Nat.le_trans (sound.le_lastTx tx (before ▸ isOpen)) lastTx
  keyed := keyed

/-- A repository in which one transaction was ended, in both tables, is sound. -/
theorem ended (sound : repository.Sound schema) {tx : TxId} {entities hits : Table}
    (entitiesOpened : ∀ other, entities.opened other =
      if other = tx then none else repository.entities.opened other)
    (hitsOpened : ∀ other, hits.opened other =
      if other = tx then none else repository.hits.opened other)
    (keyed : hits.Obeys (Hits.Legal schema)) :
    Sound schema { repository with entities, hits } := by
  refine sound.shrink (fun other => ?_) (fun other isOpen => ?_) (Nat.le_refl _) keyed
  · rw [entitiesOpened, hitsOpened, sound.paired]
  · rw [hitsOpened] at isOpen ⊢
    split at isOpen
    · cases isOpen
    · rename_i different
      rw [if_neg different]

/-- The number of a transaction may be used up in vain. -/
theorem numbered (sound : repository.Sound schema) :
    Sound schema { repository with lastTx := repository.lastTx + 1 } :=
  sound.shrink sound.paired (fun _ _ => rfl) (Nat.le_succ _) sound.keyed

theorem opening (sound : repository.Sound schema) {parent : Option TxId}
    (parentOpen : ∀ outer, parent = some outer → (repository.hits.opened outer).isSome) :
    (repository.opening parent).Sound schema where
  paired tx := by
    simp only [Repository.opening, Table.opened_opening, sound.paired]
  ordered tx outer isOpen := by
    simp only [Repository.opening, Table.opened_opening] at isOpen
    split at isOpen
    · rename_i newest
      cases isOpen
      exact newest ▸ Nat.lt_succ_of_le (sound.le_lastTx outer (parentOpen outer rfl))
    · exact sound.ordered tx outer isOpen
  le_lastTx tx isOpen := by
    simp only [Repository.opening, Table.opened_opening] at isOpen
    split at isOpen
    · rename_i newest
      exact Nat.le_of_eq newest
    · exact Nat.le_succ_of_le (sound.le_lastTx tx isOpen)
  keyed := sound.keyed.opening parent

/-- A transaction is opened in both tables or in none, and its number may be used up in vain. -/
theorem begin_cases (sound : repository.Sound schema) (signals : Signals) (ctx : Context) :
    (∃ e, Repository.begin signals ctx repository = (.error e, repository)) ∨
    (∃ e, Repository.begin signals ctx repository =
      (.error e, { repository with lastTx := repository.lastTx + 1 })) ∨
    ((∀ outer, ctx.tx = some outer → (repository.hits.opened outer).isSome) ∧
      Repository.begin signals ctx repository =
        (.ok (ctx.withTx (repository.lastTx + 1)), repository.opening ctx.tx)) := by
  cases live : ctx.check signals with
  | error e => exact .inl ⟨e, begin_of_ended live⟩
  | ok _ =>
      by_cases parentOpen : ∀ outer, ctx.tx = some outer → (repository.hits.opened outer).isSome
      · have inEntities outer (inside : ctx.tx = some outer) :
            (repository.entities.opened outer).isSome := by
          rw [sound.paired]
          exact parentOpen outer inside
        exact .inr (.inr ⟨parentOpen, begin_of_open live inEntities parentOpen⟩)
      · obtain ⟨outer, failed⟩ := Classical.not_forall.mp parentOpen
        obtain ⟨inside, closed⟩ := Classical.not_imp.mp failed
        rw [Option.not_isSome_iff_eq_none, ← sound.paired] at closed
        exact .inr (.inl ⟨_, begin_of_closed live inside closed⟩)

theorem begin (sound : repository.Sound schema) :
    (Repository.begin signals ctx repository).2.Sound schema := by
  rcases sound.begin_cases signals ctx with ⟨e, ended⟩ | ⟨e, closed⟩ | ⟨parentOpen, begun⟩
  · rw [ended]
    exact sound
  · rw [closed]
    exact sound.numbered
  · rw [begun]
    exact sound.opening parentOpen

theorem commit (sound : repository.Sound schema) :
    (Repository.commit ctx repository).2.Sound schema := by
  cases inside : ctx.tx with
  | none => rw [commit_outside inside]; exact sound
  | some tx =>
      rw [sound.commit_eq inside]
      exact sound.ended Table.opened_commit Table.opened_commit (sound.keyed.commit tx)

theorem rollback (sound : repository.Sound schema) :
    (Repository.rollback ctx repository).2.Sound schema := by
  cases inside : ctx.tx with
  | none => rw [rollback_outside inside]; exact sound
  | some tx =>
      rw [sound.rollback_eq inside]
      exact sound.ended Table.opened_closing Table.opened_closing (sound.keyed.closing tx)

/-- Every request keeps a repository sound. -/
theorem perform (sound : repository.Sound schema) (request : Request ι ε) :
    ((storesIn schema listing signals).perform ctx request repository).2.Sound schema := by
  by_cases call : request.isCall
  · exact sound.edits (along_perform call repository)
  · cases request with
    | begin => exact sound.begin
    | commit => exact sound.commit
    | rollback => exact sound.rollback
    | _ => exact absurd rfl call

end Sound

/-- Every turn keeps a repository sound. -/
theorem Sound.take (sound : repository.Sound schema) (turn : Turn ι ε) :
    (Repository.take schema turn repository).2.Sound schema := by
  cases turn with
  | request signals ctx request => exact sound.perform request
  | failEntities failure =>
      exact sound.shrink sound.paired (fun _ _ => rfl) (Nat.le_refl _) sound.keyed
  | failHits failure =>
      exact sound.shrink sound.paired (fun _ _ => rfl) (Nat.le_refl _)
        ⟨sound.keyed.rows, sound.keyed.overlays⟩

/-- Every reachable repository is sound. -/
theorem Reachable.sound (reachable : repository.Reachable schema) : repository.Sound schema :=
  reachable.induction Sound.empty fun turn _ sound => sound.take turn

end Repository

end QueryCache
