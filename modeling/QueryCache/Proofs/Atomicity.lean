import QueryCache.Engine.Update
import QueryCache.Proofs.Frames
import QueryCache.Proofs.Worlds
import QueryCache.Simulation.Entry

/-!
# Removals are all or nothing

However a backend is hindered, a removal that fails has left the committed rows and everything that
was staged before it as they were; and as long as the ends of transactions are not among the calls
that fail, no transaction is left open or closed.

The reason is the same at every depth: what is done in a transaction of its own stays within it
(`Guided`) until the commit, and the commit is the last call that can fail.
-/

namespace QueryCache

/-- What can be removed from a cache. -/
inductive Removal (ι : Type)
  | entity (id : ι)
  | query (queryId : String)
  | all

/-- Removes an entity, a query or everything, each with what goes with it. -/
def Backend.remove {σ ι ε : Type} [DecidableEq ι] (backend : Backend σ ι ε) (ctx : Context) :
    Removal ι → Action σ Unit
  | .entity id => backend.invalidateEntity ctx id
  | .query queryId => backend.invalidateQuery ctx queryId
  | .all => backend.dropAll ctx

/-- Work in one transaction: it keeps a repository sound, stays within the transaction, and, if it
is to be strict, opens and closes no transaction. -/
structure Repository.Guided {ι ε : Type} (schema : Schema ι ε) (strict : Prop) (tx : Option TxId)
    (before after : Repository) : Prop where
  sound : after.Sound schema
  frame : Repository.Frame tx before after
  opened : strict → ∀ other, after.hits.opened other = before.hits.opened other

section Guided

variable {ι ε : Type} {schema : Schema ι ε} {strict : Prop} {tx : Option TxId}

theorem Repository.Guided.refl {repository : Repository} (sound : repository.Sound schema) :
    Repository.Guided schema strict tx repository repository :=
  ⟨sound, .refl tx _, fun _ _ => rfl⟩

theorem Repository.Guided.trans {before middle after : Repository}
    (first : Repository.Guided schema strict tx before middle)
    (second : Repository.Guided schema strict tx middle after) :
    Repository.Guided schema strict tx before after where
  sound := second.sound
  frame := first.frame.trans second.frame
  opened must other := (second.opened must other).trans (first.opened must other)

end Guided

namespace Backend

open Repository QueryCache.Action

variable {σ ι ε : Type} {backend : Backend σ ι ε} {part : σ → Repository} {strict : Prop}
  {ctx : Context} {s : σ}

/-- From a state with a sound repository, work in a transaction leads to this state. -/
def Stays (backend : Backend σ ι ε) (part : σ → Repository) (strict : Prop) (tx : Option TxId)
    (s t : σ) : Prop :=
  (part s).Sound backend.schema → Guided backend.schema strict tx (part s) (part t)

theorem stays_of_eq {tx : Option TxId} {t : σ} (same : part t = part s) :
    backend.Stays part strict tx s t := by
  intro sound
  rw [same]
  exact .refl sound

instance {tx : Option TxId} : IsPreorder σ (backend.Stays part strict tx) where
  refl _ := stays_of_eq rfl
  trans _ _ _ first second sound := (first sound).trans (second (first sound).sound)

theorem Hindered.along_check (hindered : backend.Hindered part) {tx : Option TxId} :
    (backend.check ctx).Along (backend.Stays part strict tx) :=
  fun s => stays_of_eq (hindered.check ctx s)

theorem Hindered.along_record (hindered : backend.Hindered part) {tx : Option TxId}
    (event : Event) : (backend.record event).Along (backend.Stays part strict tx) :=
  fun s => stays_of_eq (hindered.record event s)

/-- A call of a store is work in the transaction of its context. -/
theorem Hindered.along_call (hindered : backend.Hindered part) (request : Request ι ε)
    (call : request.isCall) :
    (backend.stores.perform ctx request).Along (backend.Stays part strict ctx.tx) := by
  intro s sound
  rcases hindered.request ctx request s with ⟨-, same⟩ | ⟨listing, signals, -, same⟩
  · exact stays_of_eq same sound
  · rw [same]
    have edits : Edits backend.schema ctx.tx (part s)
        ((Repository.storesIn backend.schema listing signals).perform ctx request (part s)).2 :=
      along_perform call (part s)
    refine ⟨sound.edits edits, .edits edits, fun _ other => ?_⟩
    exact (edits.hits.frame other).opened other (Nat.le_refl _)

/-- Looking something up changes nothing, whether it succeeds or not. -/
theorem Hindered.perform_of_reads (hindered : backend.Hindered part) (request : Request ι ε)
    (reads : request.reads) : part (backend.stores.perform ctx request s).2 = part s := by
  rcases hindered.request ctx request s with ⟨-, same⟩ | ⟨listing, signals, -, same⟩
  · exact same
  · exact same.trans (Repository.perform_of_reads reads)

section Transact

variable {work : Context → Action σ Unit}

/-- What a transaction of its own comes to: a failure that leaves everything untouched, or
success of work that stays in the transaction of the caller. -/
def Settled (backend : Backend σ ι ε) (part : σ → Repository) (strict : Prop) (tx : Option TxId)
    (s : σ) (outcome : Except Error Unit × σ) : Prop :=
  Guided backend.schema strict tx (part s) (part outcome.2) ∧
    ∀ e, outcome.1 = .error e → (part s).Untouched (part outcome.2)

theorem settled_of_eq {tx : Option TxId} {outcome : Except Error Unit × σ}
    (sound : (part s).Sound backend.schema) (same : part outcome.2 = part s) :
    backend.Settled part strict tx s outcome := by
  refine ⟨stays_of_eq same sound, fun _ _ => ?_⟩
  rw [same]
  exact .refl _

theorem settled_congr {tx : Option TxId} {t : σ} {outcome : Except Error Unit × σ}
    (same : part t = part s) (settled : backend.Settled part strict tx t outcome) :
    backend.Settled part strict tx s outcome := by
  rw [Settled, same] at settled
  exact settled

/-- Beginning a transaction either comes to nothing, or opens the next transaction. -/
theorem Hindered.begin_cases (hindered : backend.Hindered part)
    (sound : (part s).Sound backend.schema) :
    (∃ e, (backend.begin ctx s).1 = .error e ∧
      (part (backend.begin ctx s).2 = part s ∨
        part (backend.begin ctx s).2 = { part s with lastTx := (part s).lastTx + 1 })) ∨
    ((∀ outer, ctx.tx = some outer → ((part s).hits.opened outer).isSome) ∧
      (backend.begin ctx s).1 = .ok (ctx.withTx ((part s).lastTx + 1)) ∧
      part (backend.begin ctx s).2 = (part s).opening ctx.tx) := by
  rcases hindered.request ctx .begin s with ⟨⟨e, failed⟩, same⟩ | ⟨_, signals, outcome, same⟩
  · exact .inl ⟨e, map_eq_error_iff.mp failed, .inl same⟩
  · have outcome : (backend.begin ctx s).1 = (Repository.begin signals ctx (part s)).1 :=
      eq_of_map_eq (fun _ _ equal => Answer.context.inj equal) outcome
    change part (backend.begin ctx s).2 = (Repository.begin signals ctx (part s)).2 at same
    rcases sound.begin_cases signals ctx with ⟨e, ended⟩ | ⟨e, closed⟩ | ⟨parentOpen, begun⟩
    · rw [ended] at outcome same
      exact .inl ⟨e, outcome, .inl same⟩
    · rw [closed] at outcome same
      exact .inl ⟨e, outcome, .inr same⟩
    · rw [begun] at outcome same
      exact .inr ⟨parentOpen, outcome, same⟩

theorem Acts.commit (acts : backend.Acts part ctx .commit s) :
    (backend.commit ctx s).1 = (Repository.commit ctx (part s)).1 ∧
      part (backend.commit ctx s).2 = (Repository.commit ctx (part s)).2 := by
  obtain ⟨_, signals, outcome, same⟩ := acts
  exact ⟨eq_of_map_eq (fun _ _ _ => rfl) outcome, same⟩

theorem Acts.rollback (acts : backend.Acts part ctx .rollback s) :
    (backend.rollback ctx s).1 = (Repository.rollback ctx (part s)).1 ∧
      part (backend.rollback ctx s).2 = (Repository.rollback ctx (part s)).2 := by
  obtain ⟨_, signals, outcome, same⟩ := acts
  exact ⟨eq_of_map_eq (fun _ _ _ => rfl) outcome, same⟩

/-- The state of affairs when the work of a transaction is done and the transaction is to end. -/
structure AtEnd (backend : Backend σ ι ε) (part : σ → Repository) (strict : Prop)
    (before : Repository) (inner : Context) (tx : TxId) (parent : Option TxId) (s : σ) : Prop where
  soundBefore : before.Sound backend.schema
  sound : (part s).Sound backend.schema
  inside : inner.tx = some tx
  younger : before.lastTx < tx
  frame : Repository.Frame (some tx) before (part s)
  isOpen : (part s).hits.opened tx = some parent
  parentOpen : ∀ outer, parent = some outer → (before.hits.opened outer).isSome
  opened : strict → ∀ other, other ≠ tx → (part s).hits.opened other = before.hits.opened other

namespace AtEnd

variable {before : Repository} {inner : Context} {tx : TxId} {parent : Option TxId}

/-- Work that was guided since its transaction was opened has come to its end. -/
theorem of_guided (sound : before.Sound backend.schema)
    (parentOpen : ∀ outer, parent = some outer → (before.hits.opened outer).isSome)
    (guided : Guided backend.schema strict (some (before.lastTx + 1)) (before.opening parent)
      (part s)) (ctx : Context) :
    backend.AtEnd part strict before (ctx.withTx (before.lastTx + 1)) (before.lastTx + 1) parent
      s where
  soundBefore := sound
  sound := guided.sound
  inside := rfl
  younger := Nat.lt_succ_self _
  frame := (Repository.Frame.opening _ parent before).trans guided.frame
  isOpen := by
    have newest := guided.frame.hits.opened (before.lastTx + 1) (Nat.le_refl _)
    rw [newest, Repository.opening, Table.opened_opening, if_pos rfl]
  parentOpen := parentOpen
  opened must other different := by
    rw [guided.opened must, Repository.opening, Table.opened_opening, if_neg different]

theorem untouched (atEnd : backend.AtEnd part strict before inner tx parent s) :
    before.Untouched (part s) :=
  atEnd.frame.untouched atEnd.soundBefore atEnd.younger

theorem entitiesOpen (atEnd : backend.AtEnd part strict before inner tx parent s) :
    (part s).entities.opened tx = some parent :=
  (atEnd.sound.paired tx).trans atEnd.isOpen

theorem not_opened_before (atEnd : backend.AtEnd part strict before inner tx parent s) :
    before.hits.opened tx = none := by
  rw [← Option.not_isSome_iff_eq_none]
  intro isOpen
  exact absurd atEnd.younger (Nat.not_lt.mpr (atEnd.soundBefore.le_lastTx tx isOpen))

/-- A commit that is made succeeds, for the parent is open as it was before. -/
theorem commit_eq (atEnd : backend.AtEnd part strict before inner tx parent s) :
    Repository.commit inner (part s) =
      (.ok (), { part s with
        entities := (Table.commit tx (part s).entities).2
        hits := (Table.commit tx (part s).hits).2 }) := by
  refine atEnd.sound.commit_of_open atEnd.inside atEnd.isOpen fun outer place => ?_
  have openBefore := atEnd.parentOpen outer place
  rw [atEnd.frame.hits.opened outer (atEnd.soundBefore.le_lastTx outer openBefore)]
  exact openBefore

/-- What is open when a transaction has ended is what was open before it. -/
theorem opened_closed (atEnd : backend.AtEnd part strict before inner tx parent s)
    (must : strict) (other : TxId) :
    (if other = tx then none else (part s).hits.opened other) = before.hits.opened other := by
  split
  · rename_i same
    rw [same, atEnd.not_opened_before]
  · rename_i different
    exact atEnd.opened must other different

theorem settled_commit (atEnd : backend.AtEnd part strict before inner tx parent s)
    (acts : backend.Acts part inner .commit s) :
    Guided backend.schema strict parent before (part (backend.commit inner s).2) ∧
      (backend.commit inner s).1 = .ok () := by
  obtain ⟨outcome, same⟩ := acts.commit
  rw [atEnd.commit_eq] at outcome same
  refine ⟨⟨?_, ?_, fun must other => ?_⟩, outcome⟩
  · have sound : (Repository.commit inner (part s)).2.Sound backend.schema := atEnd.sound.commit
    rw [atEnd.commit_eq] at sound
    rw [same]
    exact sound
  · rw [same]
    exact atEnd.frame.publish atEnd.younger atEnd.entitiesOpen atEnd.isOpen
  · rw [same]
    simp only [Table.opened_commit]
    exact atEnd.opened_closed must other

theorem guided_rollback (atEnd : backend.AtEnd part strict before inner tx parent s)
    (acts : backend.Acts part inner .rollback s) (place : Option TxId) :
    Guided backend.schema strict place before (part (backend.rollback inner s).2) ∧
      before.Untouched (part (backend.rollback inner s).2) := by
  obtain ⟨-, same⟩ := acts.rollback
  have sound : (Repository.rollback inner (part s)).2.Sound backend.schema := atEnd.sound.rollback
  rw [atEnd.sound.rollback_eq atEnd.inside] at same sound
  rw [same]
  refine ⟨⟨sound, atEnd.frame.drop atEnd.younger place, fun must other => ?_⟩, ?_⟩
  · simp only [Table.opened_closing]
    exact atEnd.opened_closed must other
  · exact (atEnd.frame.drop atEnd.younger (some tx)).untouched atEnd.soundBefore atEnd.younger

/-- However the work ended, and whatever becomes of the end of its transaction. -/
theorem settled_finish (atEnd : backend.AtEnd part strict before inner tx parent s)
    (hindered : backend.Hindered part) (ends : strict → backend.EndsAct part)
    (outcome : Except Error Unit) :
    Guided backend.schema strict parent before (part (backend.finish inner outcome s).2) ∧
      ∀ e, (backend.finish inner outcome s).1 = .error e →
        before.Untouched (part (backend.finish inner outcome s).2) := by
  have unended (notMust : ¬ strict) : Guided backend.schema strict parent before (part s) :=
    ⟨atEnd.sound, atEnd.frame.inside atEnd.younger parent, fun must => absurd must notMust⟩
  cases outcome with
  | ok _ =>
      have acts : backend.Acts part inner .commit s ∨
          (¬ strict ∧ backend.Refuses part inner .commit s) := by
        by_cases must : strict
        · exact .inl (ends must inner s).1
        · exact (hindered.request inner .commit s).symm.imp_right fun refuses => ⟨must, refuses⟩
      change Guided _ _ _ _ (part (backend.commit inner s).2) ∧
        ∀ e, (backend.commit inner s).1 = .error e →
          before.Untouched (part (backend.commit inner s).2)
      rcases acts with acts | ⟨notMust, -, same⟩
      · obtain ⟨guided, succeeds⟩ := atEnd.settled_commit acts
        refine ⟨guided, fun e failed => ?_⟩
        cases succeeds.symm.trans failed
      · change part (backend.commit inner s).2 = part s at same
        rw [same]
        exact ⟨unended notMust, fun _ _ => atEnd.untouched⟩
  | error e =>
      have acts : backend.Acts part inner .rollback s ∨
          (¬ strict ∧ backend.Refuses part inner .rollback s) := by
        by_cases must : strict
        · exact .inl (ends must inner s).2
        · exact (hindered.request inner .rollback s).symm.imp_right fun refuses => ⟨must, refuses⟩
      change Guided _ _ _ _ (part (backend.rollback inner s).2) ∧
        ∀ other, Except.error e = .error other →
          before.Untouched (part (backend.rollback inner s).2)
      rcases acts with acts | ⟨notMust, -, same⟩
      · obtain ⟨guided, untouched⟩ := atEnd.guided_rollback acts parent
        exact ⟨guided, fun _ _ => untouched⟩
      · change part (backend.rollback inner s).2 = part s at same
        rw [same]
        exact ⟨unended notMust, fun _ _ => atEnd.untouched⟩

end AtEnd

/-- No transaction is begun, and nothing is done; or work that stays in its transaction is done in
one that was opened for it, which then ends as the work ended. -/
theorem Hindered.transact_cases (hindered : backend.Hindered part)
    (stays : ∀ inner, (work inner).Along (backend.Stays part strict inner.tx))
    (sound : (part s).Sound backend.schema) :
    (∃ e, backend.begin ctx s = (.error e, (backend.begin ctx s).2) ∧
      backend.transact ctx work s = (.error e, (backend.begin ctx s).2) ∧
      (part (backend.begin ctx s).2 = part s ∨
        part (backend.begin ctx s).2 = { part s with lastTx := (part s).lastTx + 1 })) ∨
    ∃ opened,
      let inner := ctx.withTx ((part s).lastTx + 1)
      backend.begin ctx s = (.ok inner, opened) ∧
        part opened = (part s).opening ctx.tx ∧ (part opened).Sound backend.schema ∧
        backend.AtEnd part strict (part s) inner ((part s).lastTx + 1) ctx.tx
          (work inner opened).2 ∧
        backend.transact ctx work s =
          backend.finish inner (work inner opened).1 (work inner opened).2 := by
  rw [transact]
  rcases hindered.begin_cases sound with ⟨e, failed, same⟩ | ⟨parentOpen, begun, same⟩
  · have ended : backend.begin ctx s = (.error e, (backend.begin ctx s).2) := Prod.ext failed rfl
    rw [bind_of_error ended]
    exact .inl ⟨e, ended, rfl, same⟩
  · have began : backend.begin ctx s = (.ok (ctx.withTx ((part s).lastTx + 1)),
      (backend.begin ctx s).2) := Prod.ext begun rfl
    rw [bind_of_ok began]
    generalize (backend.begin ctx s).2 = opened at same began ⊢
    have soundOpened : (part opened).Sound backend.schema := by
      rw [same]
      exact sound.opening parentOpen
    have guided := stays (ctx.withTx ((part s).lastTx + 1)) opened soundOpened
    rw [same] at guided
    exact .inr ⟨opened, began, same, soundOpened, .of_guided sound parentOpen guided ctx, rfl⟩

/-- Work that stays in its transaction, done in a transaction of its own, stays in that of the
caller, and if it fails it touches nothing. -/
theorem Hindered.settled_transact (hindered : backend.Hindered part)
    (ends : strict → backend.EndsAct part)
    (stays : ∀ inner, (work inner).Along (backend.Stays part strict inner.tx))
    (sound : (part s).Sound backend.schema) :
    backend.Settled part strict ctx.tx s (backend.transact ctx work s) := by
  rcases hindered.transact_cases stays sound with
    ⟨e, -, applied, same⟩ | ⟨opened, -, -, -, atEnd, applied⟩
  · rw [applied]
    rcases same with same | same
    · exact settled_of_eq sound same
    · rw [Settled, same]
      refine ⟨⟨?_, .numbered ctx.tx _, fun _ _ => rfl⟩, fun _ _ => ?_⟩
      · exact sound.numbered
      · exact (Frame.numbered (some ((part s).lastTx + 1)) _).untouched sound (Nat.lt_succ_self _)
  · rw [applied]
    exact atEnd.settled_finish hindered ends _

theorem Hindered.along_transact (hindered : backend.Hindered part)
    (ends : strict → backend.EndsAct part)
    (stays : ∀ inner, (work inner).Along (backend.Stays part strict inner.tx)) :
    (backend.transact ctx work).Along (backend.Stays part strict ctx.tx) :=
  fun _ sound => (hindered.settled_transact ends stays sound).1

end Transact

section Removals

open Invalidation

/-- What a removal does in its transaction leads along a relation: looking at the context, the calls
of the stores, and reporting that a hit was removed. -/
structure Leads (backend : Backend σ ι ε) (relation : σ → σ → Prop) (ctx : Context) : Prop where
  check : (backend.check ctx).Along relation
  call : ∀ request : Request ι ε, request.isCall →
    (backend.stores.perform ctx request).Along relation
  record : ∀ queryId, (backend.record (.invalidation queryId)).Along relation

namespace Leads

variable {relation : σ → σ → Prop} [IsPreorder σ relation] (leads : backend.Leads relation ctx)
include leads

/-- Removing an entity leads along what removing a hit leads along. -/
theorem along_dropEntity [DecidableEq ι] {removeHit : Context → String → Action σ Unit}
    (removes : ∀ key, (removeHit ctx key).Along relation) (id : ι) :
    (dropEntity backend removeHit id ctx).Along relation := by
  have findAll : (backend.hits.findAll ctx).Along relation := leads.call .findHits rfl
  have findById : (backend.entities.findById ctx id).Along relation :=
    leads.call (.findEntity id) rfl
  have deleteById : (backend.entities.deleteById ctx id).Along relation :=
    leads.call (.deleteEntity id) rfl
  refine leads.check.bind fun _ => (along_liftM _).bind fun key => ?_
  refine (removes key).bind fun _ => leads.check.bind fun _ => findAll.bind fun hits => ?_
  refine Along.bind (Along.each fun queryId _ => ?_) fun _ => leads.check.bind fun _ => ?_
  · exact leads.check.bind fun _ => removes queryId
  · refine findById.bind fun copy => ?_
    split
    · exact deleteById
    · exact along_pure ()

/-- Removing a hit leads along what removing an entity leads along. -/
theorem along_dropHit {removeEntity : Context → ι → Action σ Unit}
    (removes : ∀ id, (removeEntity ctx id).Along relation) (queryId : String) :
    (dropHit backend removeEntity queryId ctx).Along relation := by
  have findById : (backend.hits.findById ctx queryId).Along relation :=
    leads.call (.findHit queryId) rfl
  have deleteById : (backend.hits.deleteById ctx queryId).Along relation :=
    leads.call (.deleteHit queryId) rfl
  refine leads.check.bind fun _ => findById.bind fun found => ?_
  cases found with
  | none => exact along_pure ()
  | some hit =>
      refine deleteById.bind fun _ => (leads.record queryId).bind fun _ => ?_
      exact Along.each fun id _ => leads.check.bind fun _ => removes id

end Leads

theorem Hindered.leads (hindered : backend.Hindered part) :
    backend.Leads (backend.Stays part strict ctx.tx) ctx :=
  ⟨hindered.along_check, hindered.along_call, fun _ => hindered.along_record _⟩

/-- Removing an entity inside a transaction is work in it, if removing a hit is. -/
theorem Hindered.along_dropEntity [DecidableEq ι] (hindered : backend.Hindered part)
    {removeHit : Context → String → Action σ Unit}
    (stays : ∀ key, (removeHit ctx key).Along (backend.Stays part strict ctx.tx)) (id : ι) :
    (dropEntity backend removeHit id ctx).Along (backend.Stays part strict ctx.tx) :=
  hindered.leads.along_dropEntity stays id

/-- Removing a hit inside a transaction is work in it, if removing an entity is. -/
theorem Hindered.along_dropHit (hindered : backend.Hindered part)
    {removeEntity : Context → ι → Action σ Unit}
    (stays : ∀ id, (removeEntity ctx id).Along (backend.Stays part strict ctx.tx))
    (queryId : String) :
    (dropHit backend removeEntity queryId ctx).Along (backend.Stays part strict ctx.tx) :=
  hindered.leads.along_dropHit stays queryId

/-- However deeply removals nest, each is work in the transaction of its caller. -/
theorem Hindered.along_hitWithin [DecidableEq ι] (hindered : backend.Hindered part)
    (ends : strict → backend.EndsAct part) (depth : Nat) (ctx : Context) (queryId : String) :
    (hitWithin backend depth ctx queryId).Along (backend.Stays part strict ctx.tx) := by
  induction depth generalizing ctx queryId with
  | zero => exact along_fail _
  | succ depth inductionHypothesis =>
      refine hindered.along_transact ends fun inner => hindered.along_dropHit (fun id => ?_) queryId
      refine hindered.along_transact ends fun innermost => ?_
      refine hindered.along_dropEntity (fun key => ?_) id
      exact inductionHypothesis innermost key

theorem Hindered.along_entityWithin [DecidableEq ι] (hindered : backend.Hindered part)
    (ends : strict → backend.EndsAct part) (depth : Nat) (ctx : Context) (id : ι) :
    (entityWithin backend depth ctx id).Along (backend.Stays part strict ctx.tx) := by
  refine hindered.along_transact ends fun inner => ?_
  exact hindered.along_dropEntity (fun key => hindered.along_hitWithin ends depth inner key) id

theorem Hindered.settled_hitWithin [DecidableEq ι] (hindered : backend.Hindered part)
    (ends : strict → backend.EndsAct part) (depth : Nat) (ctx : Context) (queryId : String)
    (sound : (part s).Sound backend.schema) :
    backend.Settled part strict ctx.tx s (hitWithin backend depth ctx queryId s) := by
  cases depth with
  | zero => exact settled_of_eq sound rfl
  | succ depth =>
      refine hindered.settled_transact ends (fun inner => ?_) sound
      exact hindered.along_dropHit (hindered.along_entityWithin ends depth inner) queryId

theorem Hindered.along_deleteRows (hindered : backend.Hindered part) :
    Along (backend.Stays part strict ctx.tx) (do
      backend.hits.deleteAll ctx
      backend.entities.deleteAll ctx) := by
  have deleteHits : (backend.hits.deleteAll ctx).Along (backend.Stays part strict ctx.tx) :=
    hindered.along_call .deleteHits rfl
  exact deleteHits.bind fun _ => hindered.along_call .deleteEntities rfl

theorem Hindered.settled_remove [DecidableEq ι] (hindered : backend.Hindered part)
    (ends : strict → backend.EndsAct part) (ctx : Context) (removal : Removal ι)
    (sound : (part s).Sound backend.schema) :
    backend.Settled part strict ctx.tx s (backend.remove ctx removal s) := by
  cases removal with
  | query queryId => exact hindered.settled_hitWithin ends _ ctx queryId sound
  | entity id =>
      refine hindered.settled_transact ends (fun inner => ?_) sound
      exact hindered.along_dropEntity (fun key => hindered.along_hitWithin ends _ inner key) id
  | all =>
      change Settled _ _ _ _ _ (backend.dropAll ctx s)
      rw [dropAll, bind_apply]
      have same := hindered.check ctx s
      generalize backend.check ctx s = checked at same
      obtain ⟨result, checked⟩ := checked
      cases result with
      | error e => exact settled_of_eq sound same
      | ok _ =>
          apply settled_congr same
          exact hindered.settled_transact ends (fun inner => hindered.along_deleteRows)
            (same ▸ sound)

end Removals

end Backend

namespace Simulation

/-- A gate at which no hits can be removed all at once. -/
def stuckHits : Gate Unit UInt64 where
  decide call _ :=
    (if call.method = .hitsDeleteAll then .fail (.backend "stuck") else .pass, ())
  revivals _ := 0

theorem stuckHits_hinders : stuckHits.Hinders := by
  intro call state
  change Decision.Hinders (if call.method = .hitsDeleteAll then _ else _)
  split <;> trivial

theorem stuckHits_endsPass : stuckHits.EndsPass := by
  intro call state e isEnd same
  have other : call.method ≠ .hitsDeleteAll := by
    rcases isEnd with isEnd | isEnd <;> rw [isEnd] <;> decide
  change (if call.method = .hitsDeleteAll then _ else _) = _ at same
  rw [if_neg other] at same
  cases same

/-- A cache of numbered entries behind the gate. -/
def stuckSetting : Setting Unit UInt64 (Entry UInt64) :=
  ⟨IdKind.natural.schema, stuckHits, ⟨[], none, none, false⟩, false⟩

/-- A world with an open transaction, in which a hit is staged. -/
def stagedWorld : World Unit (Entry UInt64) :=
  { World.initial () [] 0 with
    repository := Repository.after IdKind.natural.schema
      [.request .initial .root .begin,
        .request .initial (Context.root.withTx 1) (.createHit ⟨"q", [7], ⟨0, 0⟩⟩)] .empty }

end Simulation

/-- A removal that fails, for whatever reason and at whatever depth, leaves the committed rows and
everything that was staged before it as they were. If the ends of transactions were not kept from
being made, then besides the same transactions are open as before, whether it failed or not. -/
theorem remove_all_or_nothing {σ ι ε : Type} [DecidableEq ι] (backend : Backend σ ι ε)
    (part : σ → Repository) (hindered : backend.Hindered part) (ctx : Context)
    (removal : Removal ι) (s : σ) (reachable : (part s).Reachable backend.schema) :
    (∀ e, (backend.remove ctx removal s).1 = .error e →
      (part s).Untouched (part (backend.remove ctx removal s).2)) ∧
    (backend.EndsAct part → ∀ tx,
      (part (backend.remove ctx removal s).2).entities.opened tx = (part s).entities.opened tx ∧
      (part (backend.remove ctx removal s).2).hits.opened tx = (part s).hits.opened tx) := by
  obtain ⟨guided, untouched⟩ :=
    hindered.settled_remove (fun ends : backend.EndsAct part => ends) ctx removal reachable.sound
  refine ⟨untouched, fun ends tx => ⟨?_, guided.opened ends tx⟩⟩
  rw [guided.sound.paired, reachable.sound.paired]
  exact guided.opened ends tx

theorem remove_all_or_nothing_stuckHits :
    let after := Simulation.stuckSetting.backend.remove (Context.root.withTx 1) .all
      Simulation.stagedWorld
    after.1 = .error (.backend "stuck") ∧
      Simulation.stagedWorld.repository.Untouched after.2.repository ∧
      ∀ tx, after.2.repository.hits.opened tx =
        Simulation.stagedWorld.repository.hits.opened tx := by
  obtain ⟨untouched, opened⟩ := remove_all_or_nothing Simulation.stuckSetting.backend
    Simulation.World.repository (Simulation.stuckSetting.hindered Simulation.stuckHits_hinders)
    (Context.root.withTx 1) .all Simulation.stagedWorld ⟨_, rfl⟩
  have failed : (Simulation.stuckSetting.backend.remove (Context.root.withTx 1) .all
      Simulation.stagedWorld).1 = .error (.backend "stuck") := by
    rfl
  have ends := Simulation.stuckSetting.endsAct Simulation.stuckHits_hinders
    Simulation.stuckHits_endsPass
  exact ⟨failed, untouched _ failed, fun tx => (opened ends tx).2⟩

end QueryCache
