import QueryCache.Proofs.Likeness
import QueryCache.Proofs.Names

/-!
# Notes of what a cache does

A backend can be watched: whatever a read does with it is noted in order, each call with how it
ended. Being watched changes nothing. From the notes it can be told whether an action heeds its
calls: it goes on after a call that failed for its context only to roll back, and then fails as the
call did; if no call failed so, it does not fail so either. Invalidations heed their calls, at every
depth.
-/

namespace QueryCache

open QueryCache.Action

/-- What is noted of a read. -/
inductive Note (ι ε : Type)
  /-- A call of a store or of a transaction, and its failure if it failed. -/
  | call (request : Request ι ε) (failure : Option Error)
  /-- A check of a context, and its failure if it failed. -/
  | check (failure : Option Error)
  /-- The answer of the source. -/
  | source (answer : Except Error (List ε))

/-- A state, with the notes that were taken. -/
structure Noted (σ ι ε : Type) where
  state : σ
  notes : List (Note ι ε)

namespace Note

variable {ι ε : Type}

/-- A context is found to be live, if it is checked. -/
def Live : Note ι ε → Prop
  | .check (some _) => False
  | _ => True

/-- A call failed for its context, which a rollback may do without consequence. -/
def Stops : Note ι ε → Prop
  | .call request (some e) => request.isRollback = false ∧ e.isContext = true
  | _ => False

/-- A rollback, however it ended. -/
def RollsBack : Note ι ε → Prop
  | .call request _ => request.isRollback = true
  | _ => False

/-- The source was asked. -/
def Asks : Note ι ε → Prop
  | .source _ => True
  | _ => False

/-- A copy or a hit was to be stored. -/
def Writes : Note ι ε → Prop
  | .call request _ => request.writes = true
  | _ => False

theorem RollsBack.not_stops {note : Note ι ε} (rollsBack : note.RollsBack) : ¬ note.Stops := by
  rintro stops
  match note with
  | .call _ (some _) => cases rollsBack.symm.trans stops.1

theorem RollsBack.not_asks {note : Note ι ε} (rollsBack : note.RollsBack) : ¬ note.Asks := by
  cases note with
  | call request failure => exact id
  | _ => exact rollsBack.elim

instance : DecidablePred (Live : Note ι ε → Prop)
  | .check (some _) => isFalse id
  | .check none | .call _ _ | .source _ => isTrue trivial

instance : DecidablePred (Stops : Note ι ε → Prop)
  | .call _ (some _) => inferInstanceAs (Decidable (_ ∧ _))
  | .call _ none | .check _ | .source _ => isFalse id

instance : DecidablePred (Asks : Note ι ε → Prop)
  | .source _ => isTrue trivial
  | .call _ _ | .check _ => isFalse id

end Note

section Watched

variable {σ ι ε α β : Type}

/-- How an action failed, if it did. -/
def failure : Except Error α → Option Error
  | .ok _ => none
  | .error e => some e

/-- An action with notes of how it ended. -/
def Action.noted (note : Except Error α → List (Note ι ε)) (action : Action σ α) :
    Action (Noted σ ι ε) α := fun t =>
  ((action t.state).1, ⟨(action t.state).2, t.notes ++ note (action t.state).1⟩)

/-- The note of a request. -/
def calling (request : Request ι ε) (outcome : Except Error α) : List (Note ι ε) :=
  [.call request (failure outcome)]

/-- The note of a question to the source that is answered with any number of entities. -/
def asking (outcome : Except Error (List ε)) : List (Note ι ε) :=
  [.source outcome]

/-- The note of a question to the source that is answered with at most one entity. -/
def askingOne (outcome : Except Error (Option ε)) : List (Note ι ε) :=
  [.source (outcome.map Option.toList)]

/-- No note at all. -/
def silent (_ : Except Error α) : List (Note ι ε) := []

/-- A backend that is watched. Changes of the source are made without a note. -/
def Backend.watched (backend : Backend σ ι ε) : Backend (Noted σ ι ε) ι ε where
  schema := backend.schema
  entities :=
    { create := fun ctx entity =>
        (backend.entities.create ctx entity).noted (calling (.createEntity entity))
      update := fun ctx entity =>
        (backend.entities.update ctx entity).noted (calling (.updateEntity entity))
      findById := fun ctx id =>
        (backend.entities.findById ctx id).noted (calling (.findEntity id))
      findByIds := fun ctx ids =>
        (backend.entities.findByIds ctx ids).noted (calling (.findEntities ids))
      upsert := fun ctx entities =>
        (backend.entities.upsert ctx entities).noted (calling (.upsertEntities entities))
      deleteById := fun ctx id =>
        (backend.entities.deleteById ctx id).noted (calling (.deleteEntity id))
      deleteAll := fun ctx =>
        (backend.entities.deleteAll ctx).noted (calling .deleteEntities) }
  hits :=
    { create := fun ctx hit => (backend.hits.create ctx hit).noted (calling (.createHit hit))
      update := fun ctx hit => (backend.hits.update ctx hit).noted (calling (.updateHit hit))
      findById := fun ctx queryId =>
        (backend.hits.findById ctx queryId).noted (calling (.findHit queryId))
      findAll := fun ctx => (backend.hits.findAll ctx).noted (calling .findHits)
      deleteById := fun ctx queryId =>
        (backend.hits.deleteById ctx queryId).noted (calling (.deleteHit queryId))
      deleteAll := fun ctx => (backend.hits.deleteAll ctx).noted (calling .deleteHits) }
  begin ctx := (backend.begin ctx).noted (calling .begin)
  commit ctx := (backend.commit ctx).noted (calling .commit)
  rollback ctx := (backend.rollback ctx).noted (calling .rollback)
  source :=
    { findById := fun ctx id => (backend.source.findById ctx id).noted askingOne
      create := backend.source.create.map fun creator ctx entity t =>
        let (made, s) := creator ctx entity t.state
        (made, { t with state := s })
      update := backend.source.update.map fun update ctx entity => (update ctx entity).noted silent
      deleteById := backend.source.deleteById.map fun delete ctx id => (delete ctx id).noted silent
      deleteAll := backend.source.deleteAll.map fun delete ctx => (delete ctx).noted silent
      findAll := backend.source.findAll.map fun findAll ctx => (findAll ctx).noted asking }
  check ctx := (backend.check ctx).noted fun outcome => [.check (failure outcome)]
  now := backend.now.noted silent
  record event := (backend.record event).noted silent
  nesting t := backend.nesting t.state

theorem Backend.watched_findAll (backend : Backend σ ι ε) :
    backend.watched.source.findAll =
      backend.source.findAll.map fun findAll ctx => (findAll ctx).noted asking := rfl

/-- A state with notes, and the state. -/
def Bears (t : Noted σ ι ε) (s : σ) : Prop := t.state = s

theorem simulates_noted (note : Except Error α → List (Note ι ε)) (action : Action σ α) :
    Simulates Bears (action.noted note) action := by
  rintro t _ rfl
  exact ⟨rfl, rfl⟩

/-- A request is noted as such, however it is made. -/
theorem Backend.watched_perform (backend : Backend σ ι ε) (ctx : Context) (request : Request ι ε) :
    backend.watched.stores.perform ctx request =
      (backend.stores.perform ctx request).noted (calling request) := by
  have formed {α : Type} (call : Action σ α) (form : α → Answer ι ε) :
      (call.noted (calling request)).map form = (call.map form).noted (calling request) := by
    funext t
    simp only [map_apply, noted, calling]
    cases (call t.state).1 <;> rfl
  cases request <;> exact formed _ _

/-- A backend acts alike when it is watched. -/
theorem Backend.alike_watched (backend : Backend σ ι ε) :
    Backend.Alike Bears backend.watched backend where
  schema := rfl
  perform ctx request := backend.watched_perform ctx request ▸ simulates_noted _ _
  check ctx := simulates_noted _ _
  now := simulates_noted _ _
  record event := simulates_noted _ _
  findById ctx id := simulates_noted _ _
  findAll := by
    rw [backend.watched_findAll]
    cases offered : backend.source.findAll with
    | none => exact .inl ⟨rfl, rfl⟩
    | some findAll => exact .inr ⟨_, findAll, rfl, rfl, fun ctx => simulates_noted _ _⟩
  nesting := by
    rintro t _ rfl
    rfl

/-- An action adds notes as stated, given how it ends. -/
def Adds (action : Action (Noted σ ι ε) α) (post : Except Error α → List (Note ι ε) → Prop)
    (t : Noted σ ι ε) : Prop :=
  ∃ new, (action t).2.notes = t.notes ++ new ∧ post (action t).1 new

section Rules

variable {t : Noted σ ι ε} {post : Except Error α → List (Note ι ε) → Prop}

theorem Adds.weaken {action : Action (Noted σ ι ε) α}
    {weaker : Except Error α → List (Note ι ε) → Prop} (adds : Adds action post t)
    (weaken : ∀ outcome new, post outcome new → weaker outcome new) : Adds action weaker t := by
  obtain ⟨new, notes, holds⟩ := adds
  exact ⟨new, notes, weaken _ _ holds⟩

theorem adds_liftM {result : Except Error α} (holds : post result []) :
    Adds (liftM result : Action (Noted σ ι ε) α) post t :=
  ⟨[], (List.append_nil _).symm, holds⟩

theorem adds_pure {value : α} (holds : post (.ok value) []) :
    Adds (Pure.pure value : Action (Noted σ ι ε) α) post t :=
  adds_liftM holds

theorem adds_fail {e : Error} (holds : post (.error e) []) :
    Adds (fail e : Action (Noted σ ι ε) α) post t :=
  adds_liftM holds

theorem adds_noted {note : Except Error α → List (Note ι ε)} {action : Action σ α}
    (holds : post (action t.state).1 (note (action t.state).1)) : Adds (action.noted note) post t :=
  ⟨note (action t.state).1, rfl, holds⟩

/-- The notes of two actions in a row are those of the first, followed by those of the second if it
comes to that. -/
theorem Adds.bind {first : Action (Noted σ ι ε) α} {second : α → Action (Noted σ ι ε) β}
    {post : Except Error β → List (Note ι ε) → Prop}
    (adds : Adds first (fun outcome new => (∀ e, outcome = .error e → post (.error e) new) ∧
      ∀ value, outcome = .ok value →
        Adds (second value) (fun last more => post last (new ++ more)) (first t).2) t) :
    Adds (first >>= second) post t := by
  obtain ⟨new, notes, onError, onOk⟩ := adds
  unfold Adds
  rw [bind_apply]
  generalize first t = ended at notes onError onOk ⊢
  obtain ⟨e | value, middle⟩ := ended
  · exact ⟨new, notes, onError e rfl⟩
  · obtain ⟨more, notesLater, holds⟩ := onOk value rfl
    refine ⟨new ++ more, ?_, holds⟩
    rw [← List.append_assoc, ← notes]
    exact notesLater

/-- What follows an action that is attempted goes on with how it ended. -/
theorem Adds.attempt_bind {first : Action (Noted σ ι ε) α}
    {second : Except Error α → Action (Noted σ ι ε) β}
    {post : Except Error β → List (Note ι ε) → Prop}
    (adds : Adds first (fun outcome new =>
      Adds (second outcome) (fun last more => post last (new ++ more)) (first t).2) t) :
    Adds (first.attempt >>= second) post t := by
  obtain ⟨new, notes, addsSecond⟩ := adds
  refine Adds.bind ⟨new, notes, nofun, ?_⟩
  rintro _ ⟨⟩
  exact addsSecond

end Rules

/-- A call that failed for its context, before which none did, and after which there were only
rollbacks. -/
def Halted (e : Error) (notes : List (Note ι ε)) : Prop :=
  ∃ before request after, notes = before ++ .call request (some e) :: after ∧
    (Note.call request (some e) : Note ι ε).Stops ∧ (∀ note ∈ before, ¬ note.Stops) ∧
    ∀ note ∈ after, note.RollsBack

/-- While its context was found to be live, an action either met no failure of a context and did not
fail so, or it failed as the first call that met one. -/
def Heeded (outcome : Except Error α) (notes : List (Note ι ε)) : Prop :=
  (∀ note ∈ notes, note.Live) →
    ((∀ note ∈ notes, ¬ note.Stops) ∧ Tolerable outcome) ∨ ∃ e, Halted e notes ∧ outcome = .error e

section Heeded

variable {notes more : List (Note ι ε)} {e : Error}

theorem Halted.append_left (halted : Halted e more) (clear : ∀ note ∈ notes, ¬ note.Stops) :
    Halted e (notes ++ more) := by
  obtain ⟨before, request, after, rfl, stops, clearBefore, rollbacks⟩ := halted
  refine ⟨notes ++ before, request, after, by simp, stops, ?_, rollbacks⟩
  exact List.forall_mem_append.mpr ⟨clear, clearBefore⟩

theorem Halted.append_right (halted : Halted e notes) (rollbacks : ∀ note ∈ more, note.RollsBack) :
    Halted e (notes ++ more) := by
  obtain ⟨before, request, after, rfl, stops, clearBefore, rollbacksAfter⟩ := halted
  refine ⟨before, request, after ++ more, by simp, stops, clearBefore, ?_⟩
  exact List.forall_mem_append.mpr ⟨rollbacksAfter, rollbacks⟩

theorem Halted.isContext (halted : Halted e notes) : e.isContext = true := by
  obtain ⟨_, _, _, -, stops, -, -⟩ := halted
  exact stops.2

/-- The call that failed for its context is the only one that did. -/
theorem Halted.eq_of_stops (halted : Halted e notes) {before after : List (Note ι ε)}
    {request : Request ι ε} {failed : Error}
    (split : notes = before ++ .call request (some failed) :: after)
    (stops : (Note.call request (some failed) : Note ι ε).Stops) :
    failed = e ∧ ∀ note ∈ after, note.RollsBack := by
  obtain ⟨earlier, call, later, rfl, -, clear, rollbacks⟩ := halted
  rcases List.append_eq_append_iff.mp split with ⟨between, rfl, same⟩ | ⟨between, rfl, same⟩
  · cases between with
    | nil =>
        cases same
        exact ⟨rfl, rollbacks⟩
    | cons first between =>
        cases same
        exact absurd stops (rollbacks _ (by simp)).not_stops
  · cases between with
    | nil =>
        cases same
        exact ⟨rfl, rollbacks⟩
    | cons first between =>
        cases same
        exact absurd stops (clear _ (by simp))

/-- Where nothing failed for its context in the end, no call did. -/
theorem Heeded.clear {outcome : Except Error α} (heeded : Heeded outcome notes)
    (tolerable : Tolerable outcome) (live : ∀ note ∈ notes, note.Live) :
    ∀ note ∈ notes, ¬ note.Stops := by
  rcases heeded live with ⟨clear, -⟩ | ⟨e, halted, failed⟩
  · exact clear
  · cases halted.isContext.symm.trans (tolerable e failed)

/-- What did not fail for its context may be taken to have ended in any other such way. -/
theorem Heeded.tolerated {outcome : Except Error α} {last : Except Error β}
    (heeded : Heeded outcome notes) (tolerable : Tolerable outcome)
    (tolerableLast : Tolerable last) : Heeded last notes :=
  fun live => .inl ⟨heeded.clear tolerable live, tolerableLast⟩

theorem heeded_nil {outcome : Except Error α} (tolerable : Tolerable outcome) :
    Heeded outcome ([] : List (Note ι ε)) :=
  fun _ => .inl ⟨List.forall_mem_nil _, tolerable⟩

theorem Heeded.append {outcome : Except Error α} (heeded : Heeded outcome more)
    (clear : ∀ note ∈ notes, ¬ note.Stops) : Heeded outcome (notes ++ more) := by
  intro live
  rcases heeded (List.forall_mem_append.mp live).2 with
    ⟨clearMore, tolerable⟩ | ⟨e, halted, failed⟩
  · exact .inl ⟨List.forall_mem_append.mpr ⟨clear, clearMore⟩, tolerable⟩
  · exact .inr ⟨e, halted.append_left clear, failed⟩

/-- What follows an action that succeeded is heeded after it if it is heeded alone. -/
theorem Heeded.append_of_ok {value : α} {last : Except Error β}
    (heeded : Heeded (.ok value : Except Error α) notes) (heededMore : Heeded last more) :
    Heeded last (notes ++ more) := by
  intro live
  have clear := heeded.clear (tolerable_ok value) (List.forall_mem_append.mp live).1
  exact heededMore.append clear live

/-- A failure that is passed on is heeded, also after rollbacks. -/
theorem Heeded.append_of_error (heeded : Heeded (.error e : Except Error α) notes)
    (rollbacks : ∀ note ∈ more, note.RollsBack) :
    Heeded (.error e : Except Error β) (notes ++ more) := by
  intro live
  rcases heeded (List.forall_mem_append.mp live).1 with
    ⟨clear, tolerable⟩ | ⟨_, halted, same⟩
  · refine .inl ⟨List.forall_mem_append.mpr ⟨clear, ?_⟩, tolerable_error (tolerable e rfl)⟩
    exact fun note member => (rollbacks note member).not_stops
  · cases same
    exact .inr ⟨e, halted.append_right rollbacks, rfl⟩

/-- A single call is heeded by ending as it does. -/
theorem heeded_calling (request : Request ι ε) (notRollback : request.isRollback = false)
    (outcome : Except Error α) : Heeded outcome (calling request outcome) := by
  intro _
  cases outcome with
  | ok value => exact .inl ⟨List.forall_mem_singleton.mpr id, tolerable_ok value⟩
  | error e =>
      cases context : e.isContext with
      | true =>
          refine .inr ⟨e, ⟨[], request, [], rfl, ⟨notRollback, context⟩, ?_, ?_⟩, rfl⟩
          all_goals exact List.forall_mem_nil _
      | false =>
          refine .inl ⟨List.forall_mem_singleton.mpr fun stops => ?_, tolerable_error context⟩
          cases context.symm.trans stops.2

end Heeded

/-- No source was asked, and nothing was to be stored. -/
def Quiet (notes : List (Note ι ε)) : Prop :=
  ∀ note ∈ notes, ¬ note.Asks ∧ ¬ note.Writes

theorem quiet_nil : Quiet ([] : List (Note ι ε)) := List.forall_mem_nil _

theorem Quiet.append {notes more : List (Note ι ε)} (quiet : Quiet notes) (quietMore : Quiet more) :
    Quiet (notes ++ more) :=
  List.forall_mem_append.mpr ⟨quiet, quietMore⟩

/-- An action that heeds its calls, asks no source and stores nothing. -/
def Heeds (action : Action (Noted σ ι ε) α) : Prop :=
  ∀ t, Adds action (fun outcome new => Heeded outcome new ∧ Quiet new) t

section Heeds

/-- The clock and the recorder of a backend do not fail. -/
structure Backend.Steady (backend : Backend σ ι ε) : Prop where
  record : ∀ event s, (backend.record event s).1 = .ok ()
  now : ∀ s, ∃ timestamp, (backend.now s).1 = .ok timestamp

theorem heeds_liftM {result : Except Error α} (tolerable : Tolerable result) :
    Heeds (liftM result : Action (Noted σ ι ε) α) :=
  fun _ => adds_liftM ⟨heeded_nil tolerable, quiet_nil⟩

theorem heeds_pure (value : α) : Heeds (Pure.pure value : Action (Noted σ ι ε) α) :=
  heeds_liftM (tolerable_ok value)

theorem quiet_calling (request : Request ι ε) (notWrites : request.writes = false)
    (outcome : Except Error α) : Quiet (calling request outcome) := by
  refine List.forall_mem_singleton.mpr ⟨id, fun writes => ?_⟩
  cases notWrites.symm.trans writes

/-- A call that stores nothing heeds itself. -/
theorem heeds_call (request : Request ι ε) (notRollback : request.isRollback = false)
    (notWrites : request.writes = false) (action : Action σ α) :
    Heeds (action.noted (calling request)) :=
  fun _ => adds_noted ⟨heeded_calling request notRollback _, quiet_calling request notWrites _⟩

theorem heeds_check {check : Action σ Unit} :
    Heeds (check.noted fun outcome => [(.check (failure outcome) : Note ι ε)]) := by
  intro t
  refine adds_noted ⟨fun live => ?_, List.forall_mem_singleton.mpr ⟨id, id⟩⟩
  generalize (check t.state).1 = outcome at live
  cases outcome with
  | ok _ => exact .inl ⟨List.forall_mem_singleton.mpr id, tolerable_ok ()⟩
  | error e => exact (List.forall_mem_singleton.mp live).elim

theorem Heeds.bind {first : Action (Noted σ ι ε) α} {second : α → Action (Noted σ ι ε) β}
    (atFirst : Heeds first) (atSecond : ∀ value, Heeds (second value)) :
    Heeds (first >>= second) := by
  intro t
  refine Adds.bind ((atFirst t).weaken ?_)
  rintro outcome new ⟨heeded, quiet⟩
  constructor
  · rintro e rfl
    have passed : Heeded (.error e : Except Error β) (new ++ []) :=
      heeded.append_of_error (List.forall_mem_nil _)
    rw [List.append_nil] at passed
    exact ⟨passed, quiet⟩
  · rintro value rfl
    refine (atSecond value _).weaken ?_
    rintro last more ⟨heededMore, quietMore⟩
    exact ⟨heeded.append_of_ok heededMore, quiet.append quietMore⟩

theorem Heeds.each {action : α → Action (Noted σ ι ε) Unit} (heeds : ∀ item, Heeds (action item))
    (items : List α) : Heeds (Action.each action items) := by
  induction items with
  | nil => exact heeds_pure ()
  | cons item items inductionHypothesis => exact (heeds item).bind fun _ => inductionHypothesis

variable {backend : Backend σ ι ε} {ctx : Context}

theorem Backend.Steady.heeds_record (steady : backend.Steady) (event : Event) :
    Heeds (backend.watched.record event) := by
  intro t
  refine adds_noted ⟨heeded_nil ?_, quiet_nil⟩
  rw [steady.record]
  exact tolerable_ok ()

/-- A transaction heeds its calls if the work in it does: however its rollback ends, it fails as the
work did. -/
theorem Heeds.transact {work : Context → Action (Noted σ ι ε) Unit}
    (works : ∀ inner, Heeds (work inner)) : Heeds (backend.watched.transact ctx work) := by
  have begins : Heeds (backend.watched.begin ctx) := heeds_call .begin rfl rfl _
  refine begins.bind fun inner t => Adds.attempt_bind ((works inner t).weaken ?_)
  rintro outcome new ⟨heeded, quiet⟩
  cases outcome with
  | ok _ =>
      have commits : Heeds (backend.watched.commit inner) := heeds_call .commit rfl rfl _
      refine (commits _).weaken ?_
      rintro last more ⟨heededMore, quietMore⟩
      exact ⟨heeded.append_of_ok heededMore, quiet.append quietMore⟩
  | error e =>
      refine Adds.attempt_bind (adds_noted (adds_fail ?_))
      rw [List.append_nil]
      refine ⟨heeded.append_of_error ?_, quiet.append (quiet_calling .rollback rfl _)⟩
      exact List.forall_mem_singleton.mpr rfl

section Removals

open Invalidation

theorem heeds_dropHit (steady : backend.Steady)
    {removeEntity : Context → ι → Action (Noted σ ι ε) Unit}
    (removes : ∀ id, Heeds (removeEntity ctx id)) (queryId : String) :
    Heeds (dropHit backend.watched removeEntity queryId ctx) := by
  refine heeds_check.bind fun _ => (heeds_call (.findHit queryId) rfl rfl _).bind fun found => ?_
  cases found with
  | none => exact heeds_pure ()
  | some hit =>
      refine (heeds_call (.deleteHit queryId) rfl rfl _).bind fun _ => ?_
      refine (steady.heeds_record _).bind fun _ => Heeds.each (fun id => ?_) _
      exact heeds_check.bind fun _ => removes id

variable [DecidableEq ι]

theorem heeds_dropEntity {removeHit : Context → String → Action (Noted σ ι ε) Unit}
    (removes : ∀ key, Heeds (removeHit ctx key)) (id : ι) :
    Heeds (dropEntity backend.watched removeHit id ctx) := by
  refine heeds_check.bind fun _ => ?_
  refine (heeds_liftM (backend.schema.tolerable_findByIdKey id)).bind fun key => ?_
  refine (removes key).bind fun _ => heeds_check.bind fun _ => ?_
  refine (heeds_call .findHits rfl rfl _).bind fun hits => ?_
  refine Heeds.bind (Heeds.each (fun queryId => ?_) _) fun _ => ?_
  · exact heeds_check.bind fun _ => removes queryId
  · refine heeds_check.bind fun _ => (heeds_call (.findEntity id) rfl rfl _).bind fun found => ?_
    split
    · exact heeds_call (.deleteEntity id) rfl rfl _
    · exact heeds_pure ()

/-- However deeply invalidations nest, they heed their calls. -/
theorem heeds_hitWithin (steady : backend.Steady) (depth : Nat) (ctx : Context) (queryId : String) :
    Heeds (hitWithin backend.watched depth ctx queryId) := by
  induction depth generalizing ctx queryId with
  | zero => exact heeds_liftM (tolerable_error rfl)
  | succ depth inductionHypothesis =>
      refine Heeds.transact fun inner => heeds_dropHit steady (fun id => ?_) queryId
      refine Heeds.transact fun innermost => heeds_dropEntity (fun key => ?_) id
      exact inductionHypothesis innermost key

theorem heeds_invalidateQuery (steady : backend.Steady) (queryId : String) :
    Heeds (backend.watched.invalidateQuery ctx queryId) :=
  fun t => heeds_hitWithin steady (backend.watched.nesting t) ctx queryId t

end Removals

end Heeds

end Watched

end QueryCache
