import QueryCache.Engine.Query
import QueryCache.Proofs.Attainment
import QueryCache.Proofs.Creations

/-!
# Revisions

What the operations of a cache do to the committed rows, however the backend is hindered and however
the operations end. `Revised` is the list of all that can become of a view: copies are stored, a hit
is recorded when all that it lists is copied, and hits and copies are removed so that what is still
listed keeps its copy. Every operation outside of transactions makes a sequence of these revisions
and no other change (`Revises`); a query records hits of its own text only, and an operation that is
no query records none. A deletion that succeeded, besides, left nothing of what it deleted.
-/

namespace QueryCache

open QueryCache.Action Wire

/-- Revisions of a view, in which hits are recorded of certain queries only. -/
inductive Revised {ι ε : Type} (schema : Schema ι ε) (may : String → Prop) : View → View → Prop
  | refl (view : View) : Revised schema may view view
  | copied {earlier middle : View} {copies : Rows} (before : Revised schema may earlier middle)
      (grows : ∀ key : String, middle.copies[key]?.isSome → copies[key]?.isSome) :
      Revised schema may earlier { middle with copies }
  | recorded {earlier middle : View} {hit : Hit ι} {bytes : Bytes}
      (before : Revised schema may earlier middle) (allowed : may hit.queryId)
      (encoded : schema.encodeHit hit = .ok bytes)
      (copied : ∀ id ∈ hit.entityIds,
        ∃ place, schema.entityKey id = .ok place ∧ middle.copies[place]?.isSome) :
      Revised schema may earlier { middle with hits := middle.hits.insert hit.queryId bytes }
  | trimmed {earlier middle later : View} (before : Revised schema may earlier middle)
      (trims : Trims schema middle later) : Revised schema may earlier later

/-- Every entity that a hit of a view lists has a copy in it. -/
def View.Intact {ι ε : Type} (schema : Schema ι ε) (view : View) : Prop :=
  ∀ key hit, view.hits.Hold schema key hit → ∀ id ∈ hit.entityIds,
    ∃ place, schema.entityKey id = .ok place ∧ view.copies[place]?.isSome

namespace Revised

variable {ι ε : Type} {schema : Schema ι ε} {may : String → Prop} {earlier later : View}

instance : IsPreorder View (Revised schema may) where
  refl := .refl
  trans _ _ _ first second := by
    induction second with
    | refl => exact first
    | copied _ grows inductionHypothesis => exact .copied inductionHypothesis grows
    | recorded _ allowed encoded copied inductionHypothesis =>
        exact .recorded inductionHypothesis allowed encoded copied
    | trimmed _ trims inductionHypothesis => exact .trimmed inductionHypothesis trims

/-- Revisions keep every listed entity copied, if hits are read back with what they list. -/
theorem intact (readsBack : schema.ReadsBack) (revised : Revised schema may earlier later)
    (intact : earlier.Intact schema) : later.Intact schema := by
  induction revised with
  | refl => exact intact
  | copied _ grows inductionHypothesis =>
      intro key hit held id lists
      obtain ⟨place, placed, present⟩ := inductionHypothesis key hit held id lists
      exact ⟨place, placed, grows place present⟩
  | recorded _ _ encoded copied inductionHypothesis =>
      intro key hit held id lists
      rcases Rows.hold_insert held with ⟨-, decoded⟩ | held
      · rw [Schema.entityIds_of_decodeHit readsBack encoded decoded] at lists
        exact copied id lists
      · exact inductionHypothesis key hit held id lists
  | trimmed _ trims inductionHypothesis =>
      intro key hit held id lists
      obtain ⟨place, placed, present⟩ :=
        inductionHypothesis key hit (trims.sub.hits.hold held) id lists
      exact ⟨place, placed, trims.kept key hit held id lists place placed present⟩

/-- A hit of a query of which none may be recorded was there before. -/
theorem hold (revised : Revised schema may earlier later) {key : String} {hit : Hit ι}
    (notAllowed : ¬ may key) (held : later.hits.Hold schema key hit) :
    earlier.hits.Hold schema key hit := by
  induction revised with
  | refl => exact held
  | copied _ _ inductionHypothesis => exact inductionHypothesis held
  | recorded _ allowed _ _ inductionHypothesis =>
      rcases Rows.hold_insert held with ⟨rfl, -⟩ | held
      · exact absurd allowed notAllowed
      · exact inductionHypothesis held
  | trimmed _ trims inductionHypothesis => exact inductionHypothesis (trims.sub.hits.hold held)

end Revised

/-- A table outside of transactions that has lost no row. -/
def Table.Grows (before after : Table) : Prop :=
  ∀ key : String, before.rows[key]?.isSome → after.rows[key]?.isSome

instance : IsPreorder Table Table.Grows where
  refl _ _ present := present
  trans _ _ _ first second key present := second key (first key present)

theorem Table.grows_put (key : String) (bytes : Bytes) :
    (Table.put none key bytes).Along Table.Grows := by
  intro table other present
  change (table.rows.insert key bytes)[other]?.isSome
  rw [Std.ExtTreeMap.getElem?_insert]
  split
  · rfl
  · exact present

namespace Entities

variable {ι ε : Type} (schema : Schema ι ε) (signals : Signals) {ctx : Context}
  (outside : ctx.tx = none)
include outside

theorem grows_create (entity : ε) : (create schema signals ctx entity).Along Table.Grows := by
  refine (along_precheck signals ctx).bind fun _ => (along_liftM _).bind fun key => ?_
  refine (along_row ctx key).bind fun found => ?_
  split
  · exact along_fail _
  · rw [outside]
    exact (along_liftM _).bind fun bytes => Table.grows_put key bytes

theorem grows_update (entity : ε) : (update schema signals ctx entity).Along Table.Grows := by
  refine (along_precheck signals ctx).bind fun _ => (along_liftM _).bind fun key => ?_
  refine (along_row ctx key).bind fun found => ?_
  split
  · exact along_fail _
  · rw [outside]
    exact (along_liftM _).bind fun bytes => Table.grows_put key bytes

theorem grows_upsert (entities : List ε) :
    (upsert schema signals ctx entities).Along Table.Grows := by
  refine (along_precheck signals ctx).bind fun _ => Along.each fun entity _ => ?_
  rw [store, outside]
  exact (along_liftM _).bind fun key => (along_liftM _).bind fun bytes => Table.grows_put key bytes

end Entities

namespace Repository

/-- What is seen outside of transactions. -/
def committed (repository : Repository) : View :=
  ⟨repository.hits.rows, repository.entities.rows⟩

theorem seen_outside (repository : Repository) : repository.seen none = .ok repository.committed :=
  rfl

theorem Untouched.committed_eq {before after : Repository} (untouched : before.Untouched after) :
    after.committed = before.committed := by
  rw [committed, committed, untouched.hitRows, untouched.entityRows]

end Repository

namespace Backend

open Repository

variable {σ ι ε α : Type} {backend : Backend σ ι ε} {part : σ → Repository}
  {may : String → Prop} {ctx : Context} {s : σ}

/-- From a state with a sound repository, one comes to a sound repository whose committed rows are
revised. -/
def Revises (backend : Backend σ ι ε) (part : σ → Repository) (may : String → Prop) (s t : σ) :
    Prop :=
  (part s).Sound backend.schema → (part t).Sound backend.schema ∧
    Revised backend.schema may (part s).committed (part t).committed

theorem revises_of_eq {t : σ} (same : part t = part s) : backend.Revises part may s t := by
  intro sound
  rw [same]
  exact ⟨sound, .refl _⟩

instance : IsPreorder σ (backend.Revises part may) where
  refl _ := revises_of_eq rfl
  trans _ _ _ first second sound := by
    obtain ⟨soundMiddle, toMiddle⟩ := first sound
    obtain ⟨soundLast, onward⟩ := second soundMiddle
    exact ⟨soundLast, IsTrans.trans _ _ _ toMiddle onward⟩

/-- What an action that succeeds outside of transactions has attained shows in what is committed. -/
theorem Attains.outside {action : Action σ α} {post : α → View → Prop}
    (attains : backend.Attains part ctx (part s).committed action post) (outside : ctx.tx = none)
    (sound : (part s).Sound backend.schema) {value : α} (succeeds : (action s).1 = .ok value) :
    (part (action s).2).Sound backend.schema ∧ post value (part (action s).2).committed := by
  have shown : (part s).seen ctx.tx = .ok (part s).committed := outside ▸ seen_outside _
  obtain ⟨soundLater, later, shownLater, holds⟩ := attains s value sound shown succeeds
  rw [outside, seen_outside] at shownLater
  exact ⟨soundLater, Except.ok.inj shownLater ▸ holds⟩

/-- What a backend has besides its stores leaves the repository alone: its source and its clock. -/
structure Apart (backend : Backend σ ι ε) (part : σ → Repository) : Prop where
  findById : ∀ ctx id s, part (backend.source.findById ctx id s).2 = part s
  create : ∀ create, backend.source.create = some create →
    ∀ ctx entity s, part (create ctx entity s).2 = part s
  update : ∀ update, backend.source.update = some update →
    ∀ ctx entity s, part (update ctx entity s).2 = part s
  deleteById : ∀ delete, backend.source.deleteById = some delete →
    ∀ ctx id s, part (delete ctx id s).2 = part s
  deleteAll : ∀ delete, backend.source.deleteAll = some delete →
    ∀ ctx s, part (delete ctx s).2 = part s
  findAll : ∀ findAll, backend.source.findAll = some findAll →
    ∀ ctx s, part (findAll ctx s).2 = part s
  now : ∀ s, part (backend.now s).2 = part s

theorem attains_idle {action : Action σ α} {view : View} (idle : ∀ s, part (action s).2 = part s) :
    backend.Attains part ctx view action fun _ later => True ∧ later = view := by
  intro s value sound shown _
  rw [idle]
  exact ⟨sound, view, shown, trivial, rfl⟩

theorem require_eq_ok {capability : Capability} {offered : Option α} {able : α}
    (required : require capability offered = .ok able) : offered = some able := by
  cases offered with
  | none => cases required
  | some offer => exact congrArg some (Except.ok.inj required)

namespace Hindered

variable (hindered : backend.Hindered part)
include hindered

theorem revises_check : (backend.check ctx).Along (backend.Revises part may) :=
  fun s => revises_of_eq (hindered.check ctx s)

theorem revises_record (event : Event) :
    (backend.record event).Along (backend.Revises part may) :=
  fun s => revises_of_eq (hindered.record event s)

theorem revises_tolerate (label : String) (e : Error) :
    (backend.tolerate label e).Along (backend.Revises part may) :=
  fun s => revises_of_eq (hindered.tolerate label e s)

/-- Storing copies revises what is committed, whether it succeeds or not. -/
theorem revises_copying (request : Request ι ε) {direct : Signals → Action Table Unit}
    (same : ∀ listing signals, (Repository.storesIn backend.schema listing signals).perform ctx
      request = (onEntities (direct signals)).map fun () => .done)
    (grows : ∀ signals, (direct signals).Along Table.Grows) :
    (backend.stores.perform ctx request).Along (backend.Revises part may) := by
  intro s sound
  rcases hindered.request ctx request s with ⟨-, left⟩ | ⟨listing, signals, -, left⟩
  · exact revises_of_eq left sound
  · refine ⟨left ▸ sound.perform request, ?_⟩
    rw [left, same]
    exact .copied (.refl _) (grows signals (part s).entities)

section Outside

variable (outside : ctx.tx = none)
include outside

theorem revises_upsert (entities : List ε) :
    (backend.entities.upsert ctx entities).Along (backend.Revises part may) :=
  hindered.revises_copying (.upsertEntities entities) (fun _ _ => rfl)
    fun signals => Entities.grows_upsert backend.schema signals outside entities

/-- A hit may be recorded where all that it lists is copied. -/
theorem revises_createHit {hit : Hit ι} (allowed : may hit.queryId)
    (copied : ∀ id ∈ hit.entityIds, ∃ place, backend.schema.entityKey id = .ok place ∧
      (part s).committed.copies[place]?.isSome) :
    backend.Revises part may s (backend.hits.create ctx hit s).2 := by
  intro sound
  cases outcome : (backend.hits.create ctx hit s).1 with
  | error e =>
      have refused : (backend.stores.perform ctx (.createHit hit) s).1 = .error e :=
        map_eq_error_iff.mpr outcome
      exact revises_of_eq (hindered.perform_of_error
        (fun _ _ => failsClean_perform rfl rfl) refused) sound
  | ok _ =>
      obtain ⟨soundLater, bytes, encoded, later⟩ :=
        (hindered.attains_createHit hit).outside outside sound outcome
      refine ⟨soundLater, ?_⟩
      rw [later]
      exact .recorded (.refl _) allowed encoded copied

/-- Remembering an answer: its copies are stored before its hit is, and no hit is stored unless all
of them were. -/
theorem revises_remember (apart : backend.Apart part) {key : String} (allowed : may key)
    (entities : List ε) :
    (backend.remember ctx key entities).Along (backend.Revises part may) := by
  intro s sound
  have upsert : (backend.entities.upsert ctx entities).attempt.Along (backend.Revises part may) :=
    (hindered.revises_upsert outside entities).attempt
  refine related_bind (upsert s) (fun outcome ended => ?_) sound
  rw [attempt_apply, Except.ok.injEq] at ended
  cases outcome with
  | error e => exact hindered.revises_tolerate key e _
  | ok _ =>
      obtain ⟨-, stored⟩ := (hindered.attains_upsert entities).outside outside sound ended
      rw [attempt_apply]
      generalize (backend.entities.upsert ctx entities s).2 = middle at stored
      refine related_bind (revises_of_eq (apart.now middle)) fun timestamp _ => ?_
      refine related_bind (hindered.revises_createHit outside allowed ?_) fun outcome _ => ?_
      · intro id lists
        obtain ⟨entity, member, rfl⟩ := List.mem_map.mp lists
        rw [apart.now]
        exact stored.copied entity member
      · cases outcome with
        | error e => exact hindered.revises_tolerate key e _
        | ok _ => exact along_pure () _

/-- A removal that failed touched nothing, and one that succeeded trimmed what is committed. -/
theorem revises_remove [DecidableEq ι] (distinct : backend.schema.Distinct) (removal : Removal ι) :
    (backend.remove ctx removal).Along (backend.Revises part may) := by
  intro s sound
  obtain ⟨guided, untouched⟩ :=
    hindered.settled_remove False.elim ctx removal sound
  have trims : backend.Attains part ctx (part s).committed (backend.remove ctx removal)
      fun _ later => Trims backend.schema (part s).committed later := by
    cases removal with
    | entity id => exact (hindered.attains_invalidateEntity distinct id).weaken fun _ _ => And.left
    | query key => exact (hindered.attains_invalidateQuery distinct key).weaken fun _ _ => And.left
    | all =>
        refine hindered.attains_dropAll.weaken ?_
        rintro _ _ rfl
        exact .empty _
  refine ⟨guided.sound, ?_⟩
  cases outcome : (backend.remove ctx removal s).1 with
  | error e =>
      rw [(untouched e outcome).committed_eq]
      exact .refl _
  | ok _ =>
      obtain ⟨-, trimmed⟩ := trims.outside outside sound outcome
      exact .trimmed (.refl _) trimmed

omit outside in
theorem revises_bypass (label : String) (e : Error) {query : Action σ α}
    (idle : ∀ s, part (query s).2 = part s) :
    (backend.bypass label e query).Along (backend.Revises part may) :=
  (hindered.revises_tolerate label e).bind fun _ s => revises_of_eq (idle s)

section Queries

variable (apart : backend.Apart part)
include apart

theorem revises_ask {key : String} (allowed : may key) {query : Action σ (List ε)}
    (idle : ∀ s, part (query s).2 = part s) :
    (backend.ask ctx key query).Along (backend.Revises part may) := by
  refine Along.bind (fun s => revises_of_eq (idle s)) fun entities => ?_
  refine (hindered.revises_record _).bind fun _ => ?_
  exact (hindered.revises_remember outside apart allowed entities).bind fun _ =>
    along_pure entities

variable [DecidableEq ι] (distinct : backend.schema.Distinct)
include distinct

theorem revises_replay {key : String} (allowed : may key) (hit : Hit ι)
    {query : Action σ (List ε)} (idle : ∀ s, part (query s).2 = part s) :
    (backend.replay ctx key hit query).Along (backend.Revises part may) := by
  have find : (backend.entities.findByIds ctx hit.entityIds).Along (backend.Revises part may) :=
    fun s => revises_of_eq (hindered.perform_of_reads (.findEntities hit.entityIds) rfl)
  have remove : (backend.invalidateQuery ctx key).Along (backend.Revises part may) :=
    hindered.revises_remove outside distinct (.query key)
  refine find.attempt.bind fun found => ?_
  split
  · exact (hindered.revises_record _).bind fun _ => along_pure _
  · refine remove.attempt.bind fun outcome => ?_
    split
    · exact hindered.revises_ask outside apart allowed idle
    · exact hindered.revises_bypass _ _ idle
  · exact hindered.revises_bypass _ _ idle

theorem revises_queryMany {key : String} (allowed : may key) {query : Action σ (List ε)}
    (idle : ∀ s, part (query s).2 = part s) :
    (backend.queryMany ctx key query).Along (backend.Revises part may) := by
  have find : (backend.hits.findById ctx key).Along (backend.Revises part may) :=
    fun s => revises_of_eq (hindered.perform_of_reads (.findHit key) rfl)
  refine hindered.revises_check.bind fun _ => find.attempt.bind fun found => ?_
  split
  · exact hindered.revises_replay outside apart distinct allowed _ idle
  · exact hindered.revises_ask outside apart allowed idle
  · exact hindered.revises_bypass _ _ idle

theorem revises_queryOne {key : String} (allowed : may key) {query : Action σ (Option ε)}
    (idle : ∀ s, part (query s).2 = part s) :
    (backend.queryOne ctx key query).Along (backend.Revises part may) := by
  have idleList s : part ((do return (← query).toList : Action σ (List ε)) s).2 = part s := by
    rw [bind_pure_snd query Option.toList, idle]
  exact (hindered.revises_queryMany outside apart distinct allowed idleList).bind fun _ =>
    along_pure _

theorem revises_findById {id : ι}
    (allowed : ∀ key, backend.schema.findByIdKey id = .ok key → may key) :
    (backend.findById ctx id).Along (backend.Revises part may) := by
  have find : (backend.entities.findById ctx id).Along (backend.Revises part may) :=
    fun s => revises_of_eq (hindered.perform_of_reads (.findEntity id) rfl)
  refine hindered.revises_check.bind fun _ => find.attempt.bind fun found => ?_
  split
  · exact along_pure _
  · refine Along.bind_liftM fun key named => ?_
    exact hindered.revises_queryOne outside apart distinct (allowed key named)
      (apart.findById ctx id)
  · exact hindered.revises_bypass _ _ (apart.findById ctx id)

theorem revises_findAll (allowed : may QueryKey.findAll.encode) :
    (backend.findAll ctx).Along (backend.Revises part may) := by
  refine hindered.revises_check.bind fun _ => Along.bind_liftM fun findAll required => ?_
  exact hindered.revises_queryMany outside apart distinct allowed
    (apart.findAll findAll (require_eq_ok required) ctx)

end Queries

section Changes

variable (apart : backend.Apart part)
include apart

theorem revises_create (entity : ε) (s : σ) :
    backend.Revises part may s (backend.create ctx entity s).2 := by
  have copyNew (stored : ε) : (backend.copyNew ctx stored).Along (backend.Revises part may) := by
    have store : (backend.entities.create ctx stored).Along (backend.Revises part may) :=
      hindered.revises_copying (.createEntity stored) (fun _ _ => rfl)
        fun signals => Entities.grows_create backend.schema signals outside stored
    refine store.attempt.bind fun outcome => ?_
    split
    · exact along_pure ()
    · exact hindered.revises_tolerate _ _
  have checked : backend.Revises part may s (backend.check ctx s).2 := hindered.revises_check s
  have goes := backend.creates_create ctx entity s
  generalize backend.create ctx entity s = ended at goes ⊢
  cases goes with
  | stopped check | unoffered check =>
      rw [check] at checked
      exact checked
  | @refused middle create _ _ _ check offered created =>
      rw [check] at checked
      have idle := apart.create create offered ctx entity middle
      rw [created] at idle
      exact IsTrans.trans _ _ _ checked (revises_of_eq idle)
  | @made middle create stored done _ _ check offered created copied =>
      rw [check] at checked
      have idle := apart.create create offered ctx entity middle
      rw [created] at idle
      have copies := copyNew stored done
      rw [copied] at copies
      exact IsTrans.trans _ _ _ checked (IsTrans.trans _ _ _ (revises_of_eq idle) copies)

variable [DecidableEq ι] (distinct : backend.schema.Distinct)
include distinct

theorem revises_update (entity : ε) :
    (backend.update ctx entity).Along (backend.Revises part may) := by
  have store : (backend.entities.update ctx entity).Along (backend.Revises part may) :=
    hindered.revises_copying (.updateEntity entity) (fun _ _ => rfl)
      fun signals => Entities.grows_update backend.schema signals outside entity
  have remove : (backend.invalidateEntity ctx (backend.schema.idOf entity)).Along
      (backend.Revises part may) :=
    hindered.revises_remove outside distinct (.entity _)
  refine hindered.revises_check.bind fun _ => Along.bind_liftM fun update required => ?_
  have idle := apart.update update (require_eq_ok required) ctx entity
  refine Along.bind (fun s => revises_of_eq (idle s)) fun _ => store.attempt.bind fun outcome => ?_
  split
  · exact along_pure ()
  · exact (hindered.revises_tolerate _ _).bind fun _ => remove

theorem revises_deleteById (id : ι) :
    (backend.deleteById ctx id).Along (backend.Revises part may) := by
  refine hindered.revises_check.bind fun _ => Along.bind_liftM fun delete required => ?_
  have idle := apart.deleteById delete (require_eq_ok required) ctx id
  refine Along.bind (fun s => revises_of_eq (idle s)) fun _ => ?_
  exact hindered.revises_remove outside distinct (.entity id)

theorem revises_deleteAll : (backend.deleteAll ctx).Along (backend.Revises part may) := by
  refine hindered.revises_check.bind fun _ => Along.bind_liftM fun delete required => ?_
  have idle := apart.deleteAll delete (require_eq_ok required) ctx
  refine Along.bind (fun s => revises_of_eq (idle s)) fun _ => ?_
  exact hindered.revises_remove outside distinct .all

end Changes

end Outside

section Deletions

variable (apart : backend.Apart part) {view : View}
include apart

/-- A deletion that succeeded left nothing of its entity. -/
theorem attains_deleteById [DecidableEq ι] (distinct : backend.schema.Distinct) (id : ι) :
    backend.Attains part ctx view (backend.deleteById ctx id) fun _ later =>
      Trims backend.schema view later ∧ Gone backend.schema id later := by
  refine hindered.attains_check.read fun _ _ => (attains_liftM _).read fun delete required => ?_
  refine (attains_idle (apart.deleteById delete (require_eq_ok required) ctx id)).read fun _ _ => ?_
  exact hindered.attains_invalidateEntity distinct id

theorem attains_deleteAll :
    backend.Attains part ctx view (backend.deleteAll ctx) fun _ later => later = ⟨∅, ∅⟩ := by
  refine hindered.attains_check.read fun _ _ => (attains_liftM _).read fun delete required => ?_
  refine (attains_idle (apart.deleteAll delete (require_eq_ok required) ctx)).read fun _ _ => ?_
  exact hindered.attains_dropAll

end Deletions

end Hindered

end Backend

end QueryCache
