import QueryCache.Proofs.Integrity

/-!
# What a successful write repairs

Whatever a cache came to store of an entity, and whatever calls fail meanwhile, a write of the
entity that succeeds sets it right: what is stored of it afterwards does not stand in the way of
what the source holds, so that a lookup without failures answers as the source.

A creation is the exception, where its copy is refused. It leaves what was stored before, and it may
leave an entity for which there is no query, although it can be stored: then the lookup fails.
-/

namespace QueryCache

open QueryCache.Action Wire

variable {ι ε : Type}

/-- Nothing is stored under the names of an identifier. -/
structure Uncached (schema : Schema ι ε) (id : ι) (view : View) : Prop where
  own : ∀ key, schema.findByIdKey id = .ok key → view.hits[key]? = none
  copy : ∀ key, schema.entityKey id = .ok key → view.copies[key]? = none

theorem Gone.uncached {schema : Schema ι ε} {id : ι} {view : View} (gone : Gone schema id view) :
    Uncached schema id view :=
  ⟨gone.own, gone.copy⟩

/-- There is a query for the entity of an identifier, if the entity can be stored. -/
def Schema.Queried (schema : Schema ι ε) (id : ι) : Prop :=
  ∀ place, schema.entityKey id = .ok place → ∃ key, schema.findByIdKey id = .ok key

/-- What is stored of an identifier does not hide what the source holds: there is nothing, and the
query can be asked, or the copy is the row. -/
def Agrees [DecidableEq ι] (schema : Schema ι ε) (rows : List ε) (id : ι) (view : View) : Prop :=
  (Uncached schema id view ∧ schema.Queried id) ∨
    ∃ key bytes entity, schema.entityKey id = .ok key ∧ view.copies[key]? = some bytes ∧
      schema.decode bytes = .ok entity ∧ Source.rowOf schema id rows = some entity

/-- An entity that can be stored is read back as it was. -/
def Schema.ReadsBackEntity (schema : Schema ι ε) (entity : ε) : Prop :=
  ∀ bytes, schema.encode entity = .ok bytes → schema.decode bytes = .ok entity

theorem Schema.Keeps.readsBackEntity {schema : Schema ι ε} {entity : ε}
    (keeps : schema.Keeps entity) : schema.ReadsBackEntity entity := by
  intro bytes encoded
  rw [Schema.Keeps, encoded] at keeps
  exact keeps

/-- A change of one entity. -/
inductive Write (ι ε : Type)
  | create (entity : ε)
  | update (entity : ε)
  | deleteById (id : ι)

/-- A write through a cache: how it ended, and of which identifier it was in the end. -/
def Backend.write {σ : Type} [DecidableEq ι] (backend : Backend σ ι ε) (ctx : Context) :
    Write ι ε → σ → (Except Error Unit × ι) × σ
  | .create entity, s =>
      let ((outcome, stored), s) := backend.create ctx entity s
      ((outcome, backend.schema.idOf stored), s)
  | .update entity, s =>
      let (outcome, s) := backend.update ctx entity s
      ((outcome, backend.schema.idOf entity), s)
  | .deleteById id, s =>
      let (outcome, s) := backend.deleteById ctx id s
      ((outcome, id), s)

namespace Simulation

variable {γ : Type} [DecidableEq ι] {setting : Setting γ ι ε}

section Lookup

variable {scene : Scene ε} {ctx : Context} {view : View} (passes : setting.gate.Passes)
  (encodes : ∀ entity, Tolerable (setting.schema.encode entity))
include passes encodes

theorem leads_upsert (entities : List ε) :
    Leads setting.schema scene ctx view (setting.backend.entities.upsert ctx entities)
      fun outcome later => Tolerable outcome ∧ later.hits = view.hits ∧
        Overlaid setting.schema entities view.copies later.copies ∧
        (outcome = .ok () → ∀ entity ∈ entities, ∃ place,
          setting.schema.entityKey (setting.schema.idOf entity) = .ok place ∧
            later.copies[place]?.isSome) := by
  obtain ⟨result, copies, tolerable, overlaid, placed, turns⟩ :=
    Entities.exists_turns_upsert setting.schema encodes entities
  have ends : Ends setting.schema scene ctx view (setting.backend.entities.upsert ctx entities)
      result { view with copies } := by
    refine leads_ask passes ?_
    apply ends_onEntities
    · exact Entities.along_upsert _ _ _ fun _ _ => Entities.allows_all _ _
    · exact turns
  apply ends.weaken
  rintro outcome _ ⟨rfl, rfl⟩
  exact ⟨tolerable, rfl, overlaid, placed⟩

omit encodes in
theorem leads_createHit (hit : Hit ι) :
    Leads setting.schema scene ctx view (setting.backend.hits.create ctx hit)
      fun outcome _ => Tolerable outcome := by
  obtain ⟨result, hits, tolerable, turns⟩ := Hits.exists_turns_create setting.schema hit
  have ends : Ends setting.schema scene ctx view (setting.backend.hits.create ctx hit)
      result { view with hits } := by
    refine leads_ask passes ?_
    apply ends_onHits
    · exact Hits.along_create _ _ _ (Hits.allows_legal _ _)
    · exact turns
  apply ends.weaken
  rintro outcome _ ⟨rfl, -⟩
  exact tolerable

/-- Where nothing fails, no answer is withheld because it cannot be remembered. -/
theorem ensures_remember_tolerable (key : String) (entities : List ε) :
    Ensures setting.schema scene ctx view (setting.backend.remember ctx key entities)
      fun _ _ => True := by
  refine Ensures.bind (leads_upsert passes encodes entities).attempt ?_
  rintro outcome between ⟨tolerable, -⟩
  cases outcome with
  | error e => exact (ends_tolerate (tolerable e rfl) key).ensures trivial
  | ok _ =>
      refine Ends.bind ends_now (Ensures.bind (leads_createHit passes _).attempt ?_)
      intro outcome later tolerable
      cases outcome with
      | error e => exact (ends_tolerate (tolerable e rfl) key).ensures trivial
      | ok _ => exact ensures_pure trivial

/-- A query of which no hit is stored answers as it does by itself. -/
theorem ensures_queryMany_of_absent {key : String} (absent : view.hits[key]? = none)
    {query : Action (World γ ε) (List ε)} {entities : List ε}
    (asks : Ends setting.schema scene ctx view query (.ok entities) view) :
    Ensures setting.schema scene ctx view (setting.backend.queryMany ctx key query)
      fun value _ => value = entities := by
  refine Ends.bind ends_check ?_
  refine Ends.bind ((ends_findHit passes key).to (told_of_absent absent)).attempt ?_
  refine Ends.bind asks (Ends.bind (ends_record _) ?_)
  refine Ensures.bind (ensures_remember_tolerable passes encodes key entities) ?_
  intro _ later _
  exact ensures_pure rfl

variable (healthy : scene.failure = none)
  (live : (setting.sourceContext scene.signals ctx).check scene.signals = .ok ())
include healthy live

/-- A lookup answers as the source where what is stored agrees with it. -/
theorem ensures_findById_of_agrees {id : ι} (agrees : Agrees setting.schema scene.rows id view) :
    Ensures setting.schema scene ctx view (setting.backend.findById ctx id)
      fun value _ => value = Source.rowOf setting.schema id scene.rows := by
  have asks view : Ends setting.schema scene ctx view _ _ _ :=
    ends_sourceFindById_of_live healthy live id
  refine Ends.bind ends_check ?_
  cases placed : setting.schema.entityKey id with
  | error e =>
      have find : Ends setting.schema scene ctx view (setting.backend.entities.findById ctx id)
          (.error e) view := ends_findEntity_of_unnamed passes placed
      refine Ends.bind find.attempt ?_
      refine Ends.bind (ends_tolerate (setting.schema.tolerable_entityKey id e placed) _) ?_
      exact (asks view).ensures rfl
  | ok place =>
      have find : Ends setting.schema scene ctx view (setting.backend.entities.findById ctx id)
          (told setting.schema.decode view.copies[place]?) view := ends_findEntity passes placed
      rcases agrees with ⟨uncached, queried⟩ | ⟨key, bytes, entity, named, present, decoded, isRow⟩
      · refine Ends.bind (find.to (told_of_absent (uncached.copy place placed))).attempt ?_
        obtain ⟨key, named⟩ := queried place placed
        refine Ends.bind (ends_liftM named) ?_
        have asksList : Ends setting.schema scene ctx view
            (do return (← setting.backend.source.findById ctx id).toList)
            (.ok (Source.rowOf setting.schema id scene.rows).toList) view :=
          (asks view).bind (ends_pure _)
        have absent := uncached.own key named
        refine Ensures.bind (ensures_queryMany_of_absent passes encodes absent asksList) ?_
        rintro _ later rfl
        refine ensures_pure ?_
        cases Source.rowOf setting.schema id scene.rows <;> rfl
      · cases placed.symm.trans named
        refine Ends.bind (find.to (told_of_present present decoded)).attempt ?_
        exact ensures_pure isRow.symm

omit encodes healthy live in
/-- The lookup of an entity of which nothing is stored fails where there is no query for it. -/
theorem ends_findById_of_unqueried {id : ι} (uncached : Uncached setting.schema id view)
    {place : String} (placed : setting.schema.entityKey id = .ok place) {e : Error}
    (unnamed : setting.schema.findByIdKey id = .error e) :
    Ends setting.schema scene ctx view (setting.backend.findById ctx id) (.error e) view := by
  have find : Ends setting.schema scene ctx view (setting.backend.entities.findById ctx id)
      (told setting.schema.decode view.copies[place]?) view := ends_findEntity passes placed
  refine Ends.bind ends_check ?_
  refine Ends.bind (find.to (told_of_absent (uncached.copy place placed))).attempt ?_
  refine Leads.bind (ends_liftM unnamed) ?_ ?_
  · rintro key _ ⟨impossible, -⟩
    cases impossible
  · rintro _ _ ⟨same, rfl⟩
    cases same
    exact ⟨rfl, rfl⟩

end Lookup

/-- Two worlds have the same source. -/
def SameSource (before after : World γ ε) : Prop := after.source = before.source

instance : IsPreorder (World γ ε) SameSource where
  refl _ := rfl
  trans _ _ _ first second := Eq.trans second first

omit [DecidableEq ι] in
/-- A call through the gate leaves the source alone if the call does. -/
theorem along_gated {α : Type} {gate : Gate γ ι} {method : Method} {queryId : Option String}
    {ctx : Context} {nothing : α} {call : Context → Action (World γ ε) α}
    (alone : ∀ ctx, (call ctx).Along SameSource) :
    (World.gated gate method queryId ctx nothing call).Along SameSource := by
  have asks : (World.ask gate method queryId : Action (World γ ε) _).Along SameSource :=
    fun _ => rfl
  have signals change : (World.signal change : Action (World γ ε) Unit).Along SameSource :=
    fun _ => rfl
  refine asks.bind fun decision => ?_
  cases decision with
  | fail e => exact along_fail e
  | cancelBefore => exact (signals _).bind fun _ => alone ctx
  | delayBefore milliseconds => exact (signals _).bind fun _ => alone ctx
  | cancelAfter => exact (alone ctx).attempt.bind fun _ => (signals _).bind fun _ => along_liftM _
  | delayAfter milliseconds =>
      exact (alone ctx).attempt.bind fun _ => (signals _).bind fun _ => along_liftM _
  | skip => exact along_pure nothing
  | detach => exact alone ctx.detached
  | swallow =>
      refine (alone ctx).attempt.bind fun outcome => ?_
      cases outcome with
      | ok value => exact along_pure value
      | error e => exact along_pure nothing
  | _ => exact alone ctx

theorem along_createEntity (ctx : Context) (entity : ε) :
    (setting.backend.entities.create ctx entity).Along SameSource :=
  along_gated fun _ _ => rfl

theorem along_updateEntity (ctx : Context) (entity : ε) :
    (setting.backend.entities.update ctx entity).Along SameSource :=
  along_gated fun _ _ => rfl

/-- What a transaction sees of an identifier agrees with the source. -/
def World.Agrees (schema : Schema ι ε) (place : Option TxId) (id : ι) (world : World γ ε) : Prop :=
  world.repository.Sound schema ∧
    ∃ view, world.repository.seen place = .ok view ∧
      QueryCache.Agrees schema world.source.rows id view

/-- A change that succeeded was offered by the source, and was made where it was asked for. -/
theorem eq_ok_of_offered {κ α : Type} {capability : Capability} {able : κ}
    {run : κ → Action (World γ ε) α} {ctx : Context} {world done : World γ ε} {value : α}
    (ends : (do
      setting.backend.check ctx
      let able ← Backend.require capability (Setting.source.offered setting capability able)
      run able : Action (World γ ε) α) world = (.ok value, done)) :
    run able world = (.ok value, done) := by
  obtain ⟨_, checked, check, rest⟩ := exists_of_bind_apply_eq ends
  obtain ⟨found, asked, required, rest⟩ := exists_of_bind_apply_eq rest
  obtain rfl := offered_eq_some (Backend.require_eq_ok (congrArg Prod.fst required))
  cases congrArg Prod.snd check
  cases congrArg Prod.snd required
  exact rest

/-- A copy that was refused left the repository as it was. -/
theorem repository_of_refused (hindered : setting.backend.Hindered World.repository)
    {request : Request ι ε} {call : Action (World γ ε) Unit} {ctx : Context}
    {world done : World γ ε} {e : Error}
    (single : ∃ entity, request = .createEntity entity ∨ request = .updateEntity entity)
    (made : setting.backend.stores.perform ctx request = call.map fun () => .done)
    (ends : call world = (.error e, done)) : done.repository = world.repository := by
  have failed : (setting.backend.stores.perform ctx request world).1 = .error e := by
    rw [made, map_apply, ends]
    rfl
  have clean : ∀ listing signals,
      ((Repository.storesIn setting.schema listing signals).perform ctx request).FailsClean := by
    obtain ⟨entity, rfl | rfl⟩ := single <;> exact fun _ _ => Repository.failsClean_perform rfl rfl
  have same := hindered.perform_of_error clean failed
  rw [made, map_apply, ends] at same
  exact same

/-- Creation in the source leaves the repository alone, and the entity that comes back is the
row. -/
theorem of_sourceCreate {ctx : Context} {entity stored : ε} {world made : World γ ε}
    (created : setting.sourceCreate ctx entity world = ((.ok (), stored), made)) :
    made.repository = world.repository ∧
      Source.rowOf setting.schema (setting.schema.idOf stored) made.source.rows = some stored := by
  have assigned : (setting.assigned entity world).2.repository = world.repository := by
    unfold Setting.assigned
    split <;> rfl
  unfold Setting.sourceCreate at created
  generalize setting.assigned entity world = taken at assigned created
  obtain ⟨taken, middle⟩ := taken
  simp only [Prod.mk.injEq] at created
  obtain ⟨⟨succeeds, rfl⟩, rfl⟩ := created
  exact ⟨assigned, Source.rowOf_of_create succeeds⟩

/-- A creation that succeeded was made in the source, and what came back was copied. -/
theorem exists_of_create {ctx : Context} {entity stored : ε} {world done : World γ ε}
    (ends : setting.backend.create ctx entity world = ((.ok (), stored), done)) :
    ∃ made, setting.sourceCreate ctx entity world = ((.ok (), stored), made) ∧
      setting.backend.copyNew ctx stored made = (.ok (), done) := by
  cases Backend.creates_iff.mpr ends with
  | made check offered created copied =>
      obtain rfl := offered_eq_some offered
      cases congrArg Prod.snd check
      exact ⟨_, created, copied⟩

/-- The replacement of an entity in the source. -/
def Setting.sourceUpdate (setting : Setting γ ι ε) (ctx : Context) (entity : ε) :
    Action (World γ ε) Unit :=
  World.onSource fun signals =>
    Source.update setting.schema signals (setting.sourceContext signals ctx) entity

/-- A replacement that succeeded was made in the source, and then either the copy was replaced, or
the entity was invalidated in the repository as it was. -/
theorem exists_of_update (hindered : setting.backend.Hindered World.repository) {ctx : Context}
    {entity : ε} {world done : World γ ε}
    (ends : setting.backend.update ctx entity world = (.ok (), done)) :
    ∃ updated, setting.sourceUpdate ctx entity world = (.ok (), updated) ∧
      updated.repository = world.repository ∧
      (setting.backend.entities.update ctx entity updated = (.ok (), done) ∨
        (setting.backend.entities.update ctx entity updated).1 ≠ .ok () ∧
        ∃ refused, refused.repository = world.repository ∧
          setting.backend.invalidateEntity ctx (setting.schema.idOf entity) refused =
            (.ok (), done)) := by
  unfold Backend.update at ends
  have rest := eq_ok_of_offered ends
  obtain ⟨_, updated, changed, rest⟩ := exists_of_bind_apply_eq rest
  have same : updated.repository = world.repository := by
    cases congrArg Prod.snd changed
    rfl
  refine ⟨updated, changed, same, ?_⟩
  obtain ⟨outcome, stored, attempted, rest⟩ := exists_of_bind_apply_eq rest
  have mirrored := eq_of_attempt_eq attempted
  cases outcome with
  | ok _ =>
      cases congrArg Prod.snd rest
      exact .inl mirrored
  | error e =>
      obtain ⟨_, refused, tolerates, invalidated⟩ := exists_of_bind_apply_eq rest
      have kept := hindered.tolerate setting.backend.schema.label e stored
      rw [tolerates] at kept
      have untouched := repository_of_refused hindered ⟨entity, .inr rfl⟩ rfl mirrored
      refine .inr ⟨?_, refused, (kept.trans untouched).trans same, invalidated⟩
      rw [mirrored]
      exact nofun

/-- What a write leaves in the source can be read back from the stores. -/
def Setting.ReadsBack (setting : Setting γ ι ε) (ctx : Context) (world : World γ ε) :
    Write ι ε → Prop
  | .create entity =>
      setting.schema.ReadsBackEntity (setting.sourceCreate ctx entity world).1.2
  | .update entity => setting.schema.ReadsBackEntity entity
  | .deleteById _ => True

/-- The copy of a new entity is stored, or nothing was stored of the entity before. -/
def Setting.Clears (setting : Setting γ ι ε) (ctx : Context) (world : World γ ε) :
    Write ι ε → Prop
  | .create entity =>
      let ((_, stored), made) := setting.sourceCreate ctx entity world
      (setting.backend.entities.create ctx stored made).1 = .ok () ∨
        ∀ view, world.repository.seen ctx.tx = .ok view →
          Uncached setting.schema (setting.schema.idOf stored) view
  | _ => True

/-- A creation whose copy is refused leaves an entity that can be stored, and no query for it: the
text of the query cannot be built. -/
def Setting.Unqueried (setting : Setting γ ι ε) (ctx : Context) (world : World γ ε) :
    Write ι ε → Error → Prop
  | .create entity, e =>
      let ((_, stored), made) := setting.sourceCreate ctx entity world
      let id := setting.schema.idOf stored
      (setting.backend.entities.create ctx stored made).1 ≠ .ok () ∧
        (∃ place, setting.schema.entityKey id = .ok place) ∧
        setting.schema.findByIdKey id = .error e
  | _, _ => False

section Writes

variable (hindered : setting.backend.Hindered World.repository) {ctx : Context}
  {world done : World γ ε} {view : View} (sound : world.repository.Sound setting.schema)
  (shown : world.repository.seen ctx.tx = .ok view)
include hindered sound shown

/-- An invalidation that succeeded left nothing to disagree. -/
theorem agrees_invalidateEntity (distinct : setting.schema.Distinct) {id : ι}
    (ends : setting.backend.invalidateEntity ctx id world = (.ok (), done)) :
    done.Agrees setting.schema ctx.tx id := by
  obtain ⟨soundLater, later, shownLater, -, gone, -, queried⟩ :=
    hindered.attains_entity (Trims.removing distinct) id world () sound shown
      (congrArg Prod.fst ends)
  rw [ends] at soundLater shownLater
  exact ⟨soundLater, later, shownLater, .inl ⟨gone.uncached, fun _ _ => queried⟩⟩

theorem agrees_deleteById (distinct : setting.schema.Distinct) {id : ι}
    (ends : setting.backend.deleteById ctx id world = (.ok (), done)) :
    done.Agrees setting.schema ctx.tx id := by
  unfold Backend.deleteById at ends
  have rest := eq_ok_of_offered ends
  obtain ⟨_, deleted, changed, invalidated⟩ := exists_of_bind_apply_eq rest
  have same : deleted.repository = world.repository := by
    cases congrArg Prod.snd changed
    rfl
  rw [← same] at sound shown
  exact agrees_invalidateEntity hindered sound shown distinct invalidated

omit hindered in
/-- A copy that was stored agrees with the source if it is the row. -/
theorem agrees_of_copied {call : Action (World γ ε) Unit} (alone : call.Along SameSource)
    {entity : ε} (attains : setting.backend.Attains World.repository ctx view call fun _ later =>
      ∃ key bytes, setting.schema.entityKey (setting.schema.idOf entity) = .ok key ∧
        setting.schema.encode entity = .ok bytes ∧
        later = { view with copies := view.copies.insert key bytes })
    (readsBack : setting.schema.ReadsBackEntity entity)
    (isRow : Source.rowOf setting.schema (setting.schema.idOf entity) world.source.rows =
      some entity)
    (ends : call world = (.ok (), done)) :
    done.Agrees setting.schema ctx.tx (setting.schema.idOf entity) := by
  obtain ⟨soundLater, _, shownLater, key, bytes, named, encoded, rfl⟩ :=
    attains world () sound shown (congrArg Prod.fst ends)
  have sameSource := alone world
  rw [ends] at soundLater shownLater sameSource
  rw [← sameSource] at isRow
  exact ⟨soundLater, _, shownLater,
    .inr ⟨key, bytes, entity, named, by simp, readsBack bytes encoded, isRow⟩⟩

/-- A replacement that succeeded stored the copy, or invalidated the entity. -/
theorem agrees_update (distinct : setting.schema.Distinct) {entity : ε}
    (readsBack : setting.schema.ReadsBackEntity entity)
    (ends : setting.backend.update ctx entity world = (.ok (), done)) :
    done.Agrees setting.schema ctx.tx (setting.schema.idOf entity) := by
  obtain ⟨updated, changed, same, mirrored | ⟨-, refused, untouched, invalidated⟩⟩ :=
    exists_of_update hindered ends
  · have isRow : Source.rowOf setting.schema (setting.schema.idOf entity) updated.source.rows =
        some entity := by
      cases congrArg Prod.snd changed
      exact Source.rowOf_of_update (congrArg Prod.fst changed)
    rw [← same] at sound shown
    refine agrees_of_copied sound shown (along_updateEntity ctx entity) ?_ readsBack isRow mirrored
    refine (hindered.attains_updateEntity entity).weaken ?_
    rintro _ later ⟨key, bytes, named, -, encoded, stored⟩
    exact ⟨key, bytes, named, encoded, stored⟩
  · rw [← untouched] at sound shown
    exact agrees_invalidateEntity hindered sound shown distinct invalidated

omit sound shown in
/-- A creation whose copy was refused left the repository as it was. -/
theorem repository_of_create (entity : ε) {stored : ε} {made : World γ ε}
    (created : setting.sourceCreate ctx entity world = ((.ok (), stored), made))
    (copies : setting.backend.copyNew ctx stored made = (.ok (), done))
    (refused : (setting.backend.entities.create ctx stored made).1 ≠ .ok ()) :
    done.repository = world.repository := by
  obtain ⟨outcome, after, attempted, rest⟩ := exists_of_bind_apply_eq copies
  have mirrored := eq_of_attempt_eq attempted
  cases outcome with
  | ok _ => exact absurd (congrArg Prod.fst mirrored) refused
  | error e =>
      have tolerates : setting.backend.tolerate setting.backend.schema.label e after =
        (.ok (), done) := rest
      have kept := hindered.tolerate setting.backend.schema.label e after
      rw [tolerates] at kept
      have untouched := repository_of_refused hindered ⟨stored, .inl rfl⟩ rfl mirrored
      exact (kept.trans untouched).trans (of_sourceCreate created).1

/-- A creation that succeeded stored the copy, or had nothing to replace and left an entity that can
be looked up. -/
theorem agrees_create {entity stored : ε}
    (readsBack : setting.schema.ReadsBackEntity stored)
    (ends : setting.backend.create ctx entity world = ((.ok (), stored), done))
    (clears : setting.Clears ctx world (.create entity))
    (queried : ∀ e, ¬ setting.Unqueried ctx world (.create entity) e) :
    done.Agrees setting.schema ctx.tx (setting.schema.idOf stored) := by
  obtain ⟨made, created, copies⟩ := exists_of_create ends
  obtain ⟨same, isRow⟩ := of_sourceCreate created
  rw [Setting.Clears, created] at clears
  simp only [Setting.Unqueried, created] at queried
  by_cases mirrored : (setting.backend.entities.create ctx stored made).1 = .ok ()
  · obtain ⟨_, after, attempted, rest⟩ := exists_of_bind_apply_eq copies
    have copied := eq_of_attempt_eq attempted
    rw [copied] at mirrored
    cases mirrored
    cases congrArg Prod.snd rest
    rw [← same] at sound shown
    exact agrees_of_copied sound shown (along_createEntity ctx stored)
      (hindered.attains_createEntity stored) readsBack isRow copied
  · have uncached := clears.resolve_left mirrored view shown
    rw [World.Agrees, repository_of_create hindered entity created copies mirrored]
    refine ⟨sound, view, shown, .inl ⟨uncached, fun place placed => ?_⟩⟩
    cases named : setting.schema.findByIdKey (setting.schema.idOf stored) with
    | ok key => exact ⟨key, rfl⟩
    | error e => exact absurd ⟨mirrored, ⟨place, placed⟩, named⟩ (queried e)

/-- A write that succeeded leaves nothing that disagrees with the source, unless it leaves an entity
without a query. -/
theorem agrees_write (distinct : setting.schema.Distinct) {write : Write ι ε} {id : ι}
    (readsBack : setting.ReadsBack ctx world write) (clears : setting.Clears ctx world write)
    (queried : ∀ e, ¬ setting.Unqueried ctx world write e)
    (ends : setting.backend.write ctx write world = ((.ok (), id), done)) :
    done.Agrees setting.schema ctx.tx id := by
  cases write with
  | create entity =>
      simp only [Backend.write, Prod.mk.injEq] at ends
      obtain ⟨⟨succeeds, rfl⟩, rfl⟩ := ends
      have created : setting.backend.create ctx entity world = ((.ok (), _), _) :=
        Prod.ext (Prod.ext succeeds rfl) rfl
      obtain ⟨made, madeSource, -⟩ := exists_of_create created
      rw [Setting.ReadsBack, madeSource] at readsBack
      exact agrees_create hindered sound shown readsBack created clears queried
  | update entity =>
      simp only [Backend.write, Prod.mk.injEq] at ends
      obtain ⟨⟨succeeds, rfl⟩, rfl⟩ := ends
      exact agrees_update hindered sound shown distinct readsBack (Prod.ext succeeds rfl)
  | deleteById id =>
      simp only [Backend.write, Prod.mk.injEq] at ends
      obtain ⟨⟨succeeds, rfl⟩, rfl⟩ := ends
      exact agrees_deleteById hindered sound shown distinct (Prod.ext succeeds rfl)

omit sound in
/-- A write that leaves an entity without a query left the repository as it was, and nothing stored
of the entity. -/
theorem uncached_write {write : Write ι ε} {id : ι} {e : Error}
    (clears : setting.Clears ctx world write) (unqueried : setting.Unqueried ctx world write e)
    (ends : setting.backend.write ctx write world = ((.ok (), id), done)) :
    done.repository = world.repository ∧ Uncached setting.schema id view ∧
      (∃ place, setting.schema.entityKey id = .ok place) ∧
      setting.schema.findByIdKey id = .error e := by
  cases write with
  | create entity =>
      simp only [Backend.write, Prod.mk.injEq] at ends
      obtain ⟨⟨succeeds, rfl⟩, rfl⟩ := ends
      have created : setting.backend.create ctx entity world = ((.ok (), _), _) :=
        Prod.ext (Prod.ext succeeds rfl) rfl
      obtain ⟨made, madeSource, copies⟩ := exists_of_create created
      rw [Setting.Clears, madeSource] at clears
      simp only [Setting.Unqueried, madeSource] at unqueried
      obtain ⟨refused, placed, unnamed⟩ := unqueried
      exact ⟨repository_of_create hindered entity madeSource copies refused,
        clears.resolve_left refused view shown, placed, unnamed⟩
  | update entity => exact unqueried.elim
  | deleteById id => exact unqueried.elim

end Writes

/-- A world at a later moment, when no more failures are set. -/
def World.calmed (world : World γ ε) (signals : Signals) (clock : Time.Timestamp) (gate : γ) :
    World γ ε :=
  { world with
    signals, clock, gate
    repository :=
      { world.repository with
        entities := { world.repository.entities with failure := none }
        hits := { world.repository.hits with failure := none } }
    source := { world.source with failure := none } }

/-- A later moment in which nothing fails: the gate lets every call pass, and the context of a
reader is live. -/
structure Calm (γ ι : Type) where
  gate : Gate γ ι
  passes : gate.Passes
  signals : Signals
  clock : Time.Timestamp
  state : γ
  reader : Context
  live : reader.check signals = .ok ()

/-- The same cache behind the gate of a calm moment. -/
def Setting.during (setting : Setting γ ι ε) (calm : Calm γ ι) : Setting γ ι ε :=
  { setting with gate := calm.gate }

/-- A world at a calm moment. -/
def World.during (world : World γ ε) (calm : Calm γ ι) : World γ ε :=
  world.calmed calm.signals calm.clock calm.state

omit [DecidableEq ι] in
/-- What a reader sees in a repository, it sees there at a calm moment. -/
theorem Calm.sees (calm : Calm γ ι) {world : World γ ε} {view : View}
    (sound : world.repository.Sound setting.schema)
    (shown : world.repository.seen calm.reader.tx = .ok view) :
    Sees (setting.during calm).schema (world.during calm).scene calm.reader view
      (world.during calm) := by
  obtain ⟨hits, copies⟩ := Repository.seen_eq_ok.mp shown
  have soundCalm : (world.during calm).repository.Sound setting.schema :=
    sound.shrink sound.paired (fun _ _ => rfl) (Nat.le_refl _)
      ⟨sound.keyed.rows, sound.keyed.overlays⟩
  refine ⟨rfl, soundCalm, ⟨soundCalm.ordered, rfl, calm.live, ?_⟩,
    ⟨soundCalm.entitiesOrdered, rfl, calm.live, ?_⟩⟩
  · exact (Table.view_failing sound.ordered none _).trans hits
  · exact (Table.view_failing sound.entitiesOrdered none _).trans copies

section Calm

variable (calm : Calm γ ι) {id : ι} {world : World γ ε}

/-- Where what is seen agrees with the source, a lookup without failures answers as the source. -/
theorem World.Agrees.findById_calm (agrees : world.Agrees setting.schema calm.reader.tx id)
    (encodes : ∀ entity, Tolerable (setting.schema.encode entity))
    (sourceLive :
      (setting.sourceContext calm.signals calm.reader).check calm.signals = .ok ()) :
    ((setting.during calm).backend.findById calm.reader id (world.during calm)).1 =
      ((setting.during calm).backend.source.findById calm.reader id (world.during calm)).1 := by
  obtain ⟨sound, view, shown, agrees⟩ := agrees
  have sees : Sees (setting.during calm).schema _ calm.reader view (world.during calm) :=
    calm.sees sound shown
  have encodesCalm entity : Tolerable ((setting.during calm).schema.encode entity) := encodes entity
  have liveSource : ((setting.during calm).sourceContext calm.signals calm.reader).check
      calm.signals = .ok () := sourceLive
  have looks : Ensures (setting.during calm).schema (world.during calm).scene calm.reader view
      ((setting.during calm).backend.findById calm.reader id)
      fun value _ => value = Source.rowOf setting.schema id world.source.rows :=
    ensures_findById_of_agrees calm.passes encodesCalm rfl liveSource agrees
  obtain ⟨-, -, -, value, answered, rfl⟩ := looks _ sees
  obtain ⟨-, -, -, asked, -⟩ := ends_sourceFindById_of_live rfl liveSource id _ sees
  exact answered.trans asked.symm

/-- Where nothing is stored of an entity that can be stored, and there is no query for it, a lookup
without failures fails. -/
theorem Calm.findById_of_unqueried {view : View} (sound : world.repository.Sound setting.schema)
    (shown : world.repository.seen calm.reader.tx = .ok view)
    (uncached : Uncached setting.schema id view) {place : String}
    (placed : setting.schema.entityKey id = .ok place) {e : Error}
    (unnamed : setting.schema.findByIdKey id = .error e) :
    ((setting.during calm).backend.findById calm.reader id (world.during calm)).1 = .error e := by
  have sees : Sees (setting.during calm).schema _ calm.reader view (world.during calm) :=
    calm.sees sound shown
  have uncachedCalm : Uncached (setting.during calm).schema id view := uncached
  obtain ⟨-, -, -, failed, -⟩ :=
    ends_findById_of_unqueried calm.passes uncachedCalm placed unnamed _ sees
  exact failed

end Calm

/-- A write of an identifier that succeeded in a world whose repository can be reached. -/
structure Setting.Writes (setting : Setting γ ι ε) (ctx : Context) (write : Write ι ε) (id : ι)
    (world done : World γ ε) : Prop where
  reachable : world.repository.Reachable setting.schema
  ends : setting.backend.write ctx write world = ((.ok (), id), done)

/-- However a write went that succeeded, a lookup of its entity without failures answers as the
source. Of a creation this needs that its copy was stored, or that nothing was stored of the entity
before. Where it left an entity that can be stored, but for which there is no query, the lookup
fails as building the text of the query does. -/
theorem findById_eq_source_of_write (setting : Setting γ ι ε) (hinders : setting.gate.Hinders)
    (distinct : setting.schema.Distinct)
    (encodes : ∀ entity, Tolerable (setting.schema.encode entity)) (ctx : Context)
    (write : Write ι ε) (id : ι) (world done : World γ ε)
    (writes : setting.Writes ctx write id world done)
    (isOpen : world.repository.hits.OpenThrough ctx.tx)
    (readsBack : setting.ReadsBack ctx world write) (clears : setting.Clears ctx world write)
    (calm : Calm γ ι) (samePlace : calm.reader.tx = ctx.tx)
    (sourceLive :
      (setting.sourceContext calm.signals calm.reader).check calm.signals = .ok ()) :
    let backend := (setting.during calm).backend
    let later := done.during calm
    ((∀ e, ¬ setting.Unqueried ctx world write e) →
      (backend.findById calm.reader id later).1 =
        (backend.source.findById calm.reader id later).1) ∧
    ∀ e, setting.Unqueried ctx world write e →
      (backend.findById calm.reader id later).1 = .error e := by
  have sound : world.repository.Sound setting.schema := writes.reachable.sound
  have hindered := setting.hindered hinders
  obtain ⟨view, shown⟩ := (Repository.exists_seen_iff sound).mpr isOpen
  constructor
  · intro queried
    have agrees : done.Agrees setting.schema ctx.tx id :=
      agrees_write hindered sound shown distinct readsBack clears queried writes.ends
    rw [← samePlace] at agrees
    exact agrees.findById_calm calm encodes sourceLive
  · intro e unqueried
    obtain ⟨untouched, uncached, ⟨place, placed⟩, unnamed⟩ :=
      uncached_write hindered shown clears unqueried writes.ends
    rw [← untouched] at sound shown
    rw [← samePlace] at shown
    exact calm.findById_of_unqueried sound shown uncached placed unnamed

omit [DecidableEq ι] in
/-- What an entry refuses is no failure of a context. -/
theorem tolerable_encode (kind : IdKind ι) (entry : Entry ι) :
    Tolerable (kind.schema.encode entry) := by
  have envelope (payload : Except WriteFault Bytes) : Tolerable (Envelope.encode payload) := by
    intro e failed
    cases payload <;> cases failed
    rfl
  have plain : Tolerable (entry.encodePlain kind) := envelope _
  have stored labels : Tolerable (Entry.encode.stored kind entry labels) := by
    intro e failed
    unfold Entry.encode.stored at failed
    split at failed
    · cases failed
    · exact envelope _ e failed
  have mapped (form : Bytes → Bytes) :
      Tolerable (do return form (← entry.encodePlain kind)) := by
    intro e failed
    cases written : entry.encodePlain kind <;> rw [written] at failed <;> cases failed
    exact plain _ written
  change Tolerable (Entry.encode kind entry)
  unfold Entry.encode
  split
  · exact envelope _
  · exact stored _
  · exact stored _
  · exact mapped List.dropLast
  · exact mapped (· ++ [0x00, 0xFF])
  · exact plain

/-- A gate at which no copy can be replaced. -/
def stuckUpdates : Gate Unit Bool where
  decide call _ :=
    (if call.method = .entitiesUpdate then .fail (.backend "stuck") else .pass, ())
  revivals _ := 0

theorem stuckUpdates_hinders : stuckUpdates.Hinders := by
  intro call state
  change Decision.Hinders (if call.method = .entitiesUpdate then _ else _)
  split <;> trivial

/-- A cache of switches behind the gate. -/
def updatesSetting : Setting Unit Bool (Entry Bool) :=
  ⟨IdKind.switch.schema, stuckUpdates, .plain, false⟩

/-- A world in which a switch is copied. -/
def copiedWorld : World Unit (Entry Bool) :=
  { World.initial () [⟨true, "old"⟩] 0 with
    repository := Repository.after IdKind.switch.schema
      [.request .initial .root (.upsertEntities [⟨true, "old"⟩])] .empty }

/-- The beginning of time behind an open gate. -/
def calmStart : Calm Unit Bool :=
  ⟨.opened, fun _ _ => rfl, .initial, ⟨0, 0⟩, (), .root, rfl⟩

/-- The switch is replaced, but its copy cannot be. -/
theorem findById_eq_source_of_write_copiedWorld :
    let replaced := updatesSetting.backend.write .root (.update ⟨true, "new"⟩) copiedWorld
    (switchSetting.backend.findById .root true (replaced.2.during calmStart)).1 =
      .ok (some ⟨true, "new"⟩) := by
  have written : (updatesSetting.backend.write .root (.update ⟨true, "new"⟩) copiedWorld).1 =
      (.ok (), true) := by
    decide +kernel
  have repaired := findById_eq_source_of_write updatesSetting stuckUpdates_hinders
    names_switch.distinct (tolerable_encode IdKind.switch) .root (.update ⟨true, "new"⟩) true
    copiedWorld _ ⟨⟨_, rfl⟩, Prod.ext written rfl⟩ .outside
    (Schema.Keeps.readsBackEntity (by decide +kernel)) trivial calmStart rfl rfl
  refine (repaired.1 fun _ unqueried => unqueried).trans ?_
  decide +kernel

/-- Numbers of 128 bits, of which the large ones have a JSON text and no JSON value. -/
def IdKind.wide : IdKind Nat where
  label := "wide"
  toDatum := .unsigned .w128
  shape := .unsigned .w128
  ofDatum?
    | .unsigned _ value => some value
    | _ => none
  literal := toString
  nth n := n

/-- A gate at which no copy can be created. -/
def stuckCreations : Gate Unit Nat where
  decide call _ :=
    (if call.method = .entitiesCreate then .fail (.backend "stuck") else .pass, ())
  revivals _ := 0

/-- An entity of a large number is created without its copy: it is not found, although the source
has it. -/
example :
    let setting : Setting Unit Nat (Entry Nat) :=
      ⟨IdKind.wide.schema, stuckCreations, .plain, false⟩
    let calmed : Setting Unit Nat (Entry Nat) := { setting with gate := .opened }
    let created :=
      setting.backend.write .root (.create ⟨UInt64.size, "new"⟩) (World.initial () [] 0)
    created.1 = (.ok (), UInt64.size) ∧
      (calmed.backend.findById .root UInt64.size created.2).1 =
        .error (.deserialization "number out of range") ∧
      (calmed.backend.source.findById .root UInt64.size created.2).1 =
        .ok (some ⟨UInt64.size, "new"⟩) := by
  decide +kernel

/-- A world in which the deletion of a switch was not followed by its invalidation. -/
def undroppedWorld : World Unit (Entry Bool) :=
  (stuckSwitches.backend.deleteById .root true
    (stuckSwitches.backend.findById .root true (World.initial () [⟨true, "old"⟩] 0)).2).2

/-- A switch that is created where a copy is left over from before is not what is found. -/
theorem findById_ne_source_undroppedWorld :
    let created := stuckSwitches.backend.write .root (.create ⟨true, "new"⟩) undroppedWorld
    let later := created.2.during calmStart
    created.1 = (.ok (), true) ∧
      (switchSetting.backend.findById .root true later).1 = .ok (some ⟨true, "old"⟩) ∧
      (switchSetting.backend.source.findById .root true later).1 = .ok (some ⟨true, "new"⟩) := by
  decide +kernel

end Simulation

end QueryCache
