import QueryCache.Proofs.Faithful

/-!
# Answers of a faithful cache

Where nothing fails and a cache is faithful to its source, a query leaves it faithful, and the
lookup of an entity answers with the row of the source. The source is a plain one: it offers all
that a source can do, and does it as asked.
-/

namespace QueryCache

open Wire

variable {ι ε : Type}

/-- The copies of identifiers are found, or one of them is missing. -/
theorem Entities.gathered_cases {schema : Schema ι ε} {rows : Rows}
    (ids : List ι) (readable : ∀ id ∈ ids, ∀ (key : String) bytes,
      schema.entityKey id = .ok key → rows[key]? = some bytes →
        ∃ entity, schema.decode bytes = .ok entity)
    (named : ∀ id ∈ ids, ∃ key, schema.entityKey id = .ok key) :
    (∃ entities, gathered schema rows ids = .ok entities) ∨
      ∃ key, gathered schema rows ids = .error (.notFound key) := by
  induction ids with
  | nil => exact .inl ⟨[], rfl⟩
  | cons id ids inductionHypothesis =>
      obtain ⟨key, isNamed⟩ := named id List.mem_cons_self
      cases present : rows[key]? with
      | none => exact .inr ⟨key, gathered_of_absent schema isNamed present ids⟩
      | some bytes =>
          obtain ⟨entity, decoded⟩ := readable id List.mem_cons_self key bytes isNamed present
          rw [gathered_of_present schema isNamed present decoded]
          have rest := inductionHypothesis
            (fun other member => readable other (List.mem_cons_of_mem _ member))
            fun other member => named other (List.mem_cons_of_mem _ member)
          rcases rest with ⟨entities, found⟩ | ⟨missing, failed⟩
          · exact .inl ⟨entity :: entities, by rw [found]; rfl⟩
          · exact .inr ⟨missing, by rw [failed]; rfl⟩

/-- Where the copy of an entity is missing, the hit of its own query leads to no entity, and only
where there is no row. -/
theorem Faithful.rowOf_of_own [DecidableEq ι] {schema : Schema ι ε} {rows : List ε} {view : View}
    (faithful : Faithful schema rows view) {id : ι} {key place : String}
    (named : schema.findByIdKey id = .ok key) (placed : schema.entityKey id = .ok place)
    (uncopied : view.copies[place]? = none) {hit : Hit ι} (held : view.hits.Hold schema key hit)
    {entities : List ε}
    (all : Entities.gathered schema view.copies hit.entityIds = .ok entities) :
    Source.rowOf schema id rows = none ∧ entities = [] := by
  rcases faithful.own id key hit named held with own | ⟨lists, noRow | ⟨other, samePlace, copied⟩⟩
  · rw [own, Entities.gathered_of_absent schema placed uncopied] at all
    cases all
  · rw [lists] at all
    cases all
    exact ⟨Source.rowOf_eq_none_iff.mpr noRow, rfl⟩
  · cases placed.symm.trans samePlace
    rw [uncopied] at copied
    cases copied

namespace Simulation

open QueryCache.Action World

/-- A source that offers everything, changes no entity, and breaks off no list. -/
def Outlet.plain : Outlet ε :=
  ⟨[.create, .update, .deleteById, .deleteAll, .findAll], none, none, false⟩

variable {γ α : Type} {schema : Schema ι ε} {scene : Scene ε} {ctx : Context} {view : View}

/-- A change of the source changes the scene only. -/
theorem Sees.withSource {world : World γ ε} (sees : Sees schema scene ctx view world)
    (source : Source ε) :
    Sees schema { scene with rows := source.rows, failure := source.failure } ctx view
      { world with source } := by
  refine ⟨?_, sees.sound, sees.hits, sees.copies⟩
  rw [← sees.inScene]
  rfl

/-- What a source in health passes on, it reads from its rows. -/
theorem ends_onSource (healthy : scene.failure = none) {direct : Signals → Action (Source ε) α}
    {result : Except Error α}
    (reads : ∀ source : Source ε, source.rows = scene.rows → source.failure = none →
      ctx.check scene.signals = .ok () →
      (direct scene.signals source).1 = result ∧
      (direct scene.signals source).2.rows = source.rows ∧
      (direct scene.signals source).2.failure = source.failure) :
    Ends schema scene ctx view (onSource direct : Action (World γ ε) α) result view := by
  intro world sees
  obtain ⟨outcome, sameRows, sameFailure⟩ :=
    reads world.source sees.rows (sees.failure.trans healthy) sees.hits.live
  have later := sees.withSource (direct scene.signals world.source).2
  rw [sameRows, sameFailure, sees.rows, sees.failure] at later
  refine ⟨view, ?_, .refl _ _, ?_, rfl⟩
  · simpa only [onSource, within_apply, sees.signals] using later
  · simpa only [onSource, within_apply, sees.signals] using outcome

/-- What a source finds for an entity in a context that is live for it. -/
theorem ends_sourceFindById_of_live [DecidableEq ι] {setting : Setting γ ι ε}
    (healthy : scene.failure = none)
    (live : (setting.sourceContext scene.signals ctx).check scene.signals = .ok ()) (id : ι) :
    Ends setting.schema scene ctx view (setting.backend.source.findById ctx id)
      (.ok (Source.rowOf setting.schema id scene.rows)) view := by
  refine ends_onSource healthy fun source rows healthy _ => ?_
  rw [Source.findById_apply live healthy, rows]
  exact ⟨rfl, rfl, rfl⟩

section Source

variable {setting : Setting γ ι ε} (plain : setting.outlet = .plain)
include plain

theorem sourceContext_of_plain (signals : Signals) : setting.sourceContext signals ctx = ctx := by
  simp [Setting.sourceContext, plain, Outlet.plain]

theorem offered_of_plain {β : Type} (capability : Capability) (able : β) :
    Setting.source.offered setting capability able = some able := by
  cases capability <;> simp [Setting.source.offered, plain, Outlet.plain]

variable (healthy : scene.failure = none)
include healthy

theorem ends_sourceFindAll :
    Ends setting.schema scene ctx view (setting.sourceFindAll ctx) (.ok scene.rows) view := by
  have found : Ends setting.schema scene ctx view (onSource fun signals =>
      Source.findAll signals (setting.sourceContext signals ctx) : Action (World γ ε) (List ε))
      (.ok scene.rows) view := by
    refine ends_onSource healthy fun source rows healthy live => ?_
    rw [sourceContext_of_plain plain, Source.findAll_apply live healthy, rows]
    exact ⟨rfl, rfl, rfl⟩
  refine found.attempt.bind ?_
  rw [plain]
  exact ends_pure scene.rows

variable [DecidableEq ι]

theorem ends_sourceFindById (id : ι) :
    Ends setting.schema scene ctx view (setting.backend.source.findById ctx id)
      (.ok (Source.rowOf setting.schema id scene.rows)) view := by
  intro world sees
  refine ends_sourceFindById_of_live healthy ?_ id world sees
  rw [sourceContext_of_plain plain]
  exact sees.hits.live

end Source

section Removals

variable [DecidableEq ι] {setting : Setting γ ι ε} (passes : setting.gate.Passes)
  (names : setting.schema.Names) {rows : List ε} (faithful : Faithful setting.schema rows view)
include passes names faithful

theorem ensures_invalidate_faithful (start : Node ι) :
    Ensures setting.schema scene ctx view (setting.backend.invalidate ctx start)
      fun _ later => Faithful setting.schema rows later ∧ View.Sub later view := by
  refine (ensures_invalidate passes (faithful.readable names)
    fun id _ => names.exists_findByIdKey id).weaken ?_
  rintro _ later ⟨swept, gone⟩
  exact ⟨faithful.swept names swept gone, swept.sub⟩

/-- After the invalidation of an entity it does not matter what became of its row. -/
theorem ensures_invalidateEntity_elsewhere {id : ι} {changed : List ε}
    (kept : ∀ row ∈ rows, setting.schema.idOf row ≠ id → row ∈ changed)
    (onto : ∀ row ∈ changed, setting.schema.idOf row ≠ id → row ∈ rows) :
    Ensures setting.schema scene ctx view (setting.backend.invalidateEntity ctx id)
      fun _ later => Faithful setting.schema changed later := by
  have removal : Ensures setting.schema scene ctx view (setting.backend.invalidate ctx (.entity id))
      fun _ later =>
        Swept setting.schema (Reached setting.schema view.hits (.entity id)) view later ∧
        Node.Gone setting.schema later (.entity id) :=
    ensures_invalidate passes (faithful.readable names) fun id _ => names.exists_findByIdKey id
  refine removal.weaken ?_
  rintro _ later ⟨swept, gone⟩
  exact (faithful.swept names swept gone).elsewhere gone kept onto

end Removals

/-- An answer that may be remembered: it consists of rows, for the query of one entity it is the
row of the entity, and its hit can be stored and read back. -/
structure Recordable [DecidableEq ι] (schema : Schema ι ε) (scene : Scene ε) (key : String)
    (answer : List ε) : Prop where
  rows : ∀ entity ∈ answer, entity ∈ scene.rows
  own : ∀ id, schema.findByIdKey id = .ok key → answer = (Source.rowOf schema id scene.rows).toList
  keepsHit : schema.KeepsHit ⟨key, answer.map schema.idOf, scene.clock⟩

/-- A hit of a query that is held later was held before, or lists the given identifiers. -/
def Records (schema : Schema ι ε) (key : String) (ids : List ι) (earlier later : View) : Prop :=
  ∀ hit, later.hits.Hold schema key hit →
    earlier.hits.Hold schema key hit ∨ hit.entityIds = ids

theorem Records.of_sub {key : String} {ids : List ι} {earlier middle later : View}
    (sub : View.Sub middle earlier) (records : Records schema key ids middle later) :
    Records schema key ids earlier later :=
  fun hit held => (records hit held).imp_left sub.hits.hold

/-- What a source finds for an entity may be remembered of it. -/
theorem Recordable.row [DecidableEq ι] (names : schema.Names)
    (distinct : (scene.rows.map schema.idOf).Nodup) {id : ι} {key : String}
    (named : schema.findByIdKey id = .ok key)
    (keepsHit : schema.KeepsHit
      ⟨key, (Source.rowOf schema id scene.rows).toList.map schema.idOf, scene.clock⟩) :
    Recordable schema scene key (Source.rowOf schema id scene.rows).toList where
  rows entity member := by
    have found := Option.mem_toList.mp member
    exact ((Source.rowOf_eq_some_iff distinct).mp found).1
  own other sameKey := by rw [names.findByIdKey_inj named sameKey]
  keepsHit := keepsHit

section Queries

variable [DecidableEq ι] {setting : Setting γ ι ε} (passes : setting.gate.Passes)
  (names : setting.schema.Names) (distinct : (scene.rows.map setting.schema.idOf).Nodup)
  (keeps : ∀ row ∈ scene.rows, setting.schema.Keeps row) {key : String} {answer : List ε}
  (recordable : Recordable setting.schema scene key answer)
include passes names distinct keeps recordable

/-- Remembering an answer of the source keeps the cache faithful to it. -/
theorem ensures_remember (faithful : Faithful setting.schema scene.rows view) :
    Ensures setting.schema scene ctx view (setting.backend.remember ctx key answer)
      fun _ later => Faithful setting.schema scene.rows later ∧
        Records setting.schema key (answer.map setting.schema.idOf) view later := by
  have keepsAnswer entity (member : entity ∈ answer) : setting.schema.Keeps entity :=
    keeps entity (recordable.rows entity member)
  have upsert : Ensures setting.schema scene ctx view (setting.backend.entities.upsert ctx answer)
      fun _ later => later.hits = view.hits ∧
        Copied setting.schema answer view.copies later.copies :=
    ensures_upsert passes keepsAnswer fun entity _ => names.exists_entityKey _
  refine Ensures.bind (Leads.attempt upsert) ?_
  rintro _ between ⟨⟨⟩, rfl, sameHits, copied⟩
  have faithfulBetween : Faithful setting.schema scene.rows between := by
    have stored := faithful.copied names copied recordable.rows (fun row member _ => member)
      (fun row member => .inr member)
    rw [← sameHits] at stored
    exact stored
  obtain ⟨bytes, encoded, decoded⟩ := exists_of_bind_eq_ok recordable.keepsHit
  refine Ends.bind ends_now (Ends.bind (ends_createHit passes encoded).attempt ?_)
  have records : Records setting.schema key (answer.map setting.schema.idOf) view
      { between with hits := between.hits.insert key bytes } := by
    intro hit held
    rcases Rows.hold_insert held with ⟨-, same⟩ | held
    · exact .inr (congrArg Hit.entityIds (Except.ok.inj (same.symm.trans decoded)))
    · exact .inl (sameHits ▸ held)
  refine ensures_pure ⟨faithfulBetween.recorded decoded fun id named => ?_, records⟩
  have own := recordable.own id named
  cases found : Source.rowOf setting.schema id scene.rows with
  | none =>
      rw [found] at own
      have noRow := Source.rowOf_eq_none_iff.mp found
      exact .inr ⟨by simp [own], .inl noRow⟩
  | some row =>
      rw [found] at own
      obtain ⟨-, sameId⟩ := (Source.rowOf_eq_some_iff distinct).mp found
      exact .inl (by simp [own, sameId])

/-- Asking a source that answers keeps the cache faithful to it. -/
theorem ensures_ask {query : Action (World γ ε) (List ε)}
    (asks : ∀ view, Ends setting.schema scene ctx view query (.ok answer) view)
    (faithful : Faithful setting.schema scene.rows view) :
    Ensures setting.schema scene ctx view (setting.backend.ask ctx key query)
      fun value later => value = answer ∧ Faithful setting.schema scene.rows later ∧
        Records setting.schema key (answer.map setting.schema.idOf) view later := by
  refine Ends.bind (asks view) (Ends.bind (ends_record _) ?_)
  refine Ensures.bind (ensures_remember passes names distinct keeps recordable faithful) ?_
  intro _ later holds
  exact ensures_pure ⟨rfl, holds⟩

/-- A query is answered by the source, or by the copies that its hit lists; either way the cache
stays faithful. -/
theorem ensures_queryMany {query : Action (World γ ε) (List ε)}
    (asks : ∀ view, Ends setting.schema scene ctx view query (.ok answer) view)
    (faithful : Faithful setting.schema scene.rows view) :
    Ensures setting.schema scene ctx view (setting.backend.queryMany ctx key query)
      fun value later => Faithful setting.schema scene.rows later ∧
        Records setting.schema key (answer.map setting.schema.idOf) view later ∧
        (value = answer ∨ ∃ hit, view.hits.Hold setting.schema key hit ∧
          Entities.gathered setting.schema view.copies hit.entityIds = .ok value) := by
  have ask {between : View} (faithful : Faithful setting.schema scene.rows between)
      (sub : View.Sub between view) :
      Ensures setting.schema scene ctx between (setting.backend.ask ctx key query)
        fun value later => Faithful setting.schema scene.rows later ∧
          Records setting.schema key (answer.map setting.schema.idOf) view later ∧
          (value = answer ∨ ∃ hit, view.hits.Hold setting.schema key hit ∧
            Entities.gathered setting.schema view.copies hit.entityIds = .ok value) := by
    refine (ensures_ask passes names distinct keeps recordable asks faithful).weaken ?_
    rintro value later ⟨same, faithful, records⟩
    exact ⟨faithful, records.of_sub sub, .inl same⟩
  refine Ends.bind ends_check ?_
  cases present : view.hits[key]? with
  | none =>
      refine Ends.bind ((ends_findHit passes key).to (told_of_absent present)).attempt ?_
      exact ask faithful (.refl view)
  | some bytes =>
      obtain ⟨hit, decoded⟩ := faithful.hits key bytes present
      refine Ends.bind ((ends_findHit passes key).to (told_of_present present decoded)).attempt ?_
      have gathered := Entities.gathered_cases hit.entityIds
        (fun _ _ place stored _ => (faithful.readable names).copies place stored)
        fun id _ => names.exists_entityKey id
      rcases gathered with ⟨entities, all⟩ | ⟨place, lost⟩
      · refine Ends.bind ((ends_findEntities passes hit.entityIds).to all).attempt ?_
        refine Ends.bind (ends_record _) ?_
        refine ensures_pure ⟨faithful, fun _ => .inl, .inr ⟨hit, ?_, all⟩⟩
        exact ⟨bytes, present, decoded⟩
      · refine Ends.bind ((ends_findEntities passes hit.entityIds).to lost).attempt ?_
        have removal : Ensures setting.schema scene ctx view
            (setting.backend.invalidateQuery ctx key)
            fun _ later => Faithful setting.schema scene.rows later ∧ View.Sub later view :=
          ensures_invalidate_faithful passes names faithful (.hit key)
        refine Ensures.bind (Leads.attempt removal) ?_
        rintro _ between ⟨⟨⟩, rfl, faithfulBetween, sub⟩
        exact ask faithfulBetween sub

theorem ensures_queryOne {found : Option ε} {query : Action (World γ ε) (Option ε)}
    (asks : ∀ view, Ends setting.schema scene ctx view query (.ok found) view)
    (sameAnswer : answer = found.toList) (faithful : Faithful setting.schema scene.rows view) :
    Ensures setting.schema scene ctx view (setting.backend.queryOne ctx key query)
      fun value later => Faithful setting.schema scene.rows later ∧
        (value = found ∨ ∃ hit entities, view.hits.Hold setting.schema key hit ∧
          Entities.gathered setting.schema view.copies hit.entityIds = .ok entities ∧
          value = entities.head?) := by
  subst sameAnswer
  have asksList view : Ends setting.schema scene ctx view
      (do return (← query).toList : Action (World γ ε) (List ε)) (.ok found.toList) view :=
    (asks view).bind (ends_pure found.toList)
  refine Ensures.bind
    (ensures_queryMany passes names distinct keeps recordable asksList faithful) ?_
  rintro entities later ⟨faithful, -, rfl | ⟨hit, held, all⟩⟩
  · exact ensures_pure ⟨faithful, .inl (by cases found <;> rfl)⟩
  · exact ensures_pure ⟨faithful, .inr ⟨hit, entities, held, all, rfl⟩⟩

end Queries

section Lookups

variable [DecidableEq ι] {setting : Setting γ ι ε} (passes : setting.gate.Passes)
  (plain : setting.outlet = .plain) (names : setting.schema.Names)
  (distinct : (scene.rows.map setting.schema.idOf).Nodup) (healthy : scene.failure = none)
  (keeps : ∀ row ∈ scene.rows, setting.schema.Keeps row)
include passes plain names distinct keeps healthy

/-- The lookup of an entity answers with the row of the source. A copy is the row; a hit that lists
the entity is of no use where the copy is missing; and a hit that lists nothing does no harm. -/
theorem ensures_findById {id : ι}
    (recordable : ∀ key, setting.schema.findByIdKey id = .ok key →
      Recordable setting.schema scene key (Source.rowOf setting.schema id scene.rows).toList)
    (faithful : Faithful setting.schema scene.rows view) :
    Ensures setting.schema scene ctx view (setting.backend.findById ctx id)
      fun value later => value = Source.rowOf setting.schema id scene.rows ∧
        Faithful setting.schema scene.rows later := by
  obtain ⟨place, placed⟩ := names.exists_entityKey id
  obtain ⟨key, named⟩ := names.exists_findByIdKey id
  have find : Ends setting.schema scene ctx view (setting.backend.entities.findById ctx id)
      (told setting.schema.decode view.copies[place]?) view := ends_findEntity passes placed
  refine Ends.bind ends_check ?_
  cases present : view.copies[place]? with
  | some bytes =>
      obtain ⟨row, member, rowPlaced, decoded⟩ := faithful.copies place bytes present
      have sameId := names.entityKey_inj rowPlaced placed
      have isRow := (Source.rowOf_eq_some_iff distinct).mpr ⟨member, sameId⟩
      refine Ends.bind (find.to (told_of_present present decoded)).attempt ?_
      exact ensures_pure ⟨isRow.symm, faithful⟩
  | none =>
      refine Ends.bind (find.to (told_of_absent present)).attempt (Ends.bind (ends_liftM named) ?_)
      have asks view : Ends setting.schema scene ctx view (setting.backend.source.findById ctx id)
          (.ok (Source.rowOf setting.schema id scene.rows)) view :=
        ends_sourceFindById plain healthy id
      refine (ensures_queryOne passes names distinct keeps (recordable key named) asks rfl
        faithful).weaken ?_
      rintro value later ⟨faithfulLater, same | ⟨hit, entities, held, all, rfl⟩⟩
      · exact ⟨same, faithfulLater⟩
      · obtain ⟨noRow, rfl⟩ := faithful.rowOf_of_own named placed present held all
        exact ⟨noRow.symm, faithfulLater⟩

theorem ensures_findAll
    (recordable : Recordable setting.schema scene QueryKey.findAll.encode scene.rows)
    (faithful : Faithful setting.schema scene.rows view) :
    Ensures setting.schema scene ctx view (setting.backend.findAll ctx)
      fun value later => Faithful setting.schema scene.rows later ∧
        Records setting.schema QueryKey.findAll.encode (scene.rows.map setting.schema.idOf) view
          later ∧
        (value = scene.rows ∨ ∃ hit, view.hits.Hold setting.schema QueryKey.findAll.encode hit ∧
          Entities.gathered setting.schema view.copies hit.entityIds = .ok value) := by
  have asks view :
      Ends setting.schema scene ctx view (setting.sourceFindAll ctx) (.ok scene.rows) view :=
    ends_sourceFindAll plain healthy
  have findAll : Backend.require .findAll setting.backend.source.findAll =
      .ok setting.sourceFindAll :=
    congrArg (Backend.require .findAll) (offered_of_plain plain .findAll setting.sourceFindAll)
  refine Ends.bind ends_check (Ends.bind (ends_liftM findAll) ?_)
  exact ensures_queryMany passes names distinct keeps recordable asks faithful

end Lookups

end Simulation

end QueryCache
