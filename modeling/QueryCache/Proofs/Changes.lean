import QueryCache.Engine.Update
import QueryCache.Proofs.Answers

/-!
# Changes through a faithful cache

Where nothing fails and a cache is faithful to its source, a change through the cache ends as it
ends in the source alone, and leaves the cache faithful to what the source then holds.
-/

namespace QueryCache.Simulation

open QueryCache.Action World

variable {γ ι ε α : Type} {setting : Setting γ ι ε} {scene : Scene ε} {ctx : Context} {view : View}

/-- The source holds the given rows, and what a context sees is faithful to them. -/
def Mirrors (setting : Setting γ ι ε) (scene : Scene ε) (ctx : Context) (rows : List ε)
    (world : World γ ε) : Prop :=
  ∃ view, Sees setting.schema { scene with rows } ctx view world ∧
    Faithful setting.schema rows view

/-- A change of a source is refused, and nothing is changed; or it leaves other rows, and what comes
next makes the cache faithful to these. -/
def Follows (setting : Setting γ ι ε) (scene : Scene ε) (ctx : Context) (view : View)
    (next : Action (World γ ε) Unit) (source : Source ε)
    (changed : Except Error Unit × Source ε) : Prop :=
  (∃ e, changed = (.error e, source)) ∨
    ∃ rows, changed = (.ok (), { source with rows }) ∧
      Ensures setting.schema { scene with rows } ctx view next
        fun _ later => Faithful setting.schema rows later

/-- Other rows in the source change the scene only. -/
theorem Sees.withRows {world : World γ ε} (sees : Sees setting.schema scene ctx view world)
    (rows : List ε) :
    Sees setting.schema { scene with rows } ctx view
      { world with source := { world.source with rows } } := by
  have later := sees.withSource { world.source with rows }
  rw [sees.failure] at later
  exact later

section Source

variable (plain : setting.outlet = .plain) {world : World γ ε}
  (sees : Sees setting.schema scene ctx view world)
include plain sees

/-- What a plain source is asked for, it does on its own state. -/
theorem onSource_apply (direct : Signals → Context → Action (Source ε) α) :
    (onSource fun signals => direct signals (setting.sourceContext signals ctx) :
        Action (World γ ε) α) world =
      ((direct scene.signals ctx world.source).1,
        { world with source := (direct scene.signals ctx world.source).2 }) := by
  rw [← sees.signals]
  simp only [onSource, within_apply, sourceContext_of_plain plain]

variable (faithful : Faithful setting.schema scene.rows view)
include faithful

/-- A change of the source, and what comes next if it succeeds: it ends as the change ends, and
mirrors what the source then holds. -/
theorem mirrors_bind (direct : Signals → Context → Action (Source ε) Unit)
    {next : Action (World γ ε) Unit}
    (follows : Follows setting scene ctx view next world.source
      (direct scene.signals ctx world.source)) :
    let bare := direct scene.signals ctx world.source
    let done := (onSource (fun signals => direct signals (setting.sourceContext signals ctx)) >>=
      fun _ => next) world
    done.1 = bare.1 ∧ Mirrors setting scene ctx bare.2.rows done.2 := by
  rcases follows with ⟨e, refused⟩ | ⟨later, changed, ensures⟩
  · rw [bind_apply, onSource_apply plain sees, refused]
    dsimp only
    rw [sees.rows]
    exact ⟨rfl, view, sees, faithful⟩
  · rw [bind_apply, onSource_apply plain sees, changed]
    obtain ⟨after, seesAfter, -, ⟨⟩, succeeds, faithfulAfter⟩ := ensures _ (sees.withRows later)
    exact ⟨succeeds, after, seesAfter, faithfulAfter⟩

variable [DecidableEq ι]

/-- Likewise where the cache first asks whether the source offers the change. -/
theorem mirrors_offered (capability : Capability) {able : α} (run : α → Action (World γ ε) Unit)
    (direct : Signals → Context → Action (Source ε) Unit)
    (runs : run able = onSource fun signals => direct signals (setting.sourceContext signals ctx))
    {next : Action (World γ ε) Unit}
    (follows : Follows setting scene ctx view next world.source
      (direct scene.signals ctx world.source)) :
    let bare := direct scene.signals ctx world.source
    let done := (do
      setting.backend.check ctx
      let able ← Backend.require capability (Setting.source.offered setting capability able)
      run able
      next : Action (World γ ε) Unit) world
    done.1 = bare.1 ∧ Mirrors setting scene ctx bare.2.rows done.2 := by
  have offered : Backend.require capability (Setting.source.offered setting capability able) =
      .ok able := by
    rw [offered_of_plain plain]
    rfl
  rw [bind_of_ok (check_apply sees), offered, bind_of_ok (liftM_apply _ _), runs]
  exact mirrors_bind plain sees faithful direct follows

end Source

variable [DecidableEq ι]

theorem ends_tolerate {e : Error} (tolerable : e.isContext = false) (label : String) :
    Ends setting.schema scene ctx view (setting.backend.tolerate label e) (.ok ()) view := by
  rw [Backend.tolerate, tolerable]
  exact ends_record _

section Removals

variable (passes : setting.gate.Passes)
include passes

/-- Nothing is seen after everything was dropped. -/
theorem ensures_dropAll :
    Ensures setting.schema scene ctx view (setting.backend.dropAll ctx)
      fun _ later => later = ⟨∅, ∅⟩ := by
  refine Ends.bind ends_check (ensures_transact passes fun tx => ?_)
  exact Ends.bind (ends_deleteHits passes) ((ends_deleteEntities passes).ensures rfl)

end Removals

/-- A plain source takes a new entity as it is, and the cache copies it. -/
theorem create_apply (plain : setting.outlet = .plain) {world : World γ ε}
    (sees : Sees setting.schema scene ctx view world) (entity : ε) :
    let done := (onSource (fun signals => Source.create setting.schema signals
      (setting.sourceContext signals ctx) entity) >>= fun _ =>
        setting.backend.copyNew ctx entity) world
    setting.backend.create ctx entity world = ((done.1, entity), done.2) := by
  have offered : Backend.require .create setting.backend.source.create =
      .ok setting.sourceCreate :=
    congrArg (Backend.require .create) (offered_of_plain plain .create setting.sourceCreate)
  have unassigned : setting.assigned entity world = (entity, world) := by
    rw [Setting.assigned, plain]
    rfl
  simp only [Backend.create, bind_of_ok (check_apply sees), offered, liftM_apply,
    Setting.sourceCreate, unassigned, bind_apply]
  generalize (onSource fun signals => Source.create setting.schema signals
    (setting.sourceContext signals ctx) entity : Action (World γ ε) Unit) world = done
  obtain ⟨outcome, done⟩ := done
  cases outcome <;> rfl

section Changes

variable (passes : setting.gate.Passes) (plain : setting.outlet = .plain)
  (names : setting.schema.Names) (healthy : scene.failure = none) {world : World γ ε}
  (sees : Sees setting.schema scene ctx view world)
  (faithful : Faithful setting.schema scene.rows view)
include passes plain names healthy sees faithful

/-- A replacement through the cache. -/
theorem update_mirrors {entity : ε} (keeps : setting.schema.Keeps entity) :
    let bare := Source.update setting.schema scene.signals ctx entity world.source
    (setting.backend.update ctx entity world).1 = bare.1 ∧
      Mirrors setting scene ctx bare.2.rows (setting.backend.update ctx entity world).2 := by
  have failure := sees.failure.trans healthy
  refine mirrors_offered plain sees faithful .update
    (fun update : Context → ε → Action (World γ ε) Unit => update ctx entity)
    (fun signals ctx => Source.update setting.schema signals ctx entity) rfl ?_
  rw [Source.update_apply sees.hits.live failure, sees.rows]
  cases replaced : Source.replace setting.schema entity scene.rows with
  | none => exact .inl ⟨_, rfl⟩
  | some later =>
      refine .inr ⟨later, rfl, ?_⟩
      obtain ⟨-, isIn, onto, kept⟩ := Source.of_replace replaced
      obtain ⟨key, named⟩ := names.exists_entityKey (setting.schema.idOf entity)
      cases present : view.copies[key]? with
      | some old =>
          refine Ensures.bind (Leads.attempt (ensures_updateEntity passes named keeps present)) ?_
          rintro _ after ⟨⟨⟩, rfl, sameHits, copied⟩
          have stored := faithful.copied names copied
            (fun other member => List.mem_singleton.mp member ▸ isIn)
            (fun row member apart =>
              kept row member (apart entity (List.mem_singleton_self _)).symm)
            (fun row member => (onto row member).imp_left List.mem_singleton.mpr)
          rw [← sameHits] at stored
          exact ensures_pure stored
      | none =>
          refine Ends.bind (ends_updateEntity_of_absent passes named present).attempt ?_
          refine Ends.bind (ends_tolerate rfl _) ?_
          apply ensures_invalidateEntity_elsewhere passes names faithful kept
          intro row member apart
          exact (onto row member).resolve_left fun same => apart (same ▸ rfl)

/-- A deletion through the cache. -/
theorem deleteById_mirrors (id : ι) :
    let bare := Source.deleteById setting.schema scene.signals ctx id world.source
    (setting.backend.deleteById ctx id world).1 = bare.1 ∧
      Mirrors setting scene ctx bare.2.rows (setting.backend.deleteById ctx id world).2 := by
  have failure := sees.failure.trans healthy
  refine mirrors_offered plain sees faithful .deleteById
    (fun delete : Context → ι → Action (World γ ε) Unit => delete ctx id)
    (fun signals ctx => Source.deleteById setting.schema signals ctx id) rfl ?_
  rw [Source.deleteById_apply sees.hits.live failure, sees.rows]
  split
  · refine .inr ⟨_, rfl, ensures_invalidateEntity_elsewhere passes names faithful ?_ ?_⟩
    · exact fun row member apart => List.mem_filter.mpr ⟨member, decide_eq_true apart⟩
    · exact fun row member _ => List.mem_of_mem_filter member
  · exact .inl ⟨_, rfl⟩

omit names in
/-- The deletion of everything through the cache. -/
theorem deleteAll_mirrors :
    let bare := Source.deleteAll scene.signals ctx world.source
    (setting.backend.deleteAll ctx world).1 = bare.1 ∧
      Mirrors setting scene ctx bare.2.rows (setting.backend.deleteAll ctx world).2 := by
  have failure := sees.failure.trans healthy
  refine mirrors_offered plain sees faithful .deleteAll
    (fun delete : Context → Action (World γ ε) Unit => delete ctx) Source.deleteAll rfl ?_
  rw [Source.deleteAll_apply sees.hits.live failure]
  refine .inr ⟨[], rfl, (ensures_dropAll passes).weaken ?_⟩
  rintro _ _ rfl
  exact .empty _ _

/-- A creation through the cache. -/
theorem create_mirrors {entity : ε} (keeps : setting.schema.Keeps entity) :
    let bare := Source.create setting.schema scene.signals ctx entity world.source
    (setting.backend.create ctx entity world).1 = (bare.1, entity) ∧
      Mirrors setting scene ctx bare.2.rows (setting.backend.create ctx entity world).2 := by
  have failure := sees.failure.trans healthy
  have follows : Follows setting scene ctx view (setting.backend.copyNew ctx entity) world.source
      (Source.create setting.schema scene.signals ctx entity world.source) := by
    rw [Source.create_apply sees.hits.live failure, sees.rows]
    split
    · exact .inl ⟨_, rfl⟩
    · rename_i absent
      have noRow := Source.rowOf_eq_none_iff.mp (Option.not_isSome_iff_eq_none.mp absent)
      obtain ⟨key, named⟩ := names.exists_entityKey (setting.schema.idOf entity)
      have uncopied : view.copies[key]? = none := by
        by_contra copied
        obtain ⟨bytes, present⟩ := Option.ne_none_iff_exists'.mp copied
        obtain ⟨row, member, sameKey, -⟩ := faithful.copies key bytes present
        exact noRow row member (names.entityKey_inj sameKey named)
      refine .inr ⟨_, rfl, ?_⟩
      refine Ensures.bind (Leads.attempt (ensures_createEntity passes named keeps uncopied)) ?_
      rintro _ after ⟨⟨⟩, rfl, sameHits, copied⟩
      have stored := faithful.copied names copied
        (fun other member => List.mem_append_right _ member)
        (fun row member _ => List.mem_append_left _ member)
        (fun row member => (List.mem_append.mp member).symm)
      rw [← sameHits] at stored
      exact ensures_pure stored
  obtain ⟨ends, mirrors⟩ := mirrors_bind plain sees faithful
    (fun signals ctx => Source.create setting.schema signals ctx entity) follows
  rw [create_apply plain sees]
  exact ⟨congrArg (·, entity) ends, mirrors⟩

end Changes

end QueryCache.Simulation
