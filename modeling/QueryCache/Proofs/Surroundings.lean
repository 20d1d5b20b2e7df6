import QueryCache.Proofs.Integrity
import QueryCache.Proofs.Tandem

/-!
# A world is a smooth backend

Where the gate lets every call pass, all that a cache in a world asks for is made of the repository
as it is, or concerns the surroundings only: the source, the clock, the signals and what is
recorded. None of these takes notice of transactions. In the place of the state of the gate, which
is not needed, stand the orders in which scans list hits.
-/

namespace QueryCache.Simulation

open QueryCache.Action World

variable {γ ι ε α : Type}

/-- What surrounds the repository in a world, but for the gate and for what was recorded. -/
structure Surroundings (ε : Type) where
  signals : Signals
  clock : Time.Timestamp
  source : Source ε
  nextPlace : Nat

/-- The surroundings of the repository. -/
def World.surroundings (world : World γ ε) : Surroundings ε :=
  ⟨world.signals, world.clock, world.source, world.nextPlace⟩

/-- A world whose gate holds the orders of the scans to come. -/
def World.layout : Layout (World Orders ε) (Surroundings ε) where
  part := World.repository
  orders := World.gate
  rest := World.surroundings

/-- A gate lets every call pass and never changes its state. -/
def Gate.Idle (gate : Gate γ ι) : Prop :=
  ∀ call state, gate.decide call state = (.pass, state)

theorem Gate.Idle.passes {gate : Gate γ ι} (idle : gate.Idle) : gate.Passes :=
  fun call state => congrArg Prod.fst (idle call state)

/-- A scan for all hits, which lists them in the first of the orders and uses that one up. -/
def Setting.scan (setting : Setting Orders ι ε) (ctx : Context) :
    Action (World Orders ε) (List (Hit ι)) := fun world =>
  let found := World.onHits (fun signals =>
    Hits.findAllIn setting.schema signals (world.gate 0) ctx) world
  (found.1, { found.2 with gate := fun scan => world.gate (scan + 1) })

/-- The backend of a cache in a world whose gate holds the orders of the scans to come. -/
def Setting.scanned [DecidableEq ι] (setting : Setting Orders ι ε) :
    Backend (World Orders ε) ι ε :=
  setting.backend.scanning setting.scan

/-- What depends on the surroundings only, and changes nothing else, is aside. -/
theorem aside_of_surroundings {step : World Orders ε → α × World Orders ε}
    (act : Surroundings ε → α × Surroundings ε)
    (acts : ∀ world, ((step world).1, (step world).2.surroundings) = act world.surroundings)
    (kept : ∀ world, World.layout.Keeps world (step world).2) :
    Aside World.layout World.layout step step := by
  intro s t same
  have told := acts s
  rw [show s.surroundings = t.surroundings from same, ← acts t, Prod.mk.injEq] at told
  exact ⟨told.1, told.2, kept s, kept t⟩

/-- A call of the world is made of the repository as it is, and changes nothing else. -/
def Passed (call : Action (World γ ε) α) (direct : Signals → Action Repository α)
    (world : World γ ε) : Prop :=
  (call world).1 = (direct world.signals world.repository).1 ∧
    (call world).2.repository = (direct world.signals world.repository).2 ∧
    (call world).2.gate = world.gate ∧ (call world).2.surroundings = world.surroundings

section Passed

variable {world : World γ ε} {gate : Gate γ ι} (idle : gate.Idle)

theorem Passed.map {β : Type} {call : Action (World γ ε) α} {direct : Signals → Action Repository α}
    (passed : Passed call direct world) (form : α → β) :
    Passed (call.map form) (fun signals => (direct signals).map form) world :=
  ⟨congrArg (Except.map form) passed.1, passed.2⟩

include idle

theorem passed_ask {method : Method} {queryId : Option String}
    {direct : Signals → Action Repository α} {call : Decision ι → Action (World γ ε) α}
    (passed : call .pass = onRepository direct) :
    Passed (ask gate method queryId >>= call) direct world := by
  rw [Passed, bind_apply, ask_apply, idle]
  dsimp only
  rw [passed]
  exact ⟨rfl, rfl, rfl, rfl⟩

theorem passed_gated (method : Method) (queryId : Option String) (ctx : Context) (nothing : α)
    {direct : Signals → Context → Action Repository α} :
    Passed (gated gate method queryId ctx nothing fun ctx =>
      onRepository fun signals => direct signals ctx) (fun signals => direct signals ctx)
      world := by
  apply passed_ask idle
  rfl

theorem passed_gatedFindById (ctx : Context) (id : ι)
    {direct : Signals → ι → Context → Action Repository (Option ε)} :
    Passed (gatedFindById gate ctx id fun id ctx =>
      onRepository fun signals => direct signals id ctx) (fun signals => direct signals id ctx)
      world := by
  apply passed_ask idle
  rfl

theorem passed_gatedFindByIds (ctx : Context)
    {direct : Signals → Context → Action Repository (List ε)} :
    Passed (gatedFindByIds gate ctx fun ctx => onRepository fun signals => direct signals ctx)
      (fun signals => direct signals ctx) world := by
  apply passed_ask idle
  rfl

theorem passed_gatedBegin (ctx : Context)
    {direct : Signals → Context → Action Repository Context} :
    Passed (gatedBegin gate ctx fun ctx => onRepository fun signals => direct signals ctx)
      (fun signals => direct signals ctx) world := by
  apply passed_ask idle
  rfl

theorem passed_gatedEnd (method : Method) (ctx : Context)
    {direct : Context → Action Repository Unit} {other : Context → Action (World γ ε) Unit} :
    Passed (gatedEnd gate method ctx (fun ctx => onRepository fun _ => direct ctx) other)
      (fun _ => direct ctx) world := by
  apply passed_ask idle
  rfl

end Passed

section Sources

variable {setting : Setting Orders ι ε} {ctx ctx' : Context}

theorem precheck_peers (peers : ctx.Peers ctx') (signals : Signals) :
    (Source.precheck signals ctx : Action (Source ε) Unit) = Source.precheck signals ctx' := by
  rw [Source.precheck, Source.precheck, peers.check]

theorem sourceContext_peers (peers : ctx.Peers ctx') (signals : Signals) :
    (setting.sourceContext signals ctx).Peers (setting.sourceContext signals ctx') := by
  unfold Setting.sourceContext
  split
  · exact .refl _
  · exact peers

theorem aside_onSource {action action' : Signals → Action (Source ε) α}
    (same : ∀ signals, action signals = action' signals) :
    Aside World.layout World.layout (onSource action : Action (World Orders ε) α)
      (onSource action') := by
  obtain rfl : action = action' := funext same
  exact aside_of_surroundings (fun around =>
    ((action around.signals around.source).1,
      { around with source := (action around.signals around.source).2 }))
    (fun _ => rfl) fun _ => ⟨rfl, rfl⟩

theorem aside_assigned (entity : ε) :
    Aside World.layout World.layout (setting.assigned entity)
      (setting.assigned entity) := by
  unfold Setting.assigned
  split
  · rename_i assign _
    exact aside_of_surroundings (fun around =>
      (assign around.nextPlace entity, { around with nextPlace := around.nextPlace + 1 }))
      (fun _ => rfl) fun _ => ⟨rfl, rfl⟩
  · exact aside_of_surroundings (fun around => (entity, around)) (fun _ => rfl) fun _ => ⟨rfl, rfl⟩

theorem aside_sourceFindAll (peers : ctx.Peers ctx') :
    Aside World.layout World.layout (setting.sourceFindAll ctx)
      (setting.sourceFindAll ctx') := by
  intro s t same
  have lists (signals : Signals) : Source.findAll signals (setting.sourceContext signals ctx) =
      (Source.findAll signals (setting.sourceContext signals ctx') : Action (Source ε) _) := by
    rw [Source.findAll, Source.findAll, precheck_peers (sourceContext_peers peers signals)]
  obtain ⟨told, sameLater, kept, kept'⟩ := aside_onSource lists s t same
  rw [Setting.sourceFindAll, Setting.sourceFindAll, bind_apply, bind_apply, attempt_apply,
    attempt_apply]
  generalize onSource (fun signals => Source.findAll signals (setting.sourceContext signals ctx))
    s = found at told sameLater kept ⊢
  generalize onSource (fun signals => Source.findAll signals (setting.sourceContext signals ctx'))
    t = found' at told sameLater kept' ⊢
  obtain ⟨outcome, found⟩ := found
  obtain ⟨outcome', found'⟩ := found'
  cases told
  rcases setting.outlet.cut with _ | ⟨_ | _, e⟩ <;> cases outcome <;>
    exact ⟨rfl, sameLater, kept, kept'⟩

variable [DecidableEq ι]

theorem aside_sourceCreate (peers : ctx.Peers ctx') (entity : ε) :
    Aside World.layout World.layout (setting.sourceCreate ctx entity)
      (setting.sourceCreate ctx' entity) := by
  have creates (entity : ε) (signals : Signals) :
      Source.create setting.schema signals (setting.sourceContext signals ctx) entity =
        Source.create setting.schema signals (setting.sourceContext signals ctx') entity := by
    rw [Source.create, Source.create, precheck_peers (sourceContext_peers peers signals)]
  intro s t same
  obtain ⟨sameEntity, sameNext, kept, kept'⟩ := aside_assigned entity s t same
  simp only [Setting.sourceCreate]
  generalize setting.assigned entity s = next at sameEntity sameNext kept ⊢
  generalize setting.assigned entity t = next' at sameEntity sameNext kept' ⊢
  obtain ⟨entity, next⟩ := next
  obtain ⟨_, next'⟩ := next'
  cases sameEntity
  obtain ⟨told, sameLater, keptLater, keptLater'⟩ :=
    aside_onSource (creates entity) next next' sameNext
  exact ⟨congrArg (·, entity) told, sameLater, kept.trans keptLater, kept'.trans keptLater'⟩

theorem Setting.source_aside (setting : Setting Orders ι ε) :
    setting.source.Aside World.layout where
  findById peers id := aside_onSource fun signals => by
    rw [Source.findById, Source.findById, precheck_peers (sourceContext_peers peers signals)]
  create create offered ctx ctx' peers entity := by
    rw [offered_eq_some offered]
    exact aside_sourceCreate peers entity
  update update offered ctx ctx' peers entity := by
    rw [offered_eq_some offered]
    refine aside_onSource fun signals => ?_
    rw [Source.update, Source.update, precheck_peers (sourceContext_peers peers signals)]
  deleteById delete offered ctx ctx' peers id := by
    rw [offered_eq_some offered]
    refine aside_onSource fun signals => ?_
    rw [Source.deleteById, Source.deleteById, precheck_peers (sourceContext_peers peers signals)]
  deleteAll delete offered ctx ctx' peers := by
    rw [offered_eq_some offered]
    refine aside_onSource fun signals => ?_
    rw [Source.deleteAll, Source.deleteAll, precheck_peers (sourceContext_peers peers signals)]
  findAll findAll offered ctx ctx' peers := by
    rw [offered_eq_some offered]
    exact aside_sourceFindAll peers

end Sources

/-- What is recorded is aside, and changes the surroundings in nothing. -/
theorem record_apply [DecidableEq ι] (setting : Setting Orders ι ε) (event : Event)
    (world : World Orders ε) :
    (setting.scanned.record event world).1 = .ok () ∧
      (setting.scanned.record event world).2.surroundings = world.surroundings ∧
      World.layout.Keeps world (setting.scanned.record event world).2 := by
  change _ ∧ (if setting.records then { world with events := world.events ++ [event] } else world :
    World Orders ε).surroundings = _ ∧ World.layout.Keeps _ (if setting.records then
      { world with events := world.events ++ [event] } else world)
  split <;> exact ⟨rfl, rfl, rfl, rfl⟩

/-- Where the gate is idle, a world is a smooth backend, in whatever orders scans list hits. -/
theorem Setting.smooth [DecidableEq ι] (setting : Setting Orders ι ε) (idle : setting.gate.Idle) :
    setting.scanned.Smooth World.layout Surroundings.signals where
  request ctx request world := by
    cases request with
    | begin => exact (passed_gatedBegin idle ctx).map _
    | commit => exact (passed_gatedEnd idle .commit ctx).map _
    | rollback => exact (passed_gatedEnd idle .rollback ctx).map _
    | findEntity id => exact (passed_gatedFindById idle ctx id).map _
    | findEntities ids => exact (passed_gatedFindByIds idle ctx).map _
    | createEntity entity => exact (passed_gated idle .entitiesCreate none ctx ()).map _
    | updateEntity entity => exact (passed_gated idle .entitiesUpdate none ctx ()).map _
    | upsertEntities entities => exact (passed_gated idle .entitiesUpsert none ctx ()).map _
    | deleteEntity id => exact (passed_gated idle .entitiesDeleteById none ctx ()).map _
    | deleteEntities => exact (passed_gated idle .entitiesDeleteAll none ctx ()).map _
    | createHit hit => exact (passed_gated idle .hitsCreate _ ctx ()).map _
    | updateHit hit => exact (passed_gated idle .hitsUpdate _ ctx ()).map _
    | findHit queryId => exact (passed_gated idle .hitsFindById _ ctx none).map _
    | findHits => exact ⟨rfl, rfl, rfl, rfl⟩
    | deleteHit queryId => exact (passed_gated idle .hitsDeleteById _ ctx ()).map _
    | deleteHits => exact (passed_gated idle .hitsDeleteAll none ctx ()).map _
  check ctx world := rfl
  record event world := record_apply setting event world
  nesting world place view sound seen := by
    have count := World.size_le_hitCount sound.ordered (Repository.seen_eq_ok.mp seen).1
    exact Nat.lt_of_le_of_lt count (setting.hitCount_lt_nesting world)
  now := aside_of_surroundings (fun around => (.ok around.clock, around)) (fun _ => rfl)
    fun _ => ⟨rfl, rfl⟩
  source := setting.source_aside

end QueryCache.Simulation
