import QueryCache.Engine.Query
import QueryCache.Engine.Update
import QueryCache.Proofs.Calls
import QueryCache.Proofs.Reach
import QueryCache.Proofs.Worlds

/-!
# A cache where nothing fails

What a cache does in a world whose gate lets every call pass, whose stores are not made to fail,
in a live context. There a context always sees some rows in either table: its view. `Leads` says
which view an action leads to and how it ends, from any world in which the context sees a given
view; it has one rule for each call of the stores, one for transactions, and one for each way of
building actions.
-/

namespace QueryCache.Simulation

open QueryCache.Action World

variable {γ ι ε α β : Type}

/-- What the stores have no part in: the signals, the clock, and what the source holds. -/
structure Scene (ε : Type) where
  signals : Signals
  clock : Time.Timestamp
  rows : List ε
  failure : Option Error

/-- The scene of a world. -/
def World.scene (world : World γ ε) : Scene ε :=
  ⟨world.signals, world.clock, world.source.rows, world.source.failure⟩

/-- In a scene, a live context sees the rows of a view, and the stores are not made to fail. -/
structure Sees (schema : Schema ι ε) (scene : Scene ε) (ctx : Context) (view : View)
    (world : World γ ε) : Prop where
  inScene : world.scene = scene
  sound : world.repository.Sound schema
  hits : world.repository.hits.Shows scene.signals ctx view.hits
  copies : world.repository.entities.Shows scene.signals ctx view.copies

section Sees

variable {schema : Schema ι ε} {scene : Scene ε} {ctx : Context} {view : View} {world : World γ ε}

theorem Sees.signals (sees : Sees schema scene ctx view world) : world.signals = scene.signals :=
  congrArg Scene.signals sees.inScene

theorem Sees.rows (sees : Sees schema scene ctx view world) : world.source.rows = scene.rows :=
  congrArg Scene.rows sees.inScene

theorem Sees.failure (sees : Sees schema scene ctx view world) :
    world.source.failure = scene.failure :=
  congrArg Scene.failure sees.inScene

/-- Hits are seen in the rows of their queries. -/
theorem Sees.keyed (sees : Sees schema scene ctx view world) : view.Keyed schema := by
  rintro key hit ⟨bytes, present, decoded⟩
  have legal := sees.sound.keyed.view sees.hits.ordered sees.hits.view
  exact legal key bytes present bytes hit rfl decoded

/-- Nowhere are more hits seen than the repository holds. -/
theorem World.size_le_hitCount (ordered : world.repository.hits.Ordered) {place : Option TxId}
    {rows : Rows} (shown : world.repository.hits.view place = .ok rows) :
    rows.size ≤ world.hitCount := by
  let table := world.repository.hits
  let staged := table.overlays.toList.map fun place => place.2.changes.keys
  let keys := table.rows.keys ++ staged.flatten
  have obeys : table.Obeys fun key _ => key ∈ keys := by
    refine ⟨fun key bytes stored => ?_, fun {tx overlay} present key change changed => ?_⟩
    · have member : key ∈ table.rows.keys := by
        rw [Std.ExtTreeMap.mem_keys, Std.ExtTreeMap.mem_iff_isSome_getElem?, stored]
        rfl
      exact List.mem_append_left _ member
    · have member : key ∈ overlay.changes.keys := by
        rw [Std.ExtTreeMap.mem_keys, Std.ExtTreeMap.mem_iff_isSome_getElem?, changed]
        rfl
      have isStaged : overlay.changes.keys ∈ staged :=
        List.mem_map.mpr
          ⟨(tx, overlay), Std.ExtTreeMap.mem_toList_iff_getElem?_eq_some.mpr present, rfl⟩
      exact List.mem_append_right _ (List.mem_flatten.mpr ⟨_, isStaged, member⟩)
  have count : keys.length = world.hitCount := by
    have folded (places : List (TxId × Overlay)) (start : Nat) :
        places.foldl (fun count place => count + place.2.changes.size) start =
          start + (places.map fun place => place.2.changes.keys).flatten.length := by
      induction places generalizing start with
      | nil => rfl
      | cons place places inductionHypothesis =>
          simp [inductionHypothesis, Nat.add_assoc]
    simp only [keys, staged, World.hitCount, table, List.length_append,
      Std.ExtTreeMap.foldl_eq_foldl_toList, folded, Std.ExtTreeMap.length_keys]
  exact count ▸ Rows.size_le_length (obeys.view ordered shown)

theorem Sees.size_le_hitCount (sees : Sees schema scene ctx view world) :
    view.hits.size ≤ world.hitCount :=
  World.size_le_hitCount sees.hits.ordered sees.hits.view

end Sees

/-- From every world in which a context sees a view, an action ends, and leads to a view, as
stated; the scene stays, and what it does stays within the transaction of the context. -/
def Leads (schema : Schema ι ε) (scene : Scene ε) (ctx : Context) (view : View)
    (action : Action (World γ ε) α) (post : Except Error α → View → Prop) : Prop :=
  ∀ world, Sees schema scene ctx view world → ∃ later,
    Sees schema scene ctx later (action world).2 ∧
    Repository.Frame ctx.tx world.repository (action world).2.repository ∧
    post (action world).1 later

/-- An action that leads to success. -/
def Ensures (schema : Schema ι ε) (scene : Scene ε) (ctx : Context) (view : View)
    (action : Action (World γ ε) α) (post : α → View → Prop) : Prop :=
  Leads schema scene ctx view action fun outcome later =>
    ∃ value, outcome = .ok value ∧ post value later

/-- An action that leads to one view and ends in one way. -/
def Ends (schema : Schema ι ε) (scene : Scene ε) (ctx : Context) (view : View)
    (action : Action (World γ ε) α) (result : Except Error α) (after : View) : Prop :=
  Leads schema scene ctx view action fun outcome later => outcome = result ∧ later = after

section Rules

variable {schema : Schema ι ε} {scene : Scene ε} {ctx : Context} {view : View}

theorem Leads.weaken {action : Action (World γ ε) α} {post weaker : Except Error α → View → Prop}
    (leads : Leads schema scene ctx view action post)
    (weaken : ∀ outcome later, post outcome later → weaker outcome later) :
    Leads schema scene ctx view action weaker := by
  intro world sees
  obtain ⟨later, sees, frame, holds⟩ := leads world sees
  exact ⟨later, sees, frame, weaken _ _ holds⟩

theorem Ensures.weaken {action : Action (World γ ε) α} {post weaker : α → View → Prop}
    (ensures : Ensures schema scene ctx view action post)
    (weaken : ∀ value later, post value later → weaker value later) :
    Ensures schema scene ctx view action weaker := by
  refine Leads.weaken ensures ?_
  rintro outcome later ⟨value, succeeds, holds⟩
  exact ⟨value, succeeds, weaken value later holds⟩

theorem ensures_pure {value : α} {post : α → View → Prop} (holds : post value view) :
    Ensures schema scene ctx view (Pure.pure value : Action (World γ ε) α) post :=
  fun _ sees => ⟨view, sees, .refl _ _, value, rfl, holds⟩

theorem ends_pure (value : α) :
    Ends schema scene ctx view (Pure.pure value : Action (World γ ε) α) (.ok value) view :=
  fun _ sees => ⟨view, sees, .refl _ _, rfl, rfl⟩

theorem ends_liftM {result outcome : Except Error α} (known : result = outcome) :
    Ends schema scene ctx view (liftM result : Action (World γ ε) α) outcome view :=
  fun _ sees => ⟨view, sees, .refl _ _, known, rfl⟩

theorem Leads.bind {first : Action (World γ ε) α} {second : α → Action (World γ ε) β}
    {middle : Except Error α → View → Prop} {post : Except Error β → View → Prop}
    (atFirst : Leads schema scene ctx view first middle)
    (atSecond : ∀ value between, middle (.ok value) between →
      Leads schema scene ctx between (second value) post)
    (atError : ∀ e between, middle (.error e) between → post (.error e) between) :
    Leads schema scene ctx view (first >>= second) post := by
  intro world sees
  obtain ⟨between, seesBetween, frame, holds⟩ := atFirst world sees
  rw [bind_apply]
  generalize first world = reached at seesBetween frame holds
  obtain ⟨outcome, reached⟩ := reached
  cases outcome with
  | error e => exact ⟨between, seesBetween, frame, atError e between holds⟩
  | ok value =>
      obtain ⟨later, sees, frame', holds⟩ := atSecond value between holds reached seesBetween
      exact ⟨later, sees, frame.trans frame', holds⟩

theorem Ensures.bind {first : Action (World γ ε) α} {second : α → Action (World γ ε) β}
    {middle : α → View → Prop} {post : Except Error β → View → Prop}
    (atFirst : Ensures schema scene ctx view first middle)
    (atSecond : ∀ value between, middle value between →
      Leads schema scene ctx between (second value) post) :
    Leads schema scene ctx view (first >>= second) post := by
  refine Leads.bind atFirst ?_ ?_
  · rintro value between ⟨same, equal, holds⟩
    cases equal
    exact atSecond _ between holds
  · rintro e between ⟨value, impossible, -⟩
    cases impossible

theorem Ends.bind {first : Action (World γ ε) α} {second : α → Action (World γ ε) β} {value : α}
    {middle : View} {post : Except Error β → View → Prop}
    (atFirst : Ends schema scene ctx view first (.ok value) middle)
    (atSecond : Leads schema scene ctx middle (second value) post) :
    Leads schema scene ctx view (first >>= second) post := by
  refine Leads.bind atFirst ?_ ?_
  · rintro _ _ ⟨equal, rfl⟩
    cases equal
    exact atSecond
  · rintro e _ ⟨impossible, -⟩
    cases impossible

theorem Ends.to {action : Action (World γ ε) α} {result outcome : Except Error α} {after : View}
    (ends : Ends schema scene ctx view action result after) (known : result = outcome) :
    Ends schema scene ctx view action outcome after :=
  known ▸ ends

theorem Ends.attempt {action : Action (World γ ε) α} {result : Except Error α} {after : View}
    (ends : Ends schema scene ctx view action result after) :
    Ends schema scene ctx view action.attempt (.ok result) after := by
  intro world sees
  obtain ⟨later, sees, frame, outcome, same⟩ := ends world sees
  exact ⟨later, sees, frame, congrArg Except.ok outcome, same⟩

theorem Ends.ensures {action : Action (World γ ε) α} {value : α} {after : View}
    {post : α → View → Prop} (ends : Ends schema scene ctx view action (.ok value) after)
    (holds : post value after) : Ensures schema scene ctx view action post := by
  refine Leads.weaken ends ?_
  rintro _ _ ⟨rfl, rfl⟩
  exact ⟨value, rfl, holds⟩

theorem Leads.attempt {action : Action (World γ ε) α} {post : Except Error α → View → Prop}
    (leads : Leads schema scene ctx view action post) :
    Ensures schema scene ctx view action.attempt post := by
  intro world sees
  obtain ⟨later, sees, frame, holds⟩ := leads world sees
  exact ⟨later, sees, frame, (action world).1, rfl, holds⟩

/-- Actions one after the other, each of which leads a step on and reaches something that further
steps keep, lead to where all of it is reached. -/
theorem ensures_each {action : α → Action (World γ ε) Unit} {items : List α}
    {step : View → View → Prop} {reached : α → View → Prop} (refl : ∀ start, step start start)
    (trans : ∀ start middle later, step start middle → step middle later → step start later)
    (keeps : ∀ item middle later, reached item middle → step middle later → reached item later)
    (one : ∀ item ∈ items, ∀ middle, step view middle →
      Ensures schema scene ctx middle (action item) fun _ later =>
        step middle later ∧ reached item later) :
    Ensures schema scene ctx view (Action.each action items) fun _ later =>
      step view later ∧ ∀ item ∈ items, reached item later := by
  induction items generalizing view with
  | nil => exact ensures_pure ⟨refl view, fun _ member => nomatch member⟩
  | cons item items inductionHypothesis =>
      refine Ensures.bind (one item List.mem_cons_self view (refl view)) ?_
      rintro _ between ⟨first, reachedFirst⟩
      refine Ensures.weaken (inductionHypothesis fun other member middle onward => ?_) ?_
      · exact one other (List.mem_cons_of_mem _ member) middle (trans _ _ _ first onward)
      · rintro _ later ⟨onward, reachedAll⟩
        refine ⟨trans _ _ _ first onward, fun other member => ?_⟩
        rcases List.mem_cons.mp member with rfl | member
        · exact keeps other between later reachedFirst onward
        · exact reachedAll other member

/-- In a new transaction the same is seen as in the one around it. -/
theorem sees_opening {world : World γ ε} (sees : Sees schema scene ctx view world) (gate : γ) :
    Sees schema scene (ctx.withTx (world.repository.lastTx + 1)) view
      { world with repository := world.repository.opening ctx.tx, gate } := by
  have sound := sees.sound.opening sees.hits.opened
  refine ⟨sees.inScene, sound, ⟨sound.ordered, sees.hits.healthy, sees.hits.live, ?_⟩,
    ⟨sound.entitiesOrdered, sees.copies.healthy, sees.copies.live, ?_⟩⟩
  · exact (Table.view_opening sees.sound.ordered sound.ordered).trans sees.hits.view
  · exact (Table.view_opening sees.sound.entitiesOrdered sound.entitiesOrdered).trans
      sees.copies.view

/-- What is seen in a transaction is seen in the one around it after the commit. -/
theorem sees_commit {world : World γ ε} {tx : TxId}
    (sees : Sees schema scene (ctx.withTx tx) view world)
    (isOpen : world.repository.hits.opened tx = some ctx.tx)
    (parentOpen : ∀ outer, ctx.tx = some outer → (world.repository.hits.opened outer).isSome)
    (gate : γ) :
    Sees schema scene ctx view
      { world with
        repository := (Repository.commit (ctx.withTx tx) world.repository).2
        gate } := by
  have inside : (ctx.withTx tx).tx = some tx := rfl
  have sound : (Repository.commit (ctx.withTx tx) world.repository).2.Sound schema :=
    sees.sound.commit
  have entitiesOpen := (sees.sound.paired tx).trans isOpen
  rw [sees.sound.commit_of_open inside isOpen parentOpen] at sound ⊢
  refine ⟨sees.inScene, sound, ⟨sound.ordered, ?_, sees.hits.live, ?_⟩,
    ⟨sound.entitiesOrdered, ?_, sees.copies.live, ?_⟩⟩
  · exact Table.failure_commit.trans sees.hits.healthy
  · exact Table.view_commit sees.sound.ordered isOpen sees.hits.view
  · exact Table.failure_commit.trans sees.copies.healthy
  · exact Table.view_commit sees.sound.entitiesOrdered entitiesOpen sees.copies.view

end Rules

section Calls

variable {schema : Schema ι ε} {scene : Scene ε} {ctx : Context} {view : View}

theorem ends_onHits {direct : Signals → Action Table α}
    (along : (direct scene.signals).Along (Hits.Edits schema ctx.tx)) {result : Except Error α}
    {rows : Rows}
    (turns : Table.Turns scene.signals ctx view.hits (direct scene.signals) result rows) :
    Ends schema scene ctx view (World.onHits direct : Action (World γ ε) α) result
      { view with hits := rows } := by
  intro world sees
  obtain ⟨outcome, shows⟩ := turns world.repository.hits sees.hits
  have edits : Repository.Edits schema ctx.tx world.repository
      (Repository.onHits (direct scene.signals) world.repository).2 :=
    (Repository.edited_onHits along world.repository).edits
  rw [← sees.signals] at outcome shows edits
  refine ⟨{ view with hits := rows }, ⟨sees.inScene, sees.sound.edits edits, ?_, sees.copies⟩,
    .edits edits, outcome, rfl⟩
  rw [← sees.signals]
  exact shows

theorem ends_onEntities {direct : Signals → Action Table α}
    (along : (direct scene.signals).Along (Entities.Edits ctx.tx)) {result : Except Error α}
    {rows : Rows}
    (turns : Table.Turns scene.signals ctx view.copies (direct scene.signals) result rows) :
    Ends schema scene ctx view (World.onEntities direct : Action (World γ ε) α) result
      { view with copies := rows } := by
  intro world sees
  obtain ⟨outcome, shows⟩ := turns world.repository.entities sees.copies
  have edits : Repository.Edits schema ctx.tx world.repository
      (Repository.onEntities (direct scene.signals) world.repository).2 :=
    (Repository.edited_onEntities along world.repository).edits
  rw [← sees.signals] at outcome shows edits
  refine ⟨{ view with copies := rows }, ⟨sees.inScene, sees.sound.edits edits, sees.hits, ?_⟩,
    .edits edits, outcome, rfl⟩
  rw [← sees.signals]
  exact shows

/-- A gate that lets every call pass changes nothing that can be seen. -/
theorem leads_ask {gate : Gate γ ι} (passes : gate.Passes) {method : Method}
    {queryId : Option String} {call : Decision ι → Action (World γ ε) α}
    {post : Except Error α → View → Prop}
    (leads : Leads schema scene ctx view (call .pass) post) :
    Leads schema scene ctx view (ask gate method queryId >>= call) post := by
  intro world sees
  have passed := leads { world with gate := (gate.decide ⟨method, queryId⟩ world.gate).2 }
    ⟨sees.inScene, sees.sound, sees.hits, sees.copies⟩
  rw [bind_apply, ask_apply, passes]
  exact passed

end Calls

section Stores

variable [DecidableEq ι] {setting : Setting γ ι ε} {scene : Scene ε} {ctx : Context} {view : View}

theorem check_apply {world : World γ ε} (sees : Sees setting.schema scene ctx view world) :
    setting.backend.check ctx world = (.ok (), world) := by
  change (ctx.check world.signals, world) = _
  rw [sees.signals, sees.hits.live]

theorem ends_check :
    Ends setting.schema scene ctx view (setting.backend.check ctx) (.ok ()) view := by
  intro world sees
  rw [check_apply sees]
  exact ⟨view, sees, .refl _ _, rfl, rfl⟩

theorem ends_now : Ends setting.schema scene ctx view setting.backend.now (.ok scene.clock) view :=
  fun _ sees => ⟨view, sees, .refl _ _, congrArg (Except.ok ∘ Scene.clock) sees.inScene, rfl⟩

theorem ends_record (event : Event) :
    Ends setting.schema scene ctx view (setting.backend.record event) (.ok ()) view := by
  intro world sees
  have same : (setting.backend.record event world).2.repository = world.repository ∧
      (setting.backend.record event world).2.scene = world.scene := by
    change (if setting.records then { world with events := world.events ++ [event] } else world :
      World γ ε).repository = _ ∧ (if setting.records then { world with
        events := world.events ++ [event] } else world : World γ ε).scene = _
    split <;> exact ⟨rfl, rfl⟩
  refine ⟨view, ⟨?_, ?_, ?_, ?_⟩, ?_, rfl, rfl⟩
  · rw [same.2, sees.inScene]
  all_goals rw [same.1]
  · exact sees.sound
  · exact sees.hits
  · exact sees.copies
  · exact .refl _ _

variable (passes : setting.gate.Passes)
include passes

theorem ends_findHit (queryId : String) :
    Ends setting.schema scene ctx view (setting.backend.hits.findById ctx queryId)
      (told setting.schema.decodeHit view.hits[queryId]?) view := by
  refine leads_ask passes ?_
  apply ends_onHits
  · exact Hits.along_findById _ _ _ _
  · exact Hits.turns_findById _ queryId

/-- Looking for a hit that is not there changes nothing but the state of the gate. -/
theorem findHit_of_absent {world : World γ ε} (sees : Sees setting.schema scene ctx view world)
    {queryId : String} (absent : view.hits[queryId]? = none) :
    ∃ gate, setting.backend.hits.findById ctx queryId world = (.ok none, { world with gate }) := by
  have missing := Hits.findById_of_absent setting.schema sees.hits absent
  refine ⟨(setting.gate.decide ⟨.hitsFindById, some queryId⟩ world.gate).2, ?_⟩
  change (World.ask setting.gate .hitsFindById (some queryId) >>= _) world = _
  rw [bind_apply, ask_apply, passes]
  simp only [carryOut, onHits, onRepository, Repository.onHits, within_apply, sees.signals, missing]

theorem ends_findHits :
    Ends setting.schema scene ctx view (setting.backend.hits.findAll ctx)
      (Hits.ofRows setting.schema view.hits) view := by
  refine leads_ask passes ?_
  apply ends_onHits
  · exact Hits.along_findAllIn _ _ _ _
  · exact Hits.turns_findAllIn _ _

theorem ends_deleteHit {queryId : String} {bytes : Wire.Bytes}
    (present : view.hits[queryId]? = some bytes) :
    Ends setting.schema scene ctx view (setting.backend.hits.deleteById ctx queryId) (.ok ())
      { view with hits := view.hits.erase queryId } := by
  refine leads_ask passes ?_
  apply ends_onHits
  · exact Hits.along_deleteById _ _ _ (Hits.legal_none _ _)
  · exact Hits.turns_deleteById present

theorem ends_findEntity {id : ι} {key : String} (named : setting.schema.entityKey id = .ok key) :
    Ends setting.schema scene ctx view (setting.backend.entities.findById ctx id)
      (told setting.schema.decode view.copies[key]?) view := by
  refine leads_ask passes ?_
  apply ends_onEntities
  · exact Entities.along_findById _ _ _ _
  · exact Entities.turns_findById _ named

theorem ends_findEntity_of_unnamed {id : ι} {e : Error}
    (unnamed : setting.schema.entityKey id = .error e) :
    Ends setting.schema scene ctx view (setting.backend.entities.findById ctx id) (.error e)
      view := by
  refine leads_ask passes ?_
  apply ends_onEntities
  · exact Entities.along_findById _ _ _ _
  · exact Table.turns_precheck.bind (Table.turns_liftM unnamed).bind_error

theorem ends_deleteEntity {id : ι} {key : String} (named : setting.schema.entityKey id = .ok key)
    {bytes : Wire.Bytes} (present : view.copies[key]? = some bytes) :
    Ends setting.schema scene ctx view (setting.backend.entities.deleteById ctx id) (.ok ())
      { view with copies := view.copies.erase key } := by
  refine leads_ask passes ?_
  apply ends_onEntities
  · exact Entities.along_deleteById _ _ _ _ fun _ => trivial
  · exact Entities.turns_deleteById _ named present

theorem ends_deleteEntities :
    Ends setting.schema scene ctx view (setting.backend.entities.deleteAll ctx) (.ok ())
      { view with copies := ∅ } := by
  refine leads_ask passes ?_
  apply ends_onEntities
  · exact Entities.along_deleteAll _ _
  · exact Entities.turns_deleteAll

theorem ends_deleteHits :
    Ends setting.schema scene ctx view (setting.backend.hits.deleteAll ctx) (.ok ())
      { view with hits := ∅ } := by
  refine leads_ask passes ?_
  apply ends_onHits
  · exact Hits.along_deleteAll _ _
  · exact Hits.turns_deleteAll

theorem ends_createHit {hit : Hit ι} {bytes : Wire.Bytes}
    (encoded : setting.schema.encodeHit hit = .ok bytes) :
    Ends setting.schema scene ctx view (setting.backend.hits.create ctx hit) (.ok ())
      { view with hits := view.hits.insert hit.queryId bytes } := by
  refine leads_ask passes ?_
  apply ends_onHits
  · exact Hits.along_create _ _ _ (Hits.allows_legal _ _)
  · exact Hits.turns_create _ encoded

theorem ends_findEntities (ids : List ι) :
    Ends setting.schema scene ctx view (setting.backend.entities.findByIds ctx ids)
      (Entities.gathered setting.schema view.copies ids) view := by
  refine leads_ask passes ?_
  apply ends_onEntities
  · exact Entities.along_findByIds _ _ _ _
  · exact Entities.turns_findByIds _ ids

theorem ensures_upsert {entities : List ε}
    (keeps : ∀ entity ∈ entities, setting.schema.Keeps entity)
    (named : ∀ entity ∈ entities,
      ∃ key, setting.schema.entityKey (setting.schema.idOf entity) = .ok key) :
    Ensures setting.schema scene ctx view (setting.backend.entities.upsert ctx entities)
      fun _ later => later.hits = view.hits ∧
        Copied setting.schema entities view.copies later.copies := by
  obtain ⟨copies, copied, turns⟩ := Entities.turns_upsert setting.schema keeps named
  have ends : Ends setting.schema scene ctx view (setting.backend.entities.upsert ctx entities)
      (.ok ()) { view with copies } := by
    refine leads_ask passes ?_
    apply ends_onEntities
    · exact Entities.along_upsert _ _ _ fun _ _ => Entities.allows_all _ _
    · exact turns
  exact ends.ensures ⟨rfl, copied⟩

section Entity

variable {entity : ε} {key : String}
  (named : setting.schema.entityKey (setting.schema.idOf entity) = .ok key)
include named

theorem ensures_createEntity (keeps : setting.schema.Keeps entity)
    (absent : view.copies[key]? = none) :
    Ensures setting.schema scene ctx view (setting.backend.entities.create ctx entity)
      fun _ later => later.hits = view.hits ∧
        Copied setting.schema [entity] view.copies later.copies := by
  obtain ⟨copies, copied, turns⟩ := Entities.turns_create setting.schema keeps named absent
  have ends : Ends setting.schema scene ctx view (setting.backend.entities.create ctx entity)
      (.ok ()) { view with copies } := by
    refine leads_ask passes ?_
    apply ends_onEntities
    · exact Entities.along_create _ _ _ (Entities.allows_all _ _)
    · exact turns
  exact ends.ensures ⟨rfl, copied⟩

theorem ensures_updateEntity (keeps : setting.schema.Keeps entity) {old : Wire.Bytes}
    (present : view.copies[key]? = some old) :
    Ensures setting.schema scene ctx view (setting.backend.entities.update ctx entity)
      fun _ later => later.hits = view.hits ∧
        Copied setting.schema [entity] view.copies later.copies := by
  obtain ⟨copies, copied, turns⟩ := Entities.turns_update setting.schema keeps named present
  have ends : Ends setting.schema scene ctx view (setting.backend.entities.update ctx entity)
      (.ok ()) { view with copies } := by
    refine leads_ask passes ?_
    apply ends_onEntities
    · exact Entities.along_update _ _ _ (Entities.allows_all _ _)
    · exact turns
  exact ends.ensures ⟨rfl, copied⟩

theorem ends_updateEntity_of_absent (absent : view.copies[key]? = none) :
    Ends setting.schema scene ctx view (setting.backend.entities.update ctx entity)
      (.error (.notFound key)) view := by
  refine leads_ask passes ?_
  apply ends_onEntities
  · exact Entities.along_update _ _ _ (Entities.allows_all _ _)
  · exact Entities.turns_update_of_absent _ named absent

end Entity

theorem begin_apply (ctx : Context) (world : World γ ε) :
    setting.backend.begin ctx world =
      ((Repository.begin world.signals ctx world.repository).1, { world with
        repository := (Repository.begin world.signals ctx world.repository).2
        gate := (setting.gate.decide ⟨.begin, none⟩ world.gate).2 }) := by
  change (ask setting.gate .begin none >>= _) world = _
  rw [bind_apply, ask_apply, passes]
  rfl

theorem commit_apply (ctx : Context) (world : World γ ε) :
    setting.backend.commit ctx world =
      ((Repository.commit ctx world.repository).1, { world with
        repository := (Repository.commit ctx world.repository).2
        gate := (setting.gate.decide ⟨.commit, none⟩ world.gate).2 }) := by
  change (ask setting.gate .commit none >>= _) world = _
  rw [bind_apply, ask_apply, passes]
  rfl

/-- Where a view is seen, a transaction is opened for work, and ended as the work ended. -/
theorem transact_apply {world : World γ ε} (sees : Sees setting.schema scene ctx view world)
    (work : Context → Action (World γ ε) Unit) :
    ∃ gate, setting.backend.transact ctx work world =
      let opened : World γ ε := { world with repository := world.repository.opening ctx.tx, gate }
      let tx := ctx.withTx (world.repository.lastTx + 1)
      setting.backend.finish tx (work tx opened).1 (work tx opened).2 := by
  have begun : Repository.begin world.signals ctx world.repository =
      (.ok (ctx.withTx (world.repository.lastTx + 1)), world.repository.opening ctx.tx) := by
    rw [sees.signals]
    exact Repository.begin_of_open sees.hits.live sees.copies.opened sees.hits.opened
  refine ⟨(setting.gate.decide ⟨.begin, none⟩ world.gate).2, ?_⟩
  rw [Backend.transact, bind_apply, begin_apply passes, begun]
  rfl

/-- Work in a transaction of its own leads to what the work leads to. -/
theorem ensures_transact {work : Context → Action (World γ ε) Unit} {post : View → Prop}
    (inner : ∀ tx, Ensures setting.schema scene (ctx.withTx tx) view (work (ctx.withTx tx))
      fun _ later => post later) :
    Ensures setting.schema scene ctx view (setting.backend.transact ctx work)
      fun _ later => post later := by
  intro world sees
  obtain ⟨gate, applied⟩ := transact_apply passes sees work
  obtain ⟨later, seesLater, frame, value, succeeds, holds⟩ := inner _ _ (sees_opening sees gate)
  rw [applied]
  dsimp only at seesLater frame succeeds ⊢
  generalize work (ctx.withTx (world.repository.lastTx + 1))
    { world with repository := world.repository.opening ctx.tx, gate } = done
    at seesLater frame succeeds ⊢
  obtain ⟨outcome, done⟩ := done
  cases succeeds
  have isOpen : done.repository.hits.opened (world.repository.lastTx + 1) = some ctx.tx := by
    have newest := frame.hits.opened (world.repository.lastTx + 1) (Nat.le_refl _)
    rw [newest, Repository.opening, Table.opened_opening, if_pos rfl]
  have parentOpen outer (inside : ctx.tx = some outer) :
      (done.repository.hits.opened outer).isSome := by
    have openBefore := sees.hits.opened outer inside
    have older := sees.sound.le_lastTx outer openBefore
    have same := frame.hits.opened outer (Nat.le_succ_of_le older)
    rw [same, Repository.opening, Table.opened_opening,
      if_neg (Nat.ne_of_lt (Nat.lt_succ_of_le older))]
    exact openBefore
  have entitiesOpen := (seesLater.sound.paired _).trans isOpen
  have inside : (ctx.withTx (world.repository.lastTx + 1)).tx = some _ := rfl
  have committed := seesLater.sound.commit_of_open inside isOpen parentOpen
  change ∃ later, Sees _ _ _ _ (setting.backend.commit _ done).2 ∧
    Repository.Frame _ _ (setting.backend.commit _ done).2.repository ∧
    ∃ value, (setting.backend.commit _ done).1 = .ok value ∧ post later
  rw [commit_apply passes]
  refine ⟨later, sees_commit seesLater isOpen parentOpen _, ?_, (), ?_, holds⟩
  · rw [committed]
    have opening : Repository.Frame (some (world.repository.lastTx + 1)) world.repository
        (world.repository.opening ctx.tx) := .opening _ ctx.tx _
    exact (opening.trans frame).publish (Nat.lt_succ_self _) entitiesOpen isOpen
  · rw [committed]

end Stores

end QueryCache.Simulation
