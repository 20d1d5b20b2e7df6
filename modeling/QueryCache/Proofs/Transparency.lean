import QueryCache.Proofs.Changes
import QueryCache.Simulation.Entry

/-!
# A cache is transparent

A script is what callers do with a cache over time: every moment has its own signals, clock and
context. The same script can be played on the source alone, where everything that concerns only the
cache is left out. Where nothing fails, and the source is changed through the cache only, all that
callers are told of single entities is the same in both plays, and no copy is ever out of date.

What may be stored has to be read back as it was. This is asked only of what the script stores:
texts and lists that are too long for any encoding need not be readable.
-/

namespace QueryCache.Simulation

variable {γ σ ι ε α : Type}

/-- What a caller does. A query comes with the answer that its closure gives. -/
inductive Operation (ι ε : Type)
  | create (entity : ε)
  | update (entity : ε)
  | deleteById (id : ι)
  | deleteAll
  | findById (id : ι)
  | findAll
  | invalidate (start : Node ι)
  | dropAll
  | queryMany (key : String) (answer : List ε)
  | queryOne (key : String) (answer : Option ε)

/-- What a caller is told. Of operations that a source alone does not have, nothing is told. -/
inductive Response (ε : Type)
  | created (outcome : Except Error Unit) (entity : ε)
  | done (outcome : Except Error Unit)
  | found (outcome : Except Error (Option ε))
  | nothing

/-- An operation at a moment. -/
structure Moment (ι ε : Type) where
  signals : Signals
  clock : Time.Timestamp
  ctx : Context
  operation : Operation ι ε

/-- What an action ended in, as a caller is told of it. -/
def answered (form : Except Error α → Response ε) (ended : Except Error α × σ) :
    Response ε × σ :=
  (form ended.1, ended.2)

namespace Operation

variable [DecidableEq ι]

/-- An operation through a cache. -/
def onCache (backend : Backend σ ι ε) (ctx : Context) : Operation ι ε → σ → Response ε × σ
  | .create entity, s =>
      let ((outcome, entity), s) := backend.create ctx entity s
      (.created outcome entity, s)
  | .update entity, s => answered .done (backend.update ctx entity s)
  | .deleteById id, s => answered .done (backend.deleteById ctx id s)
  | .deleteAll, s => answered .done (backend.deleteAll ctx s)
  | .findById id, s => answered .found (backend.findById ctx id s)
  | .findAll, s => (.nothing, (backend.findAll ctx s).2)
  | .invalidate start, s => (.nothing, (backend.invalidate ctx start s).2)
  | .dropAll, s => (.nothing, (backend.dropAll ctx s).2)
  | .queryMany key answer, s => (.nothing, (backend.queryMany ctx key (pure answer) s).2)
  | .queryOne key answer, s => (.nothing, (backend.queryOne ctx key (pure answer) s).2)

/-- An operation on a source alone. -/
def onSource (schema : Schema ι ε) (signals : Signals) (ctx : Context) :
    Operation ι ε → Source ε → Response ε × Source ε
  | .create entity, source =>
      answered (.created · entity) (Source.create schema signals ctx entity source)
  | .update entity, source => answered .done (Source.update schema signals ctx entity source)
  | .deleteById id, source => answered .done (Source.deleteById schema signals ctx id source)
  | .deleteAll, source => answered .done (Source.deleteAll signals ctx source)
  | .findById id, source => answered .found (Source.findById schema signals ctx id source)
  | _, source => (.nothing, source)

/-- What a script may do where the source holds the given rows. An entity that is written can be
stored and read back, and so can the hit of a query. A query that is not the query for one entity
is answered with rows. -/
def Legal (schema : Schema ι ε) (rows : List ε) (clock : Time.Timestamp) : Operation ι ε → Prop
  | .create entity => schema.Keeps entity
  | .update entity => schema.Keeps entity
  | .findById id => ∀ key, schema.findByIdKey id = .ok key →
      schema.KeepsHit ⟨key, (Source.rowOf schema id rows).toList.map schema.idOf, clock⟩
  | .findAll => schema.KeepsHit ⟨QueryKey.findAll.encode, rows.map schema.idOf, clock⟩
  | .queryMany key answer => (∀ id, schema.findByIdKey id ≠ .ok key) ∧
      (∀ entity ∈ answer, entity ∈ rows) ∧
      schema.KeepsHit ⟨key, answer.map schema.idOf, clock⟩
  | .queryOne key answer => (∀ id, schema.findByIdKey id ≠ .ok key) ∧
      (∀ entity ∈ answer, entity ∈ rows) ∧
      schema.KeepsHit ⟨key, answer.toList.map schema.idOf, clock⟩
  | _ => True

end Operation

namespace Moment

variable [DecidableEq ι]

/-- A moment of a cache in a world. -/
def onCache (setting : Setting γ ι ε) (moment : Moment ι ε) (world : World γ ε) :
    Response ε × World γ ε :=
  moment.operation.onCache setting.backend moment.ctx
    { world with signals := moment.signals, clock := moment.clock }

/-- A moment of a source alone. -/
def onSource (schema : Schema ι ε) (moment : Moment ι ε) (source : Source ε) :
    Response ε × Source ε :=
  moment.operation.onSource schema moment.signals moment.ctx source

/-- Operations take place outside of transactions, in contexts that are live. -/
structure Legal (schema : Schema ι ε) (rows : List ε) (moment : Moment ι ε) : Prop where
  outside : moment.ctx.tx = none
  live : moment.ctx.check moment.signals = .ok ()
  operation : moment.operation.Legal schema rows moment.clock

end Moment

/-- Plays a script, given what each of its moments does: what callers are told, and what is left. -/
def play (act : Moment ι ε → σ → Response ε × σ) :
    List (Moment ι ε) → σ → List (Response ε) × σ
  | [], s => ([], s)
  | moment :: script, s =>
      let (response, s) := act moment s
      let (responses, s) := play act script s
      (response :: responses, s)

/-- Every moment of a script is legal, given what the source holds then. -/
def Legal [DecidableEq ι] (schema : Schema ι ε) : List (Moment ι ε) → Source ε → Prop
  | [], _ => True
  | moment :: script, source =>
      moment.Legal schema source.rows ∧ Legal schema script (moment.onSource schema source).2

/-- A beginning of a legal script is legal. -/
theorem Legal.take [DecidableEq ι] {schema : Schema ι ε} {script : List (Moment ι ε)}
    {source : Source ε} (legal : Legal schema script source) (count : Nat) :
    Legal schema (script.take count) source := by
  induction script generalizing source count with
  | nil => simpa using legal
  | cons moment script inductionHypothesis =>
      cases count with
      | zero => trivial
      | succ count => exact ⟨legal.1, inductionHypothesis legal.2 count⟩

section Steps

variable [DecidableEq ι] {setting : Setting γ ι ε} {scene : Scene ε} {ctx : Context} {view : View}
  {world : World γ ε}

namespace Operation

variable (operation : Operation ι ε)

/-- What a source does is determined by its rows. -/
theorem onSource_congr {schema : Schema ι ε} {signals : Signals}
    (live : ctx.check signals = .ok ()) {left right : Source ε} (leftHealthy : left.failure = none)
    (rightHealthy : right.failure = none) (rows : left.rows = right.rows) :
    (operation.onSource schema signals ctx left).1 =
        (operation.onSource schema signals ctx right).1 ∧
      (operation.onSource schema signals ctx left).2.rows =
        (operation.onSource schema signals ctx right).2.rows ∧
      (operation.onSource schema signals ctx left).2.failure = none ∧
      (operation.onSource schema signals ctx right).2.failure = none := by
  cases operation with
  | create entity =>
      simp only [onSource, answered, Source.create_apply live leftHealthy,
        Source.create_apply live rightHealthy, rows]
      split <;> simp [leftHealthy, rightHealthy, rows]
  | update entity =>
      simp only [onSource, answered, Source.update_apply live leftHealthy,
        Source.update_apply live rightHealthy, rows]
      split <;> simp [leftHealthy, rightHealthy, rows]
  | deleteById id =>
      simp only [onSource, answered, Source.deleteById_apply live leftHealthy,
        Source.deleteById_apply live rightHealthy, rows]
      split <;> simp [leftHealthy, rightHealthy, rows]
  | deleteAll =>
      simp [onSource, answered, Source.deleteAll_apply live, leftHealthy, rightHealthy]
  | findById id =>
      simp [onSource, answered, Source.findById_apply live, leftHealthy, rightHealthy, rows]
  | _ => exact ⟨rfl, rows, leftHealthy, rightHealthy⟩

/-- A source keeps its identifiers different, and holds what can be stored. -/
theorem onSource_rows {schema : Schema ι ε} {signals : Signals} {clock : Time.Timestamp}
    (live : ctx.check signals = .ok ()) {source : Source ε} (healthy : source.failure = none)
    (legal : operation.Legal schema source.rows clock)
    (distinct : (source.rows.map schema.idOf).Nodup)
    (keeps : ∀ row ∈ source.rows, schema.Keeps row) :
    ((operation.onSource schema signals ctx source).2.rows.map schema.idOf).Nodup ∧
      ∀ row ∈ (operation.onSource schema signals ctx source).2.rows, schema.Keeps row := by
  cases operation with
  | create entity =>
      simp only [onSource, answered, Source.create_apply live healthy]
      split
      · exact ⟨distinct, keeps⟩
      · rename_i absent
        have noRow := Source.rowOf_eq_none_iff.mp (Option.not_isSome_iff_eq_none.mp absent)
        constructor
        · simp only [List.map_append, List.map_cons, List.map_nil]
          refine List.nodup_append.mpr ⟨distinct, by simp, fun id member other fresh same => ?_⟩
          obtain ⟨row, member, named⟩ := List.mem_map.mp member
          exact noRow row member (named.trans (same.trans (List.mem_singleton.mp fresh)))
        · intro row member
          rcases List.mem_append.mp member with member | member
          · exact keeps row member
          · exact List.mem_singleton.mp member ▸ legal
  | update entity =>
      simp only [onSource, answered, Source.update_apply live healthy]
      cases replaced : Source.replace schema entity source.rows with
      | none => exact ⟨distinct, keeps⟩
      | some later =>
          obtain ⟨sameIds, -, onto, -⟩ := Source.of_replace replaced
          refine ⟨sameIds ▸ distinct, fun row member => ?_⟩
          rcases onto row member with rfl | member
          · exact legal
          · exact keeps row member
  | deleteById id =>
      simp only [onSource, answered, Source.deleteById_apply live healthy]
      split
      · refine ⟨distinct.sublist (List.filter_sublist.map _), fun row member => ?_⟩
        exact keeps row (List.mem_of_mem_filter member)
      · exact ⟨distinct, keeps⟩
  | deleteAll => simp [onSource, answered, Source.deleteAll_apply live healthy]
  | findById id =>
      simp only [onSource, answered, Source.findById_apply live healthy]
      exact ⟨distinct, keeps⟩
  | _ => exact ⟨distinct, keeps⟩

section Mirrors

variable (passes : setting.gate.Passes) (plain : setting.outlet = .plain)
  (names : setting.schema.Names) (distinct : (scene.rows.map setting.schema.idOf).Nodup)
  (healthy : scene.failure = none) (keeps : ∀ row ∈ scene.rows, setting.schema.Keeps row)
  (sees : Sees setting.schema scene ctx view world)
  (faithful : Faithful setting.schema scene.rows view)
include passes plain names distinct healthy keeps sees faithful

/-- Through a faithful cache, an operation ends as on the source alone, and the cache mirrors what
the source then holds. -/
theorem mirrors (legal : operation.Legal setting.schema scene.rows scene.clock) :
    let bare := operation.onSource setting.schema scene.signals ctx world.source
    let cached := operation.onCache setting.backend ctx world
    cached.1 = bare.1 ∧ Mirrors setting scene ctx bare.2.rows cached.2 := by
  have failure := sees.failure.trans healthy
  have unchanged {β : Type} {action : Action (World γ ε) β} {post : β → View → Prop}
      (ensures : Ensures setting.schema scene ctx view action post)
      (stays : ∀ value later, post value later → Faithful setting.schema scene.rows later) :
      Mirrors setting scene ctx world.source.rows (action world).2 := by
    obtain ⟨later, seesLater, -, value, -, holds⟩ := ensures world sees
    rw [sees.rows]
    exact ⟨later, seesLater, stays value later holds⟩
  cases operation with
  | create entity =>
      obtain ⟨ends, mirrors⟩ := create_mirrors passes plain names healthy sees faithful legal
      refine ⟨?_, mirrors⟩
      simp only [onCache, ends]
      rfl
  | update entity =>
      obtain ⟨ends, mirrors⟩ := update_mirrors passes plain names healthy sees faithful legal
      exact ⟨congrArg Response.done ends, mirrors⟩
  | deleteById id =>
      obtain ⟨ends, mirrors⟩ := deleteById_mirrors passes plain names healthy sees faithful id
      exact ⟨congrArg Response.done ends, mirrors⟩
  | deleteAll =>
      obtain ⟨ends, mirrors⟩ := deleteAll_mirrors passes plain healthy sees faithful
      exact ⟨congrArg Response.done ends, mirrors⟩
  | findById id =>
      have ensures : Ensures setting.schema scene ctx view (setting.backend.findById ctx id) _ :=
        ensures_findById passes plain names distinct healthy keeps
          (fun key named => .row names distinct named (legal key named)) faithful
      have bare : Source.findById setting.schema scene.signals ctx id world.source = _ :=
        Source.findById_apply sees.hits.live failure id
      obtain ⟨later, seesLater, -, value, succeeds, same, faithfulLater⟩ := ensures world sees
      simp only [onCache, onSource, answered, bare, succeeds, same, sees.rows, true_and]
      exact ⟨later, seesLater, faithfulLater⟩
  | findAll =>
      have recordable : Recordable setting.schema scene QueryKey.findAll.encode scene.rows :=
        ⟨fun _ member => member,
          fun _ named => absurd rfl (Schema.findByIdKey_ne_findAll named), legal⟩
      refine ⟨rfl, unchanged (ensures_findAll passes plain names distinct healthy keeps recordable
        faithful) fun _ _ holds => holds.1⟩
  | invalidate start =>
      exact ⟨rfl, unchanged (ensures_invalidate_faithful passes names faithful start)
        fun _ _ holds => holds.1⟩
  | dropAll =>
      refine ⟨rfl, unchanged (ensures_dropAll passes) ?_⟩
      rintro _ _ rfl
      exact .empty _ _
  | queryMany key answer =>
      obtain ⟨free, held, keepsHit⟩ := legal
      have recordable : Recordable setting.schema scene key answer :=
        ⟨held, fun id named => absurd named (free id), keepsHit⟩
      exact ⟨rfl, unchanged (ensures_queryMany passes names distinct keeps recordable
        (fun _ => ends_pure answer) faithful) fun _ _ holds => holds.1⟩
  | queryOne key answer =>
      obtain ⟨free, held, keepsHit⟩ := legal
      have recordable : Recordable setting.schema scene key answer.toList :=
        ⟨fun entity member => held entity (Option.mem_toList.mp member),
          fun id named => absurd named (free id), keepsHit⟩
      exact ⟨rfl, unchanged (ensures_queryOne passes names distinct keeps recordable
        (fun _ => ends_pure answer) rfl faithful) fun _ _ holds => holds.1⟩

end Mirrors

end Operation

end Steps

section Plays

variable {setting : Setting γ ι ε}

/-- A cache in a world, beside a source alone: nothing was made to fail, both sources hold the same
rows, and what is stored is faithful to them. -/
structure Mirrored (setting : Setting γ ι ε) (source : Source ε) (world : World γ ε) : Prop where
  sound : world.repository.Sound setting.schema
  hitsHealthy : world.repository.hits.failure = none
  entitiesHealthy : world.repository.entities.failure = none
  worldHealthy : world.source.failure = none
  healthy : source.failure = none
  rows : world.source.rows = source.rows
  distinct : (source.rows.map setting.schema.idOf).Nodup
  keeps : ∀ row ∈ source.rows, setting.schema.Keeps row
  faithful : Faithful setting.schema source.rows
    ⟨world.repository.hits.rows, world.repository.entities.rows⟩

theorem mirrored_initial {rows : List ε} (distinct : (rows.map setting.schema.idOf).Nodup)
    (keeps : ∀ row ∈ rows, setting.schema.Keeps row) (state : γ) (firstPlace : Nat) :
    Mirrored setting (.ofRows rows) (World.initial state rows firstPlace) :=
  ⟨.empty, rfl, rfl, rfl, rfl, rfl, distinct, keeps, .empty _ _⟩

/-- Outside of transactions, a live context sees what is stored. -/
theorem Mirrored.sees {source : Source ε} {world : World γ ε}
    (mirrored : Mirrored setting source world) {signals : Signals} {ctx : Context}
    (outside : ctx.tx = none) (live : ctx.check signals = .ok ()) (clock : Time.Timestamp) :
    Sees setting.schema ⟨signals, clock, source.rows, none⟩ ctx
      ⟨world.repository.hits.rows, world.repository.entities.rows⟩
      { world with signals, clock } := by
  have inScene : World.scene { world with signals, clock } =
      ⟨signals, clock, source.rows, none⟩ := by
    simp [World.scene, mirrored.rows, mirrored.worldHealthy]
  refine ⟨inScene, mirrored.sound, ⟨mirrored.sound.ordered, mirrored.hitsHealthy, live, ?_⟩,
    ⟨mirrored.sound.entitiesOrdered, mirrored.entitiesHealthy, live, ?_⟩⟩
  · rw [outside]
    exact Table.view_outside
  · rw [outside]
    exact Table.view_outside

/-- What is seen outside of transactions is what is stored. -/
theorem Sees.eq_of_outside {schema : Schema ι ε} {scene : Scene ε} {ctx : Context} {view : View}
    {world : World γ ε} (sees : Sees schema scene ctx view world) (outside : ctx.tx = none) :
    view = ⟨world.repository.hits.rows, world.repository.entities.rows⟩ := by
  have hits := sees.hits.view
  have copies := sees.copies.view
  rw [outside, Table.view_outside] at hits copies
  obtain ⟨seenHits, seenCopies⟩ := view
  rw [View.mk.injEq]
  exact ⟨(Except.ok.inj hits).symm, (Except.ok.inj copies).symm⟩

variable [DecidableEq ι] (passes : setting.gate.Passes) (plain : setting.outlet = .plain)
  (names : setting.schema.Names)
include passes plain names

/-- A legal moment tells the same through the cache as on the source alone. -/
theorem Mirrored.step {source : Source ε} {world : World γ ε}
    (mirrored : Mirrored setting source world) {moment : Moment ι ε}
    (legal : moment.Legal setting.schema source.rows) :
    (moment.onCache setting world).1 = (moment.onSource setting.schema source).1 ∧
      Mirrored setting (moment.onSource setting.schema source).2
        (moment.onCache setting world).2 := by
  obtain ⟨signals, clock, ctx, operation⟩ := moment
  obtain ⟨outside, live, legal⟩ := legal
  have sees := mirrored.sees outside live clock
  obtain ⟨told, later, seesLater, faithfulLater⟩ := operation.mirrors passes plain names
    mirrored.distinct rfl mirrored.keeps sees mirrored.faithful legal
  obtain ⟨sameResponse, sameRows, -, healthyLater⟩ := operation.onSource_congr live
    mirrored.worldHealthy mirrored.healthy mirrored.rows
  obtain ⟨distinctLater, keepsLater⟩ := operation.onSource_rows live mirrored.healthy legal
    mirrored.distinct mirrored.keeps
  rw [sameRows, seesLater.eq_of_outside outside] at faithfulLater
  refine ⟨told.trans sameResponse, ?_⟩
  exact
    { sound := seesLater.sound
      hitsHealthy := seesLater.hits.healthy
      entitiesHealthy := seesLater.copies.healthy
      worldHealthy := seesLater.failure
      healthy := healthyLater
      rows := seesLater.rows.trans sameRows
      distinct := distinctLater
      keeps := keepsLater
      faithful := faithfulLater }

/-- A legal script tells the same through the cache as on the source alone. -/
theorem Mirrored.play {script : List (Moment ι ε)} {source : Source ε} {world : World γ ε}
    (mirrored : Mirrored setting source world) (legal : Legal setting.schema script source) :
    (play (Moment.onCache setting) script world).1 =
        (play (Moment.onSource setting.schema) script source).1 ∧
      Mirrored setting (play (Moment.onSource setting.schema) script source).2
        (play (Moment.onCache setting) script world).2 := by
  induction script generalizing source world with
  | nil => exact ⟨rfl, mirrored⟩
  | cons moment script inductionHypothesis =>
      obtain ⟨sameResponse, mirroredNext⟩ := mirrored.step passes plain names legal.1
      obtain ⟨sameRest, mirroredLast⟩ := inductionHypothesis mirroredNext legal.2
      refine ⟨?_, mirroredLast⟩
      exact congrArg₂ List.cons sameResponse sameRest

end Plays

/-- Truth values. -/
def IdKind.switch : IdKind Bool where
  label := "switch"
  toDatum := .bool
  shape := .bool
  ofDatum?
    | .bool value => some value
    | _ => none
  literal := toString
  nth n := n % 2 == 0

/-- The keys of the two switches differ. -/
theorem distinct_switch : IdKind.switch.schema.Distinct where
  entityKey_inj {id other key} first second := by
    have same := first.trans second.symm
    cases id <;> cases other <;> first | rfl | exact absurd same (by decide +kernel)
  findByIdKey_inj {id other key} first second := by
    have same := first.trans second.symm
    cases id <;> cases other <;> first | rfl | exact absurd same (by decide +kernel)

theorem names_switch : IdKind.switch.schema.Names where
  exists_findByIdKey _ := ⟨_, rfl⟩
  distinct := distinct_switch

/-- A cache of switches in front of a plain source. -/
def switchSetting : Setting Unit Bool (Entry Bool) :=
  ⟨IdKind.switch.schema, .opened, .plain, false⟩

/-- An operation at the beginning of time. -/
def Moment.early (operation : Operation Bool (Entry Bool)) : Moment Bool (Entry Bool) :=
  ⟨.initial, ⟨0, 0⟩, .root, operation⟩

/-- A switch is looked up in vain, created, and deleted twice. -/
def switchScript : List (Moment Bool (Entry Bool)) :=
  [.early (.findById true), .early (.create ⟨true, "on"⟩), .early (.findById true),
    .early (.deleteById true), .early (.deleteById true)]

theorem legal_switchScript : Legal switchSetting.schema switchScript (.ofRows []) := by
  have named : switchSetting.schema.findByIdKey true =
      .ok "[\"FindByID\",\x7b\"ID\":true\x7d]" := by
    decide +kernel
  refine ⟨⟨rfl, rfl, fun key same => ?_⟩, ⟨rfl, rfl, ?_⟩, ⟨rfl, rfl, fun key same => ?_⟩,
    ⟨rfl, rfl, trivial⟩, ⟨rfl, rfl, trivial⟩, trivial⟩
  · cases named.symm.trans same
    decide +kernel
  · change switchSetting.schema.Keeps ⟨true, "on"⟩
    decide +kernel
  · cases named.symm.trans same
    decide +kernel

/-- Where nothing fails, and the source is changed through the cache only, callers are told of
single entities what the source alone would tell them; and after every moment, every committed copy
is the row that the source holds of its entity. -/
theorem play_cache_eq_play_source [DecidableEq ι] (setting : Setting γ ι ε)
    (passes : setting.gate.Passes) (plain : setting.outlet = .plain)
    (names : setting.schema.Names) (rows : List ε)
    (distinct : (rows.map setting.schema.idOf).Nodup)
    (keeps : ∀ row ∈ rows, setting.schema.Keeps row) (state : γ) (firstPlace : Nat)
    (script : List (Moment ι ε)) (legal : Legal setting.schema script (.ofRows rows)) :
    let start := World.initial state rows firstPlace
    (play (Moment.onCache setting) script start).1 =
        (play (Moment.onSource setting.schema) script (.ofRows rows)).1 ∧
      ∀ count,
        let cached := (play (Moment.onCache setting) (script.take count) start).2
        let bare := (play (Moment.onSource setting.schema) (script.take count) (.ofRows rows)).2
        cached.source.rows = bare.rows ∧
          ∀ (key : String) bytes, cached.repository.entities.rows[key]? = some bytes →
            ∃ id row, setting.schema.entityKey id = .ok key ∧
              Source.rowOf setting.schema id bare.rows = some row ∧
              setting.schema.decode bytes = .ok row := by
  have begins : Mirrored setting (.ofRows rows) (World.initial state rows firstPlace) :=
    mirrored_initial distinct keeps state firstPlace
  refine ⟨(begins.play passes plain names legal).1, fun count => ?_⟩
  obtain ⟨-, mirrored⟩ := begins.play passes plain names (legal.take count)
  refine ⟨mirrored.rows, fun key bytes present => ?_⟩
  obtain ⟨row, member, named, decoded⟩ := mirrored.faithful.copies key bytes present
  have isRow := (Source.rowOf_eq_some_iff mirrored.distinct).mpr ⟨member, rfl⟩
  exact ⟨setting.schema.idOf row, row, named, isRow, decoded⟩

theorem play_cache_eq_play_source_switches :
    (play (Moment.onCache switchSetting) switchScript (World.initial () [] 0)).1 =
      [.found (.ok none), .created (.ok ()) ⟨true, "on"⟩, .found (.ok (some ⟨true, "on"⟩)),
        .done (.ok ()), .done (.error (.notFound "switch true"))] := by
  have transparent := play_cache_eq_play_source switchSetting (fun _ _ => rfl) rfl names_switch []
    (by decide) nofun () 0 switchScript legal_switchScript
  exact transparent.1.trans rfl

end QueryCache.Simulation
