import QueryCache.Proofs.Settlement

/-!
# A query is answered once and then replayed

A query that asked the source, where nothing fails, has recorded a hit that lists its answer, and
has stored a copy of all that it lists. From then on the query is answered without being asked; if
no hit of the view was missing a copy, this outlasts all other reads, so long as what they answer
concurs with the answer.

The answer has to be one that can be remembered (`Memorable`), and an older hit of the query one
that can be removed (`Clearable`); what lets the answer outlast other reads is `Preserves`. Each of
these conditions is needed, as the scenes at the end show.
-/

namespace QueryCache

open QueryCache.Action Wire

variable {ι ε : Type} {schema : Schema ι ε}

/-- A hit can be stored, and is read back with the identifiers that it lists. -/
def Schema.KeepsList (schema : Schema ι ε) (hit : Hit ι) : Prop :=
  ∃ bytes found, schema.encodeHit hit = .ok bytes ∧ schema.decodeHit bytes = .ok found ∧
    found.entityIds = hit.entityIds

theorem Schema.KeepsHit.keepsList {hit : Hit ι} (keeps : schema.KeepsHit hit) :
    schema.KeepsList hit := by
  obtain ⟨bytes, encoded, decoded⟩ := exists_of_bind_eq_ok keeps
  exact ⟨bytes, hit, encoded, decoded, rfl⟩

/-- An answer that can be remembered: its entities can be stored, each in a place of its own, and
are read back; entities of one identifier are equal; and the hit is read back with their
identifiers. -/
structure Memorable (schema : Schema ι ε) (key : String) (clock : Time.Timestamp)
    (answer : List ε) : Prop where
  equal : Concurs schema answer answer
  keeps : ∀ entity ∈ answer, schema.Keeps entity
  placed : ∀ entity ∈ answer, ∃ place, schema.entityKey (schema.idOf entity) = .ok place
  apart : ∀ entity ∈ answer, ∀ other ∈ answer, ∀ place,
    schema.entityKey (schema.idOf entity) = .ok place →
      schema.entityKey (schema.idOf other) = .ok place → schema.idOf entity = schema.idOf other
  listed : schema.KeepsList ⟨key, answer.map schema.idOf, clock⟩

/-- A query whose hit can be removed with what goes with it: what the removal comes across can be
read, and there is a query for every entity that it reaches. -/
structure Clearable (schema : Schema ι ε) (key : String) (view : View) : Prop where
  legible : Legible schema (Reached schema view.hits (.hit key)) view
  named : ∀ id, Reached schema view.hits (.hit key) (.entity id) →
    ∃ own, schema.findByIdKey id = .ok own

theorem Readable.clearable {view : View} (readable : Readable schema view) (key : String) :
    Clearable schema key view where
  legible := readable.legible _
  named _ isReached := readable.named (fun _ same => by cases same) isReached

/-- After copies of entities were stored without failure, each of the entities has its copy. -/
theorem Copied.holdCopy {key : String} {clock : Time.Timestamp} {entities : List ε}
    (memorable : Memorable schema key clock entities) {earlier later : Rows}
    (copied : Copied schema entities earlier later) :
    ∀ entity ∈ entities, later.HoldCopy schema entity := by
  intro entity member
  obtain ⟨place, placed⟩ := memorable.placed entity member
  rcases copied place with ⟨-, others⟩ | ⟨stored, isStored, storedPlaced, bytes, present, decoded⟩
  · exact absurd placed (others entity member)
  · have sameId := memorable.apart stored isStored entity member place storedPlaced placed
    obtain rfl := memorable.equal stored isStored entity member sameId
    exact ⟨place, bytes, placed, present, decoded⟩

theorem Copied.isSome {entities : List ε} {earlier later : Rows}
    (copied : Copied schema entities earlier later) (key : String)
    (present : earlier[key]?.isSome) : later[key]?.isSome := by
  rcases copied key with ⟨same, -⟩ | ⟨-, -, -, bytes, stored, -⟩
  · rwa [same]
  · rw [stored]
    rfl

section Watched

variable {σ : Type} [DecidableEq ι] {backend : Backend σ ι ε} {ctx : Context} {s : σ}

/-- A query that finds its hit and all copies of what the hit lists does not ask the source. -/
theorem unasked_of_gathered {key : String} {hit : Hit ι} {entities : List ε}
    (found : (backend.hits.findById ctx key (backend.check ctx s).2).1 = .ok (some hit))
    (all : (backend.entities.findByIds ctx hit.entityIds
      (backend.hits.findById ctx key (backend.check ctx s).2).2).1 = .ok entities)
    (query : Action σ (List ε)) :
    ∀ note ∈ ((Read.many key query).watch backend ctx s).2.notes, ¬ note.Asks := by
  let start : Noted σ ι ε := ⟨s, []⟩
  let checked := (backend.watched.check ctx start).2
  let searched := (backend.watched.hits.findById ctx key checked).2
  have watchedFound : (backend.watched.hits.findById ctx key checked).1 = .ok (some hit) := found
  have watchedAll : (backend.watched.entities.findByIds ctx hit.entityIds searched).1 =
      .ok entities := all
  suffices adds : Adds (backend.watched.queryMany ctx key (query.noted asking))
      (fun _ new => ∀ note ∈ new, ¬ note.Asks) start by
    obtain ⟨new, notes, unasked⟩ := adds
    rw [List.nil_append] at notes
    intro note member
    exact unasked note (notes ▸ member)
  refine Adds.bind ⟨[.check (failure (backend.check ctx s).1)], rfl, ?_, fun _ _ => ?_⟩
  · exact fun _ _ => List.forall_mem_singleton.mpr id
  refine Adds.attempt_bind ⟨calling (.findHit key) _, rfl, ?_⟩
  dsimp only
  rw [watchedFound]
  refine Adds.attempt_bind ⟨calling (.findEntities hit.entityIds) _, rfl, ?_⟩
  dsimp only
  rw [watchedAll]
  refine Adds.bind ⟨[], (List.append_nil _).symm, fun _ _ => ?_, fun _ _ => adds_pure ?_⟩
  all_goals simp [calling, Note.Asks]

end Watched

/-- Whether every entity that a hit of a view lists has a copy is found out hit by hit. -/
def View.isIntact (schema : Schema ι ε) (view : View) : Bool :=
  view.hits.toList.all fun row =>
    match schema.decodeHit row.2 with
    | .ok hit => hit.entityIds.all fun id =>
        match schema.entityKey id with
        | .ok place => view.copies[place]?.isSome
        | .error _ => false
    | .error _ => true

theorem View.Intact.of_isIntact {view : View} (isIntact : view.isIntact schema) :
    view.Intact schema := by
  rintro key hit ⟨bytes, present, decoded⟩ id lists
  simp only [View.isIntact, List.all_eq_true] at isIntact
  have checked := isIntact _ (Std.ExtTreeMap.mem_toList_iff_getElem?_eq_some.mpr present)
  simp only [decoded, List.all_eq_true] at checked
  have placed := checked id lists
  cases named : schema.entityKey id with
  | ok place => exact ⟨place, rfl, by simpa [named] using placed⟩
  | error e => simp [named] at placed

/-- In a transaction of a repository in which no store is made to fail, something of a certain kind
is seen. -/
structure Repository.Presents (schema : Schema ι ε) (place : Option TxId) (kind : View → Prop)
    (repository : Repository) : Prop where
  sound : repository.Sound schema
  hitsHealthy : repository.hits.failure = none
  entitiesHealthy : repository.entities.failure = none
  shown : ∃ view, repository.seen place = .ok view ∧ kind view

namespace Simulation

open World

variable {γ : Type} {setting : Setting γ ι ε} {ctx : Context} {view : View}
  {kind : View → Prop} {world : World γ ε}

/-- A live context sees what is shown in its transaction. -/
theorem shows_iff :
    setting.Shows ctx kind world ↔ ctx.check world.signals = .ok () ∧
      world.repository.Presents setting.schema ctx.tx kind := by
  constructor
  · rintro ⟨view, sees, isKind⟩
    exact ⟨sees.hits.live, sees.sound, sees.hits.healthy, sees.copies.healthy, view,
      Repository.seen_eq_ok.mpr ⟨sees.hits.view, sees.copies.view⟩, isKind⟩
  · rintro ⟨live, sound, hitsHealthy, entitiesHealthy, view, shown, isKind⟩
    obtain ⟨hits, copies⟩ := Repository.seen_eq_ok.mp shown
    exact ⟨view, ⟨rfl, sound, ⟨sound.ordered, hitsHealthy, live, hits⟩,
      ⟨sound.entitiesOrdered, entitiesHealthy, live, copies⟩⟩, isKind⟩

variable [DecidableEq ι]

/-- The worlds that one comes to by reads in a transaction, each of which is permitted to be made
and to end as it does. Between reads anything may happen but to the repository. -/
inductive Setting.Continues (setting : Setting γ ι ε) (place : Option TxId)
    (permitted : Context → Read (World γ ε) ι ε → Except Error (List ε) → Prop)
    (start : World γ ε) : World γ ε → Prop
  | start : Continues setting place permitted start start
  | between {earlier later : World γ ε} (before : Continues setting place permitted start earlier)
      (same : later.repository = earlier.repository) : Continues setting place permitted start later
  | read {earlier : World γ ε} (before : Continues setting place permitted start earlier)
      {reader : Context} (inside : reader.tx = place)
      (live : reader.check earlier.signals = .ok ()) {read : Read (World γ ε) ι ε}
      (isPermitted : permitted reader read (read.run setting.backend reader earlier).1) :
      Continues setting place permitted start (read.run setting.backend reader earlier).2

/-- What every permitted read retains is seen in the end, if it was in the beginning. -/
theorem Setting.Continues.presents {place : Option TxId}
    {permitted : Context → Read (World γ ε) ι ε → Except Error (List ε) → Prop}
    (retains : ∀ reader read world,
      permitted reader read (read.run setting.backend reader world).1 →
        setting.Retains reader kind world (read.run setting.backend reader world).2)
    {start later : World γ ε} (presents : start.repository.Presents setting.schema place kind)
    (continues : setting.Continues place permitted start later) :
    later.repository.Presents setting.schema place kind := by
  induction continues with
  | start => exact presents
  | between _ same inductionHypothesis => rwa [same]
  | read _ inside live isPermitted inductionHypothesis =>
      subst inside
      exact (shows_iff.mp (retains _ _ _ isPermitted (shows_iff.mpr ⟨live, inductionHypothesis⟩))).2

/-- In a transaction, a query is answered without being asked: its hit lists the answer in its
order, and in every live context the query answers so, whatever it would ask, and asks nothing. -/
structure Setting.Recalls (setting : Setting γ ι ε) (place : Option TxId) (key : String)
    (answer : List ε) (world : World γ ε) : Prop where
  listed : ∃ view hit, world.repository.seen place = .ok view ∧
    view.hits.Hold setting.schema key hit ∧ hit.entityIds = answer.map setting.schema.idOf
  replayed : ∀ reader : Context, reader.tx = place → reader.check world.signals = .ok () →
    ∃ done, ∀ query, setting.backend.queryMany reader key query world = (.ok answer, done) ∧
      ∀ note ∈ ((Read.many key query).watch setting.backend reader world).2.notes, ¬ note.Asks

section Replays

variable (passes : setting.gate.Passes) {key : String} {answer : List ε}
include passes

/-- An answer that can be replayed is replayed, and the same is seen afterwards. -/
theorem replays_of_answers (sees : Sees setting.schema world.scene ctx view world)
    (answers : view.Answers setting.schema key answer) :
    ∃ done, Sees setting.schema world.scene ctx view done ∧ ∀ query,
      setting.backend.queryMany ctx key query world = (.ok answer, done) ∧
      ∀ note ∈ ((Read.many key query).watch setting.backend ctx world).2.notes, ¬ note.Asks := by
  obtain ⟨hit, ⟨bytes, present, decoded⟩, ids⟩ := answers.listed
  have all : Entities.gathered setting.schema view.copies hit.entityIds = .ok answer :=
    ids ▸ Entities.gathered_of_holdCopy answers.copied
  obtain ⟨_, seesFound, -, found, same⟩ :=
    (ends_findHit passes key).to (told_of_present present decoded) world sees
  rw [same] at seesFound
  obtain ⟨_, seesAll, -, gathered, same⟩ :=
    (ends_findEntities passes hit.entityIds).to all _ seesFound
  rw [same] at seesAll
  obtain ⟨_, seesDone, -, recorded, same⟩ := ends_record (.hit key) _ seesAll
  rw [same] at seesDone
  refine ⟨_, seesDone, fun query => ⟨?_, ?_⟩⟩
  · unfold Backend.queryMany Backend.replay
    rw [bind_of_ok (check_apply sees), bind_apply, attempt_apply]
    dsimp only
    rw [found]
    dsimp only
    rw [bind_apply, attempt_apply]
    dsimp only
    rw [gathered]
    exact bind_of_ok (Prod.ext recorded rfl)
  · rw [← (show (setting.backend.check ctx world).2 = world from rfl)] at found gathered
    exact unasked_of_gathered found gathered query

/-- A query retains whatever implies that it can be replayed. -/
theorem retains_of_answers (implies : ∀ view, kind view → view.Answers setting.schema key answer)
    (query : Action (World γ ε) (List ε)) :
    (setting.backend.queryMany ctx key query).Along (setting.Retains ctx kind) := by
  rintro world ⟨view, sees, isKind⟩
  obtain ⟨done, seesDone, replays⟩ := replays_of_answers passes sees (implies view isKind)
  rw [(replays query).1]
  exact ⟨view, seesDone.own, isKind⟩

theorem recalls_of_presents {place : Option TxId}
    (implies : ∀ view, kind view → view.Answers setting.schema key answer)
    (presents : world.repository.Presents setting.schema place kind) :
    setting.Recalls place key answer world := by
  constructor
  · obtain ⟨view, shown, isKind⟩ := presents.shown
    obtain ⟨hit, held, ids⟩ := (implies view isKind).listed
    exact ⟨view, hit, shown, held, ids⟩
  · rintro reader rfl live
    obtain ⟨view, sees, isKind⟩ := shows_iff.mpr ⟨live, presents⟩
    obtain ⟨done, -, replays⟩ := replays_of_answers passes sees (implies view isKind)
    exact ⟨done, replays⟩

end Replays

section Answered

variable {scene : Scene ε} (passes : setting.gate.Passes) {key : String} {answer : List ε}
include passes

/-- An answer that was remembered can be replayed, and nothing is listed without a copy if nothing
was before. -/
theorem ensures_remember_answers (memorable : Memorable setting.schema key scene.clock answer) :
    Ensures setting.schema scene ctx view (setting.backend.remember ctx key answer)
      fun _ later => later.Answers setting.schema key answer ∧
        (setting.schema.ReadsBack → view.Intact setting.schema → later.Intact setting.schema) := by
  refine Ensures.bind (Leads.attempt (ensures_upsert passes memorable.keeps memorable.placed)) ?_
  rintro _ between ⟨⟨⟩, rfl, sameHits, copied⟩
  obtain ⟨bytes, found, encoded, decoded, ids⟩ := memorable.listed
  refine Ends.bind ends_now (Ends.bind (ends_createHit passes encoded).attempt (ensures_pure ?_))
  have holds := copied.holdCopy memorable
  refine ⟨⟨⟨found, ⟨bytes, by simp, decoded⟩, ids⟩, holds⟩, fun readsBack intact => ?_⟩
  have revised : Revised setting.schema (fun _ => True) view
      { between with hits := view.hits.insert key bytes } := by
    refine .recorded (.copied (.refl view) copied.isSome) trivial encoded fun id lists => ?_
    obtain ⟨entity, member, rfl⟩ := List.mem_map.mp lists
    obtain ⟨place, stored, placed, present, -⟩ := holds entity member
    exact ⟨place, placed, Option.isSome_iff_exists.mpr ⟨stored, present⟩⟩
  rw [sameHits]
  exact revised.intact readsBack intact

/-- After the source was asked and the answer remembered, it can be replayed. -/
theorem exists_answers_ask {query : Action (World γ ε) (List ε)}
    (aloof : query.Along (Aloof ctx)) (sees : Sees setting.schema world.scene ctx view world)
    (memorable : Memorable setting.schema key world.clock answer)
    (answered : (setting.backend.ask ctx key query world).1 = .ok answer) :
    setting.Shows ctx (fun later => later.Answers setting.schema key answer ∧
        (setting.schema.ReadsBack → view.Intact setting.schema → later.Intact setting.schema))
      (setting.backend.ask ctx key query world).2 := by
  have seesAsked := sees.aloof (aloof world)
  have sameClock := (aloof world).clock
  unfold Backend.ask at answered ⊢
  obtain ⟨entities, asked, goesOn, same⟩ := exists_of_bind_apply_eq_ok answered
  rw [same]
  obtain rfl : entities = answer := by
    obtain ⟨_, -, goesOn, -⟩ := exists_of_bind_apply_eq_ok goesOn
    obtain ⟨_, -, goesOn, -⟩ := exists_of_bind_apply_eq_ok goesOn
    exact Except.ok.inj goesOn
  have remembers : Ensures setting.schema (query world).2.scene ctx view (do
      setting.backend.record (.miss key)
      setting.backend.remember ctx key entities
      return entities) fun _ later => later.Answers setting.schema key entities ∧
        (setting.schema.ReadsBack → view.Intact setting.schema →
          later.Intact setting.schema) := by
    rw [← sameClock] at memorable
    exact Ends.bind (ends_record _) (Ensures.bind (ensures_remember_answers passes memorable)
      fun _ _ holds => ensures_pure holds)
  obtain ⟨later, seesLater, -, _, -, holds⟩ := remembers _ seesAsked
  exact ⟨later, seesLater.own, holds⟩

/-- After a query that asked the source its answer can be replayed, even if the hit of the query was
there before and some of its copies were gone. -/
theorem exists_answers_of_asked (sees : Sees setting.schema world.scene ctx view world)
    (clearable : Clearable setting.schema key view) {query : Action (World γ ε) (List ε)}
    (aloof : query.Along (Aloof ctx)) (memorable : Memorable setting.schema key world.clock answer)
    (asked : ∃ note ∈ ((Read.many key query).watch setting.backend ctx world).2.notes, note.Asks)
    (answered : (setting.backend.queryMany ctx key query world).1 = .ok answer) :
    setting.Shows ctx (fun later => later.Answers setting.schema key answer ∧
        (setting.schema.Preserves answer → view.Intact setting.schema →
          later.Intact setting.schema))
      (setting.backend.queryMany ctx key query world).2 := by
  have asks {between : View} {middle : World γ ε}
      (seesMiddle : Sees setting.schema world.scene ctx between middle)
      (intact : setting.schema.Preserves answer → view.Intact setting.schema →
        between.Intact setting.schema)
      (answered : (setting.backend.ask ctx key query middle).1 = .ok answer) :
      setting.Shows ctx (fun later => later.Answers setting.schema key answer ∧
          (setting.schema.Preserves answer → view.Intact setting.schema →
            later.Intact setting.schema))
        (setting.backend.ask ctx key query middle).2 := by
    have sameClock : middle.clock = world.clock := congrArg Scene.clock seesMiddle.inScene
    obtain ⟨later, seesLater, answers, kept⟩ :=
      exists_answers_ask passes aloof seesMiddle.own (sameClock ▸ memorable) answered
    exact ⟨later, seesLater, answers, fun preserves wasIntact =>
      kept preserves.readsBack (intact preserves wasIntact)⟩
  cases present : view.hits[key]? with
  | none =>
      obtain ⟨_, seesFound, -, found, same⟩ :=
        (ends_findHit passes key).to (told_of_absent present) world sees
      rw [same] at seesFound
      have goesOn : setting.backend.queryMany ctx key query world =
          setting.backend.ask ctx key query (setting.backend.hits.findById ctx key world).2 :=
        (bind_of_ok (check_apply sees)).trans (attempt_bind_of_eq found)
      rw [goesOn] at answered ⊢
      exact asks seesFound (fun _ => id) answered
  | some bytes =>
      obtain ⟨hit, decoded⟩ := clearable.legible.hits key bytes present
      have held : view.hits.Hold setting.schema key hit := ⟨bytes, present, decoded⟩
      obtain ⟨_, seesFound, -, found, same⟩ :=
        (ends_findHit passes key).to (told_of_present present decoded) world sees
      rw [same] at seesFound
      have goesOn : setting.backend.queryMany ctx key query world =
          setting.backend.replay ctx key hit query
            (setting.backend.hits.findById ctx key world).2 :=
        (bind_of_ok (check_apply sees)).trans (attempt_bind_of_eq found)
      rw [goesOn] at answered ⊢
      have isReached id (lists : id ∈ hit.entityIds) :
          Reached setting.schema view.hits (.hit key) (.entity id) :=
        .listed .start held lists
      have placed id (lists : id ∈ hit.entityIds) :
          ∃ place, setting.schema.entityKey id = .ok place := by
        obtain ⟨own, isNamed⟩ := clearable.named id (isReached id lists)
        exact Schema.entityKey_of_findByIdKey isNamed
      rcases Entities.gathered_cases hit.entityIds
        (fun id lists place stored => clearable.legible.copies id place stored (isReached id lists))
        placed with ⟨entities, all⟩ | ⟨missing, lost⟩
      · -- A query that is replayed would not have asked the source.
        obtain ⟨_, -, -, gathered, -⟩ :=
          (ends_findEntities passes hit.entityIds).to all _ seesFound
        rw [← (show (setting.backend.check ctx world).2 = world from rfl)] at found gathered
        obtain ⟨note, noted, asksSource⟩ := asked
        exact absurd asksSource (unasked_of_gathered found gathered query note noted)
      · obtain ⟨_, seesLost, -, gathered, same⟩ :=
          (ends_findEntities passes hit.entityIds).to lost _ seesFound
        rw [same] at seesLost
        have removal : Ensures setting.schema world.scene ctx view
            (setting.backend.invalidate ctx (.hit key)) _ :=
          ensures_invalidate_of_legible passes clearable.legible clearable.named
        obtain ⟨between, seesBetween, -, _, invalidated, -⟩ := removal _ seesLost
        have asksAgain : setting.backend.replay ctx key hit query _ =
            setting.backend.ask ctx key query _ :=
          (attempt_bind_of_eq gathered).trans (attempt_bind_of_eq invalidated)
        rw [asksAgain] at answered ⊢
        refine asks seesBetween (fun preserves intact => ?_) answered
        exact absurd lost
          (Entities.gathered_ne_notFound preserves.candid (intact key hit held) missing)

end Answered

/-- The query of a text, whatever it would ask. -/
def Repeats (key : String) (_ : Context) (read : Read (World γ ε) ι ε)
    (_ : Except Error (List ε)) : Prop :=
  ∃ query, read = .many key query

/-- The query of a text, or a read that stays out of the repository and answers with entities that
concur with an answer. -/
def Concords (schema : Schema ι ε) (key : String) (answer : List ε) (reader : Context)
    (read : Read (World γ ε) ι ε) (outcome : Except Error (List ε)) : Prop :=
  (∃ query, read = .many key query) ∨
    StaysOut reader read ∧ ∀ entities, outcome = .ok entities → Concurs schema answer entities

/-- A query that asked the source, where nothing fails, is from then on answered without being
asked, even if its hit was there before and missed copies. If no hit is missing a copy, which stays
so over the query, it is still answered so after any reads whose answers concur. -/
theorem query_is_replayed (setting : Setting γ ι ε) (passes : setting.gate.Passes) (ctx : Context)
    (world : World γ ε) (before : View) (undisturbed : Undisturbed setting ctx before world)
    (key : String) (clearable : Clearable setting.schema key before)
    (query : Action (World γ ε) (List ε)) (aloof : query.Along (Aloof ctx)) (answer : List ε)
    (memorable : Memorable setting.schema key world.clock answer)
    (asked : ∃ note ∈ ((Read.many key query).watch setting.backend ctx world).2.notes, note.Asks)
    (answered : (setting.backend.queryMany ctx key query world).1 = .ok answer) :
    let after := (setting.backend.queryMany ctx key query world).2
    (∀ later, setting.Continues ctx.tx (Repeats key) after later →
      setting.Recalls ctx.tx key answer later) ∧
    ∃ shown, after.repository.seen ctx.tx = .ok shown ∧
      (setting.schema.Preserves answer →
        (before.Intact setting.schema → shown.Intact setting.schema) ∧
        (shown.Intact setting.schema → ∀ later,
          setting.Continues ctx.tx (Concords setting.schema key answer) after later →
            setting.Recalls ctx.tx key answer later)) := by
  intro after
  have shows := exists_answers_of_asked passes undisturbed.sees clearable aloof memorable asked
    answered
  obtain ⟨-, presents⟩ := shows_iff.mp shows
  obtain ⟨shown, seenShown, answers, kept⟩ := presents.shown
  refine ⟨fun later continues => ?_, shown, seenShown, fun preserves =>
    ⟨kept preserves, fun intact later continues => ?_⟩⟩
  · have start : after.repository.Presents setting.schema ctx.tx
        (View.Answers setting.schema key answer) :=
      ⟨presents.sound, presents.hitsHealthy, presents.entitiesHealthy, shown, seenShown, answers⟩
    refine recalls_of_presents passes (fun _ => id) (continues.presents ?_ start)
    rintro reader _ world ⟨other, rfl⟩
    exact retains_of_answers passes (fun _ => id) other world
  · have start : after.repository.Presents setting.schema ctx.tx
        (View.Settled setting.schema key answer) :=
      ⟨presents.sound, presents.hitsHealthy, presents.entitiesHealthy, shown, seenShown,
        answers, intact⟩
    refine recalls_of_presents passes (fun _ => View.Settled.answers) (continues.presents ?_ start)
    rintro reader read world (⟨other, rfl⟩ | ⟨staysOut, concurs⟩)
    · exact retains_of_answers passes (fun _ => View.Settled.answers) other world
    · exact retains_settled_read passes preserves memorable.keeps staysOut world concurs

omit [DecidableEq ι] in
/-- What is wrong with a stored entry is told as such. -/
theorem candid_schema (kind : IdKind ι) : kind.schema.Candid where
  encode := tolerable_encode kind
  decode bytes text := by
    change Envelope.decode _ bytes ≠ _
    unfold Envelope.decode Envelope.contents
    intro missing
    split at missing
    · split at missing
      · cases missing
      · split at missing <;> cases missing
    · cases missing

/-- A world in which a cached query lists a switch that is not copied. -/
def danglingWorld : World Unit (Entry Bool) :=
  { World.initial () [⟨true, "on"⟩] 0 with
    repository := Repository.after IdKind.switch.schema
      [.request .initial .root (.createHit ⟨"lit", [true], ⟨0, 0⟩⟩)] .empty }

/-- The query is asked again, and then answered from the cache after all switches were listed. -/
theorem query_is_replayed_danglingWorld :
    let first :=
      switchSetting.backend.queryMany .root "lit" (Pure.pure [⟨true, "on"⟩]) danglingWorld
    let listed := (Read.all : Read _ Bool _).run switchSetting.backend .root first.2
    first.1 = .ok [⟨true, "on"⟩] ∧ switchSetting.Recalls none "lit" [⟨true, "on"⟩] listed.2 := by
  intro first listed
  have answered : first.1 = .ok [⟨true, "on"⟩] := by decide +kernel
  have concur entry : entry ∈ [(⟨true, "on"⟩ : Entry Bool)] → entry = ⟨true, "on"⟩ :=
    List.mem_singleton.mp
  have equal : Concurs IdKind.switch.schema [(⟨true, "on"⟩ : Entry Bool)] [⟨true, "on"⟩] :=
    fun entity member known isKnown _ => (concur entity member).trans (concur known isKnown).symm
  have memorable : Memorable IdKind.switch.schema "lit" danglingWorld.clock [⟨true, "on"⟩] :=
    { equal
      keeps := by decide +kernel
      placed := fun entity member => by rw [concur entity member]; exact ⟨_, rfl⟩
      apart := fun entity member other isOther place placed otherPlaced =>
        names_switch.distinct.entityKey_inj placed otherPlaced
      listed := Schema.KeepsHit.keepsList (by decide +kernel) }
  have preserves : IdKind.switch.schema.Preserves [(⟨true, "on"⟩ : Entry Bool)] :=
    ⟨readsBack_switch, candid_schema _, names_switch.distinct.unshared _⟩
  have readable : Readable IdKind.switch.schema danglingWorld.repository.committed :=
    .of_isReadable (by decide +kernel)
  obtain ⟨-, shown, seen, outlasts⟩ := query_is_replayed switchSetting (fun _ _ => rfl) .root
    danglingWorld danglingWorld.repository.committed ⟨⟨_, rfl⟩, rfl, rfl, rfl, rfl⟩ "lit"
    (readable.clearable "lit") (Pure.pure [⟨true, "on"⟩]) (along_pure _) [⟨true, "on"⟩] memorable
    (by decide +kernel) answered
  obtain rfl := Except.ok.inj seen
  have live : Context.root.check first.2.signals = .ok () := by decide +kernel
  refine ⟨answered, (outlasts preserves).2 (.of_isIntact (by decide +kernel)) listed.2
    (.read .start rfl live (.inr ⟨trivial, fun entities same => ?_⟩))⟩
  have all : listed.1 = .ok [⟨true, "on"⟩] := by decide +kernel
  cases all.symm.trans same
  exact equal

/-! ## Answers that are not replayed -/

/-- What a query answers whose source answers as given. -/
def Setting.answered (setting : Setting γ ι ε) (key : String) (answer : List ε) :
    Action (World γ ε) (List ε) :=
  setting.backend.queryMany .root key (Pure.pure answer)

/-- A query that asks the source and answers with entities of different identifiers, each of which
is read back as it was stored, answers something else when it is asked again, after other queries
were answered with entities of other identifiers. -/
def Setting.Mislays (setting : Setting γ ι ε) (key : String) (answer : List ε)
    (others : List (String × List ε)) (again : List ε) (world : World γ ε) : Prop :=
  (∃ note ∈ ((Read.many key (Pure.pure answer)).watch setting.backend .root world).2.notes,
    note.Asks) ∧
  (setting.answered key answer world).1 = .ok answer ∧
  (answer.map setting.schema.idOf).Nodup ∧
  (∀ entity ∈ answer, setting.schema.Keeps entity) ∧
  (∀ other ∈ others, ∀ entity ∈ other.2,
    setting.schema.idOf entity ∉ answer.map setting.schema.idOf) ∧
  (setting.answered key again
    (others.foldl (fun reached other => (setting.answered other.1 other.2 reached).2)
      (setting.answered key answer world).2)).1 ≠ .ok answer

instance [DecidableEq ε] (setting : Setting γ ι ε) (key : String) (answer : List ε)
    (others : List (String × List ε)) (again : List ε) (world : World γ ε) :
    Decidable (setting.Mislays key answer others again world) :=
  inferInstanceAs (Decidable (_ ∧ _))

/-- A cache of entries behind an open gate and in front of a plain source. -/
def IdKind.cache (kind : IdKind ι) : Setting Unit ι (Entry ι) :=
  ⟨kind.schema, .opened, .plain, false⟩

/-- Switches that are told apart by their bytes and not by their JSON text. -/
def IdKind.twin : IdKind Bool where
  label := "twin"
  toDatum id := .unitCase id.toNat "x"
  shape := .choice [("x", .none), ("x", .none)]
  ofDatum?
    | .unitCase index _ => some (index == 1)
    | _ => none
  literal := toString
  nth n := n % 2 == 0

/-- Small numbers. -/
def IdKind.byte : IdKind UInt8 where
  label := "byte"
  toDatum id := .unsigned .w8 id.toNat
  shape := .unsigned .w8
  ofDatum?
    | .unsigned _ value => some (.ofNat value)
    | _ => none
  literal id := toString id.toNat
  nth n := .ofNat n

/-- A cache in which hits are read back with the remainders of their identifiers by four. -/
def foldedSetting : Setting Unit UInt8 (Entry UInt8) :=
  { IdKind.byte.cache with
    schema := { IdKind.byte.schema with readId := do return (← IdKind.byte.read) % 4 } }

/-- A world in which a cached query lists a number that can be stored and has no query. -/
def wideWorld : World Unit (Entry Nat) :=
  { World.initial () [] 0 with
    repository := Repository.after IdKind.wide.schema
      [.request .initial .root (.createHit ⟨"k", [UInt64.size], ⟨0, 0⟩⟩)] .empty }

/-- An answer is not replayed if an identifier of it has no JSON text, or shares it with another
one, be it of the same answer or of one that is stored later; if its identifiers, or those of
another query, are not read back as they were written; or if there was a hit before that cannot be
removed, since it lists an identifier without a query. -/
theorem query_is_asked_again :
    IdKind.map.cache.Mislays "k" [⟨⟨[([1], 1)]⟩, "a"⟩] [] [] (.initial () [] 0) ∧
    IdKind.twin.cache.Mislays "k" [⟨false, "a"⟩, ⟨true, "b"⟩] [] [] (.initial () [] 0) ∧
    IdKind.twin.cache.Mislays "k" [⟨false, "a"⟩] [("o", [⟨true, "b"⟩])] []
      (.initial () [] 0) ∧
    foldedSetting.Mislays "k" [⟨5, "a"⟩] [] [] (.initial () [] 0) ∧
    foldedSetting.Mislays "k" [⟨1, "a"⟩] [("o", [⟨5, "b"⟩, ⟨6, "c"⟩]), ("o", [])] []
      (.initial () [] 0) ∧
    IdKind.wide.cache.Mislays "k" [] [] [⟨0, "a"⟩] wideWorld := by
  decide +kernel

end Simulation

end QueryCache
