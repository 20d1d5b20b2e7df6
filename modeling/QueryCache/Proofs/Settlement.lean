import QueryCache.Proofs.FailOpen
import QueryCache.Proofs.Integrity
import QueryCache.Proofs.Repair

/-!
# Settled answers

An answer is settled in a view when a hit of its query lists it and every entity of it has its copy,
while nothing else is listed without a copy either. Then the query is replayed. And it stays so
while the context reads what it likes: other reads store copies and record hits, but a copy of a
listed entity is overwritten by the same entity only, and no hit is missing a copy, so that none
is removed.
-/

namespace QueryCache

open QueryCache.Action Wire

variable {ι ε : Type} {schema : Schema ι ε}

/-- The copy of an entity is among rows. -/
def Rows.HoldCopy (schema : Schema ι ε) (rows : Rows) (entity : ε) : Prop :=
  ∃ place bytes, schema.entityKey (schema.idOf entity) = .ok place ∧
    rows[place]? = some bytes ∧ schema.decode bytes = .ok entity

/-- Copies of entities are found in the order in which they are listed. -/
theorem Entities.gathered_of_holdCopy {rows : Rows} {answer : List ε}
    (copied : ∀ entity ∈ answer, rows.HoldCopy schema entity) :
    gathered schema rows (answer.map schema.idOf) = .ok answer := by
  induction answer with
  | nil => rfl
  | cons entity answer inductionHypothesis =>
      obtain ⟨place, bytes, placed, present, decoded⟩ := copied entity List.mem_cons_self
      have rest := inductionHypothesis fun other member =>
        copied other (List.mem_cons_of_mem _ member)
      rw [List.map_cons, gathered_of_present schema placed present decoded, rest]
      rfl

/-- What is wrong with a record is told as such: that it cannot be written is no failure of a
context, and that it cannot be read does not mean that it is missing. -/
structure Schema.Candid (schema : Schema ι ε) : Prop where
  encode : ∀ entity, Tolerable (schema.encode entity)
  decode : ∀ bytes text, schema.decode bytes ≠ .error (.notFound text)

/-- No copy is missing where every identifier has its row, whether the rows can be read or not. -/
theorem Entities.gathered_ne_notFound (candid : schema.Candid) {rows : Rows} {ids : List ι}
    (stored : ∀ id ∈ ids, ∃ place, schema.entityKey id = .ok place ∧ rows[place]?.isSome)
    (text : String) : gathered schema rows ids ≠ .error (.notFound text) := by
  induction ids with
  | nil => nofun
  | cons id ids inductionHypothesis =>
      obtain ⟨place, placed, isStored⟩ := stored id List.mem_cons_self
      obtain ⟨bytes, present⟩ := Option.isSome_iff_exists.mp isStored
      have rest := inductionHypothesis fun other member =>
        stored other (List.mem_cons_of_mem _ member)
      cases decoded : schema.decode bytes with
      | ok entity =>
          rw [gathered_of_present schema placed present decoded]
          exact fun missing => rest (map_eq_error_iff.mp missing)
      | error e =>
          have unread : gathered schema rows (id :: ids) = .error e := by
            rw [gathered, placed]
            change (told schema.decode rows[place]? >>= _) = _
            rw [present, told, decoded]
            rfl
          rw [unread]
          rintro ⟨⟩
          exact candid.decode bytes text decoded

/-- No other identifier has the place of one of the entities. -/
def Schema.Unshared (schema : Schema ι ε) (entities : List ε) : Prop :=
  ∀ entity ∈ entities, ∀ id place, schema.entityKey (schema.idOf entity) = .ok place →
    schema.entityKey id = .ok place → id = schema.idOf entity

theorem Schema.Distinct.unshared (distinct : schema.Distinct) (entities : List ε) :
    schema.Unshared entities :=
  fun _ _ _ _ placed otherPlaced => distinct.entityKey_inj otherPlaced placed

/-- What makes an answer last: identifiers are read back, failures of records are told as such, and
no other entity is stored in the place of an entity of the answer. -/
structure Schema.Preserves (schema : Schema ι ε) (answer : List ε) : Prop where
  readsBack : schema.ReadsBack
  candid : schema.Candid
  unshared : schema.Unshared answer

/-- An entity keeps its copy if no other entity is stored over it. -/
theorem Overlaid.holdCopy {answer entities : List ε} (unshared : schema.Unshared answer)
    {earlier later : Rows} (overlaid : Overlaid schema entities earlier later) {entity : ε}
    (member : entity ∈ answer) (keeps : schema.Keeps entity)
    (agrees : ∀ other ∈ entities, schema.idOf other = schema.idOf entity → other = entity)
    (copied : earlier.HoldCopy schema entity) : later.HoldCopy schema entity := by
  obtain ⟨place, bytes, placed, present, decoded⟩ := copied
  rcases overlaid place with same | ⟨other, isOther, otherPlaced, stored, encoded, overwritten⟩
  · exact ⟨place, bytes, placed, same.trans present, decoded⟩
  · obtain rfl := agrees other isOther (unshared entity member _ place placed otherPlaced)
    obtain ⟨written, sameWritten, readBack⟩ := exists_of_bind_eq_ok keeps
    cases encoded.symm.trans sameWritten
    exact ⟨place, stored, placed, overwritten, readBack⟩

/-- Entities concur with an answer: where they share an identifier with it, they are in it. -/
def Concurs (schema : Schema ι ε) (answer entities : List ε) : Prop :=
  ∀ entity ∈ entities, ∀ known ∈ answer, schema.idOf entity = schema.idOf known → entity = known

namespace View

/-- An answer can be replayed: a hit of the query lists its entities in their order, and each of
them has its copy. -/
structure Answers (schema : Schema ι ε) (key : String) (answer : List ε) (view : View) : Prop where
  listed : ∃ hit, view.hits.Hold schema key hit ∧ hit.entityIds = answer.map schema.idOf
  copied : ∀ entity ∈ answer, view.copies.HoldCopy schema entity

/-- An answer can be replayed, and whatever else is listed is copied too. -/
structure Settled (schema : Schema ι ε) (key : String) (answer : List ε) (view : View) : Prop where
  answers : view.Answers schema key answer
  intact : view.Intact schema

section Settled

variable {key : String} {answer entities : List ε} {view : View} {copies : Rows}

/-- What is settled stays so when copies of entities that concur with the answer are stored. -/
theorem Settled.overlaid (preserves : schema.Preserves answer)
    (keeps : ∀ entity ∈ answer, schema.Keeps entity) (concurs : Concurs schema answer entities)
    (settled : view.Settled schema key answer)
    (overlaid : Overlaid schema entities view.copies copies) :
    View.Settled schema key answer { view with copies } where
  answers.listed := settled.answers.listed
  answers.copied entity member :=
    overlaid.holdCopy preserves.unshared member (keeps entity member)
      (fun other isOther same => concurs other isOther entity member same)
      (settled.answers.copied entity member)
  intact :=
    let revised : Revised schema (fun _ => True) view { view with copies } :=
      .copied (.refl view) overlaid.isSome
    revised.intact preserves.readsBack settled.intact

/-- What is settled stays so when the hit of another query is recorded, all of whose entities are
copied. -/
theorem Settled.recorded (readsBack : schema.ReadsBack) (settled : view.Settled schema key answer)
    {hit : Hit ι} {bytes : Bytes} (encoded : schema.encodeHit hit = .ok bytes)
    (elsewhere : key ≠ hit.queryId)
    (copied : ∀ id ∈ hit.entityIds,
      ∃ place, schema.entityKey id = .ok place ∧ view.copies[place]?.isSome) :
    View.Settled schema key answer { view with hits := view.hits.insert hit.queryId bytes } where
  answers.listed := by
    obtain ⟨own, ⟨stored, present, decoded⟩, ids⟩ := settled.answers.listed
    refine ⟨own, ⟨stored, ?_, decoded⟩, ids⟩
    rw [Std.ExtTreeMap.getElem?_insert, if_neg]
    · exact present
    · exact fun same => elsewhere (Std.LawfulEqCmp.eq_of_compare same).symm
  answers.copied := settled.answers.copied
  intact :=
    let revised : Revised schema (fun _ => True) view
        { view with hits := view.hits.insert hit.queryId bytes } :=
      .recorded (.refl view) trivial encoded copied
    revised.intact readsBack settled.intact

end Settled

end View

namespace Simulation

open World

variable {γ α β : Type}

/-- What happened from one world to another left the repository and the clock as they were, and a
context that was live is live. -/
structure Aloof (ctx : Context) (earlier later : World γ ε) : Prop where
  repository : later.repository = earlier.repository
  clock : later.clock = earlier.clock
  live : ctx.check earlier.signals = .ok () → ctx.check later.signals = .ok ()

instance {ctx : Context} : IsPreorder (World γ ε) (Aloof ctx) where
  refl _ := ⟨rfl, rfl, id⟩
  trans _ _ _ first second :=
    ⟨second.repository.trans first.repository, second.clock.trans first.clock,
      fun live => second.live (first.live live)⟩

section Aloof

variable {ctx : Context} {view : View} {world later : World γ ε}

/-- What is seen is seen in the scene of the world. -/
theorem Sees.own {scene : Scene ε} (sees : Sees schema scene ctx view world) :
    Sees schema world.scene ctx view world := by
  rw [sees.inScene]
  exact sees

/-- Where the repository was left alone the same is seen. -/
theorem Sees.aloof (aloof : Aloof ctx world later)
    (sees : Sees schema world.scene ctx view world) :
    Sees schema later.scene ctx view later := by
  have live := aloof.live sees.hits.live
  refine ⟨rfl, ?_, ?_, ?_⟩
  all_goals rw [aloof.repository]
  · exact sees.sound
  · exact ⟨sees.hits.ordered, sees.hits.healthy, live, sees.hits.view⟩
  · exact ⟨sees.copies.ordered, sees.copies.healthy, live, sees.copies.view⟩

theorem aloof_onSource (direct : Signals → Action (Source ε) α) :
    (onSource direct : Action (World γ ε) α).Along (Aloof ctx) :=
  fun _ => ⟨rfl, rfl, id⟩

theorem aloof_sourceFindAll (setting : Setting γ ι ε) :
    (setting.sourceFindAll ctx).Along (Aloof ctx) := by
  refine (aloof_onSource _).attempt.bind fun found => ?_
  split
  · exact along_fail _
  · exact along_fail _
  · exact along_liftM _

end Aloof

/-- A context sees something of a certain kind. -/
def Setting.Shows (setting : Setting γ ι ε) (ctx : Context) (kind : View → Prop)
    (world : World γ ε) : Prop :=
  ∃ view, Sees setting.schema world.scene ctx view world ∧ kind view

/-- If a context saw something of a certain kind, it sees something of that kind. -/
def Setting.Retains (setting : Setting γ ι ε) (ctx : Context) (kind : View → Prop)
    (earlier later : World γ ε) : Prop :=
  setting.Shows ctx kind earlier → setting.Shows ctx kind later

instance {setting : Setting γ ι ε} {ctx : Context} {kind : View → Prop} :
    IsPreorder (World γ ε) (setting.Retains ctx kind) where
  refl _ := id
  trans _ _ _ first second shows := second (first shows)

/-- The closure of a read, if it comes with one, leaves the repository and the clock alone and lets
the context live. -/
def StaysOut (ctx : Context) : Read (World γ ε) ι ε → Prop
  | .many _ query => query.Along (Aloof ctx)
  | .one _ query => query.Along (Aloof ctx)
  | _ => True

section Retains

variable {setting : Setting γ ι ε} {ctx : Context} {kind : View → Prop}

theorem Leads.retains {action : Action (World γ ε) α}
    (leads : ∀ scene view, kind view →
      Leads setting.schema scene ctx view action fun _ later => kind later) :
    action.Along (setting.Retains ctx kind) := by
  rintro world ⟨view, sees, isKind⟩
  obtain ⟨later, seesLater, -, isKindLater⟩ := leads world.scene view isKind world sees
  exact ⟨later, seesLater.own, isKindLater⟩

theorem retains_aloof {action : Action (World γ ε) α} (aloof : action.Along (Aloof ctx)) :
    action.Along (setting.Retains ctx kind) := by
  rintro world ⟨view, sees, isKind⟩
  exact ⟨view, sees.aloof (aloof world), isKind⟩

variable [DecidableEq ι]

theorem retains_record (event : Event) :
    (setting.backend.record event).Along (setting.Retains ctx kind) := by
  refine Leads.retains fun _ _ isKind => (ends_record event).weaken ?_
  rintro _ _ ⟨-, rfl⟩
  exact isKind

theorem retains_tolerate (label : String) (e : Error) :
    (setting.backend.tolerate label e).Along (setting.Retains ctx kind) := by
  unfold Backend.tolerate
  split
  · exact along_fail e
  · exact retains_record _

theorem retains_bypass {query : Action (World γ ε) α} (aloof : query.Along (Aloof ctx))
    (label : String) (e : Error) :
    (setting.backend.bypass label e query).Along (setting.Retains ctx kind) :=
  (retains_tolerate label e).bind fun _ => retains_aloof aloof

end Retains

section Reads

variable [DecidableEq ι] {setting : Setting γ ι ε} {scene : Scene ε} {ctx : Context} {view : View}
  {key other : String} {answer entities : List ε}
  (passes : setting.gate.Passes) (preserves : setting.schema.Preserves answer)
  (keeps : ∀ entity ∈ answer, setting.schema.Keeps entity)
include passes

theorem ends_createHit_of_unwritten {hit : Hit ι} {e : Error}
    (unwritten : setting.schema.encodeHit hit = .error e) :
    Ends setting.schema scene ctx view (setting.backend.hits.create ctx hit) (.error e) view := by
  refine leads_ask passes ?_
  apply ends_onHits
  · exact Hits.along_create _ _ _ (Hits.allows_legal _ _)
  · exact Table.turns_precheck.bind (Table.turns_liftM unwritten).bind_error

include preserves keeps

/-- However much of another answer can be stored, a settled answer stays settled, if the other
concurs with it. -/
theorem ensures_remember_settled (settled : view.Settled setting.schema key answer)
    (elsewhere : key ≠ other) (entities : List ε) :
    Ensures setting.schema scene ctx view (setting.backend.remember ctx other entities)
      fun _ later => Concurs setting.schema answer entities →
        later.Settled setting.schema key answer := by
  refine Ensures.bind (leads_upsert passes preserves.candid.encode entities).attempt ?_
  rintro outcome between ⟨tolerable, sameHits, overlaid, placed⟩
  have settledBetween (concurs : Concurs setting.schema answer entities) :
      between.Settled setting.schema key answer := by
    have stored := settled.overlaid preserves keeps concurs overlaid
    rwa [← sameHits] at stored
  cases outcome with
  | error e => exact (ends_tolerate (tolerable e rfl) other).ensures settledBetween
  | ok _ =>
      refine Ends.bind ends_now ?_
      let hit : Hit ι := ⟨other, entities.map setting.schema.idOf, scene.clock⟩
      cases encoded : setting.schema.encodeHit hit with
      | error e =>
          refine Ends.bind (ends_createHit_of_unwritten passes encoded).attempt ?_
          have tolerable := setting.schema.tolerable_encodeHit hit e encoded
          exact (ends_tolerate tolerable other).ensures settledBetween
      | ok bytes =>
          refine Ends.bind (ends_createHit passes encoded).attempt (ensures_pure fun concurs => ?_)
          refine (settledBetween concurs).recorded preserves.readsBack encoded elsewhere
            fun id lists => ?_
          obtain ⟨entity, member, rfl⟩ := List.mem_map.mp lists
          exact placed rfl entity member

/-- A query of which no hit is stored leaves a settled answer settled. -/
theorem shows_settled_ask (settled : view.Settled setting.schema key answer)
    (elsewhere : key ≠ other) {query : Action (World γ ε) (List ε)}
    (aloof : query.Along (Aloof ctx)) {world : World γ ε}
    (sees : Sees setting.schema world.scene ctx view world)
    (concurs : ∀ entities, (query world).1 = .ok entities →
      (setting.backend.ask ctx other query world).1 = .ok entities →
        Concurs setting.schema answer entities) :
    setting.Shows ctx (View.Settled setting.schema key answer)
      (setting.backend.ask ctx other query world).2 := by
  have seesAsked := sees.aloof (aloof world)
  unfold Backend.ask at concurs ⊢
  rw [bind_apply] at concurs ⊢
  generalize query world = asked at seesAsked concurs ⊢
  obtain ⟨e | entities, asked⟩ := asked
  · exact ⟨view, seesAsked, settled⟩
  · have goesOn : Ensures setting.schema asked.scene ctx view (do
        setting.backend.record (.miss other)
        setting.backend.remember ctx other entities
        return entities) fun value later => value = entities ∧
          (Concurs setting.schema answer entities → later.Settled setting.schema key answer) := by
      refine Ends.bind (ends_record _) (Ensures.bind (ensures_remember_settled passes preserves
        keeps settled elsewhere entities) ?_)
      intro _ later settles
      exact ensures_pure ⟨rfl, settles⟩
    obtain ⟨later, seesLater, -, _, answered, rfl, settles⟩ := goesOn asked seesAsked
    exact ⟨later, seesLater.own, settles (concurs _ rfl answered)⟩

omit keeps in
/-- The replay of any query leaves a settled answer settled: no copy is missing, so that nothing is
removed. -/
theorem shows_settled_replay (settled : view.Settled setting.schema key answer) {hit : Hit ι}
    (held : view.hits.Hold setting.schema other hit) {query : Action (World γ ε) (List ε)}
    (aloof : query.Along (Aloof ctx)) {world : World γ ε}
    (sees : Sees setting.schema world.scene ctx view world) :
    setting.Shows ctx (View.Settled setting.schema key answer)
      (setting.backend.replay ctx other hit query world).2 := by
  obtain ⟨after, seesFound, -, found, same⟩ := ends_findEntities passes hit.entityIds world sees
  rw [same] at seesFound
  have shows : setting.Shows ctx (View.Settled setting.schema key answer)
      (setting.backend.entities.findByIds ctx hit.entityIds world).2 :=
    ⟨view, seesFound.own, settled⟩
  have complete := Entities.gathered_ne_notFound preserves.candid (settled.intact other hit held)
  unfold Backend.replay
  rw [bind_apply, attempt_apply]
  dsimp only
  rw [found]
  generalize Entities.gathered setting.schema view.copies hit.entityIds = outcome at complete ⊢
  cases outcome with
  | ok entities => exact ((retains_record _).bind fun _ => along_pure entities) _ shows
  | error e =>
      cases e with
      | notFound missing => exact absurd rfl (complete missing)
      | _ => exact retains_bypass aloof _ _ _ shows

/-- A query leaves a settled answer settled, if what it answers concurs with it. -/
theorem retains_settled_queryMany {query : Action (World γ ε) (List ε)}
    (aloof : query.Along (Aloof ctx)) (world : World γ ε)
    (concurs : ∀ entities middle, (query middle).1 = .ok entities →
      (setting.backend.queryMany ctx other query world).1 = .ok entities →
        Concurs setting.schema answer entities) :
    setting.Retains ctx (View.Settled setting.schema key answer) world
      (setting.backend.queryMany ctx other query world).2 := by
  rintro ⟨view, sees, settled⟩
  obtain ⟨after, seesFound, -, found, same⟩ := ends_findHit passes other world sees
  rw [same] at seesFound
  unfold Backend.queryMany at concurs ⊢
  rw [bind_of_ok (check_apply sees), bind_apply, attempt_apply] at concurs ⊢
  dsimp only at concurs ⊢
  rw [found] at concurs ⊢
  cases isTold : told setting.schema.decodeHit view.hits[other]? with
  | error e =>
      exact retains_bypass aloof _ _ _ ⟨_, seesFound.own, settled⟩
  | ok known =>
      rw [isTold] at concurs
      cases known with
      | some hit =>
          have held := exists_of_told_eq_some isTold
          exact shows_settled_replay passes preserves settled held aloof seesFound.own
      | none =>
          have absent := eq_none_of_told_eq_none isTold
          have elsewhere : key ≠ other := by
            rintro rfl
            obtain ⟨hit, ⟨bytes, present, -⟩, -⟩ := settled.answers.listed
            rw [absent] at present
            cases present
          exact shows_settled_ask passes preserves keeps settled elsewhere aloof
            seesFound.own fun entities asked => concurs entities _ asked

theorem retains_settled_queryOne {query : Action (World γ ε) (Option ε)}
    (aloof : query.Along (Aloof ctx)) (world : World γ ε)
    (concurs : ∀ found, (setting.backend.queryOne ctx other query world).1 = .ok found →
      Concurs setting.schema answer found.toList) :
    setting.Retains ctx (View.Settled setting.schema key answer) world
      (setting.backend.queryOne ctx other query world).2 := by
  let many : Action (World γ ε) (List ε) := do return (← query).toList
  have many_aloof : many.Along (Aloof ctx) := aloof.bind fun _ => along_pure _
  unfold Backend.queryOne at concurs ⊢
  rw [bind_pure_snd _ List.head?]
  refine retains_settled_queryMany passes preserves keeps many_aloof world ?_
  intro entities middle asked answered
  obtain ⟨found, -, formed, -⟩ := exists_of_bind_apply_eq_ok asked
  cases formed
  rw [bind_of_ok (Prod.ext answered rfl)] at concurs
  have single := concurs _ rfl
  cases found <;> exact single

theorem retains_settled_findById (id : ι) (world : World γ ε)
    (concurs : ∀ found, (setting.backend.findById ctx id world).1 = .ok found →
      Concurs setting.schema answer found.toList) :
    setting.Retains ctx (View.Settled setting.schema key answer) world
      (setting.backend.findById ctx id world).2 := by
  rintro ⟨view, sees, settled⟩
  have aloof : (setting.backend.source.findById ctx id).Along (Aloof ctx) := aloof_onSource _
  unfold Backend.findById at concurs ⊢
  rw [bind_of_ok (check_apply sees), bind_apply, attempt_apply] at concurs ⊢
  dsimp only at concurs ⊢
  cases placed : setting.schema.entityKey id with
  | error e =>
      obtain ⟨after, seesFound, -, found, same⟩ :=
        ends_findEntity_of_unnamed passes placed world sees
      rw [same] at seesFound
      rw [found]
      exact retains_bypass aloof _ _ _ ⟨view, seesFound.own, settled⟩
  | ok place =>
      obtain ⟨after, seesFound, -, found, same⟩ := ends_findEntity passes placed world sees
      rw [same] at seesFound
      have shows : setting.Shows ctx (View.Settled setting.schema key answer)
          (setting.backend.entities.findById ctx id world).2 := ⟨view, seesFound.own, settled⟩
      rw [found] at concurs ⊢
      cases isTold : told setting.schema.decode view.copies[place]? with
      | error e => exact retains_bypass aloof _ _ _ shows
      | ok known =>
          rw [isTold] at concurs
          cases known with
          | some entity => exact shows
          | none =>
              cases named : setting.backend.schema.findByIdKey id with
              | error e =>
                  -- There is no query to ask, and the lookup ends here.
                  exact shows
              | ok own =>
                  dsimp only at concurs
                  rw [named] at concurs
                  exact retains_settled_queryOne passes preserves keeps aloof _ concurs shows

theorem retains_settled_findAll (world : World γ ε)
    (concurs : ∀ entities, (setting.backend.findAll ctx world).1 = .ok entities →
      Concurs setting.schema answer entities) :
    setting.Retains ctx (View.Settled setting.schema key answer) world
      (setting.backend.findAll ctx world).2 := by
  rintro ⟨view, sees, settled⟩
  unfold Backend.findAll at concurs ⊢
  rw [bind_of_ok (check_apply sees)] at concurs ⊢
  cases offered : setting.backend.source.findAll with
  | none =>
      rw [offered] at concurs
      exact ⟨view, sees, settled⟩
  | some findAll =>
      rw [offered] at concurs
      have aloof : (findAll ctx).Along (Aloof ctx) := by
        rw [offered_eq_some offered]
        exact aloof_sourceFindAll setting
      exact retains_settled_queryMany passes preserves keeps aloof world
        (fun entities _ _ => concurs entities) ⟨view, sees, settled⟩

/-- Every read leaves a settled answer settled, if it answers with entities that concur. -/
theorem retains_settled_read {read : Read (World γ ε) ι ε} (aloof : StaysOut ctx read)
    (world : World γ ε)
    (concurs : ∀ entities, (read.run setting.backend ctx world).1 = .ok entities →
      Concurs setting.schema answer entities) :
    setting.Retains ctx (View.Settled setting.schema key answer) world
      (read.run setting.backend ctx world).2 := by
  cases read with
  | entity id =>
      change setting.Retains ctx _ world ((do
        return (← setting.backend.findById ctx id).toList : Action (World γ ε) _) world).2
      rw [bind_pure_snd _ Option.toList]
      refine retains_settled_findById passes preserves keeps id world ?_
      exact fun found answered => concurs _ (congrArg Prod.fst (bind_of_ok (Prod.ext answered rfl)))
  | all => exact retains_settled_findAll passes preserves keeps world concurs
  | many other query =>
      exact retains_settled_queryMany passes preserves keeps aloof world
        fun entities _ _ => concurs entities
  | one other query =>
      change setting.Retains ctx _ world ((do
        return (← setting.backend.queryOne ctx other query).toList : Action (World γ ε) _) world).2
      rw [bind_pure_snd _ Option.toList]
      refine retains_settled_queryOne passes preserves keeps aloof world ?_
      exact fun found answered => concurs _ (congrArg Prod.fst (bind_of_ok (Prod.ext answered rfl)))

end Reads

end Simulation

end QueryCache
