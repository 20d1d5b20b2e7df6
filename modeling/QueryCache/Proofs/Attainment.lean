import QueryCache.Proofs.Atomicity
import QueryCache.Proofs.Cascade
import QueryCache.Proofs.Outcomes

/-!
# What a success stands for

However a backend is hindered, what succeeded was done: `Attains` says of an action which view it
has led to in case that it succeeds. It has a rule for every call, for transactions, and for each
way of building actions; nothing is said of actions that fail, which is the business of atomicity.

A removal that succeeded did away with its start, and whatever relation of views removals keep step
by step (`Removing`) holds of what it did as a whole. So what is still listed afterwards kept its
copy (`Trims`). A lookup that succeeded told what is seen.
-/

namespace QueryCache

open QueryCache.Action Wire

/-- A relation of a view and what removals leave of it, which they keep step by step: when a hit is
removed and then all that it lists, and when a copy that could be read and is not listed any more is
removed. -/
structure Removing {ι ε : Type} (schema : Schema ι ε) (step : View → View → Prop) : Prop where
  refl : ∀ view, step view view
  trans : ∀ first second third, step first second → step second third → step first third
  sub : ∀ {earlier later}, step earlier later → View.Sub later earlier
  eraseHit : ∀ {view later : View} {queryId : String} {hit : Hit ι},
    view.hits.Hold schema queryId hit →
    step { view with hits := view.hits.erase queryId } later →
    (∀ id ∈ hit.entityIds, Gone schema id later) → step view later
  eraseCopy : ∀ {view : View} {id : ι} {place : String} {bytes : Bytes} {entity : ε},
    schema.entityKey id = .ok place → view.copies[place]? = some bytes →
    schema.decode bytes = .ok entity →
    (∀ key hit, view.hits.Hold schema key hit → id ∉ hit.entityIds) →
    step view { view with copies := view.copies.erase place }

/-- A view from which hits and copies were removed, so that what is still listed kept its copy. -/
structure Trims {ι ε : Type} (schema : Schema ι ε) (earlier later : View) : Prop where
  sub : View.Sub later earlier
  kept : ∀ key hit, later.hits.Hold schema key hit → ∀ id ∈ hit.entityIds,
    ∀ place, schema.entityKey id = .ok place → earlier.copies[place]?.isSome →
      later.copies[place]?.isSome

namespace Trims

variable {ι ε : Type} {schema : Schema ι ε}

theorem refl (view : View) : Trims schema view view :=
  ⟨.refl view, fun _ _ _ _ _ _ _ present => present⟩

theorem trans {first second third : View} (earlier : Trims schema first second)
    (later : Trims schema second third) : Trims schema first third where
  sub := later.sub.trans earlier.sub
  kept key hit held id lists place placed present :=
    later.kept key hit held id lists place placed
      (earlier.kept key hit (later.sub.hits.hold held) id lists place placed present)

theorem eraseHit (view : View) (queryId : String) :
    Trims schema view { view with hits := view.hits.erase queryId } :=
  ⟨⟨Rows.sub_erase _ _, .refl _⟩, fun _ _ _ _ _ _ _ present => present⟩

/-- The copy of an entity may go when no hit lists the entity any more. -/
theorem eraseCopy (distinct : schema.Distinct) {view : View} {id : ι} {key : String}
    (named : schema.entityKey id = .ok key)
    (unlisted : ∀ key hit, view.hits.Hold schema key hit → id ∉ hit.entityIds) :
    Trims schema view { view with copies := view.copies.erase key } where
  sub := ⟨.refl _, Rows.sub_erase _ _⟩
  kept query hit held other lists place placed present := by
    rw [Rows.getElem?_erase]
    split
    · rename_i same
      cases distinct.entityKey_inj named (same ▸ placed)
      exact absurd lists (unlisted query hit held)
    · exact present

theorem removing (distinct : schema.Distinct) : Removing schema (Trims schema) where
  refl := .refl
  trans _ _ _ := .trans
  sub := Trims.sub
  eraseHit _ rest _ := (Trims.eraseHit _ _).trans rest
  eraseCopy placed _ _ unlisted := .eraseCopy distinct placed unlisted

theorem empty (view : View) : Trims schema view ⟨∅, ∅⟩ where
  sub := ⟨fun key bytes present => by simp at present, fun key bytes present => by simp at present⟩
  kept := by
    rintro key hit ⟨bytes, present, -⟩
    simp at present

end Trims

/-- The copies of entities were stored, and nothing else was changed. -/
structure Upserted {ι ε : Type} (schema : Schema ι ε) (entities : List ε) (earlier later : View) :
    Prop where
  hits : later.hits = earlier.hits
  grows : ∀ key : String, earlier.copies[key]?.isSome → later.copies[key]?.isSome
  copied : ∀ entity ∈ entities, ∃ key, schema.entityKey (schema.idOf entity) = .ok key ∧
    later.copies[key]?.isSome
  onto : ∀ (key : String) bytes, later.copies[key]? = some bytes →
    earlier.copies[key]? = some bytes ∨
      ∃ entity ∈ entities, schema.entityKey (schema.idOf entity) = .ok key ∧
        schema.encode entity = .ok bytes

/-- Where rows were read as hits, every row was, and its hit was among them. -/
theorem Hits.exists_mem_of_ofRows {ι ε : Type} {schema : Schema ι ε} {rows : Rows}
    {listing : Listing} {hits : List (Hit ι)} (read : ofRowsIn schema listing rows = .ok hits)
    {key : String} {bytes : Bytes} (present : rows[key]? = some bytes) :
    ∃ hit ∈ hits, schema.decodeHit bytes = .ok hit := by
  have ofList (list : List (String × Bytes)) (hits : List (Hit ι))
      (read : list.mapM (fun row => schema.decodeHit row.2) = .ok hits) :
      ∀ row ∈ list, ∃ hit ∈ hits, schema.decodeHit row.2 = .ok hit := by
    induction list generalizing hits with
    | nil => exact nofun
    | cons row list inductionHypothesis =>
        rw [List.mapM_cons] at read
        obtain ⟨first, decoded, read⟩ := exists_of_bind_eq_ok read
        obtain ⟨others, rest, same⟩ := exists_of_bind_eq_ok read
        cases same
        intro other member
        rcases List.mem_cons.mp member with rfl | member
        · exact ⟨first, List.mem_cons_self, decoded⟩
        · obtain ⟨hit, isIn, decoded⟩ := inductionHypothesis others rest other member
          exact ⟨hit, List.mem_cons_of_mem _ isIn, decoded⟩
  have member := Std.ExtTreeMap.mem_toList_iff_getElem?_eq_some.mpr present
  exact ofList _ hits read (key, bytes) ((listing.perm rows.toList).mem_iff.mpr member)

/-- Where rows were read as hits, every hit that they hold was among them. -/
theorem Hits.mem_of_ofRows {ι ε : Type} {schema : Schema ι ε} {rows : Rows} {listing : Listing}
    {hits : List (Hit ι)} (read : ofRowsIn schema listing rows = .ok hits) {key : String}
    {hit : Hit ι} (held : rows.Hold schema key hit) : hit ∈ hits := by
  obtain ⟨bytes, present, decoded⟩ := held
  obtain ⟨other, isIn, decodedOther⟩ := exists_mem_of_ofRows read present
  cases decoded.symm.trans decodedOther
  exact isIn

/-- Where each hit that was found to list an entity is gone, none lists it any more. -/
theorem Hits.unlisted_of_absent {ι ε : Type} [DecidableEq ι] {schema : Schema ι ε}
    {earlier later : View} (keyed : earlier.Keyed schema) {listing : Listing}
    {hits : List (Hit ι)} (read : ofRowsIn schema listing earlier.hits = .ok hits)
    (sub : View.Sub later earlier) {id : ι}
    (absent : ∀ queryId ∈ (hits.filter fun hit => hit.references id).map Hit.queryId,
      later.hits[queryId]? = none) :
    ∀ key hit, later.hits.Hold schema key hit → id ∉ hit.entityIds := by
  intro key hit held lists
  have heldBefore := sub.hits.hold held
  have references : hit.references id := by simpa [Hit.references] using lists
  have member : hit ∈ hits.filter fun hit => hit.references id :=
    List.mem_filter.mpr ⟨mem_of_ofRows read heldBefore, references⟩
  have gone := absent hit.queryId (List.mem_map_of_mem member)
  obtain ⟨bytes, present, -⟩ := held
  rw [keyed key hit heldBefore, present] at gone
  cases gone

namespace Repository

variable {ι ε : Type} {schema : Schema ι ε} {repository : Repository} {view : View}

/-- A new transaction shows what the one around it shows. -/
theorem seen_opening {place : Option TxId} (sound : repository.Sound schema)
    (soundOpened : (repository.opening place).Sound schema) :
    (repository.opening place).seen (some (repository.lastTx + 1)) = repository.seen place := by
  have hits := Table.view_opening sound.ordered soundOpened.ordered
  have copies := Table.view_opening sound.entitiesOrdered soundOpened.entitiesOrdered
  simp only [seen, opening, hits, copies]

/-- What a transaction showed, the one around it shows after the commit. -/
theorem seen_commit (sound : repository.Sound schema) {tx : TxId} {place : Option TxId}
    (isOpen : repository.hits.opened tx = some place)
    (shown : repository.seen (some tx) = .ok view) :
    seen { repository with
      entities := (Table.commit tx repository.entities).2
      hits := (Table.commit tx repository.hits).2 } place = .ok view := by
  obtain ⟨hits, copies⟩ := seen_eq_ok.mp shown
  rw [seen_eq_ok]
  constructor
  · exact Table.view_commit sound.ordered isOpen hits
  · exact Table.view_commit sound.entitiesOrdered ((sound.paired tx).trans isOpen) copies

/-- Hits are seen in the rows of their queries. -/
theorem Sound.keyed_of_seen (sound : repository.Sound schema) {place : Option TxId}
    (shown : repository.seen place = .ok view) : view.Keyed schema := by
  rintro key hit ⟨bytes, present, decoded⟩
  have legal := sound.keyed.view sound.ordered (seen_eq_ok.mp shown).1
  exact legal key bytes present bytes hit rfl decoded

end Repository

namespace Backend

open Repository

variable {σ ι ε α β : Type} {backend : Backend σ ι ε} {part : σ → Repository}
  {ctx : Context} {view : View}

/-- Where a context sees a view of a sound repository, an action that succeeds has led to a view as
stated. -/
def Attains (backend : Backend σ ι ε) (part : σ → Repository) (ctx : Context) (view : View)
    (action : Action σ α) (post : α → View → Prop) : Prop :=
  ∀ s value, (part s).Sound backend.schema → (part s).seen ctx.tx = .ok view →
    (action s).1 = .ok value →
      (part (action s).2).Sound backend.schema ∧
        ∃ later, (part (action s).2).seen ctx.tx = .ok later ∧ post value later

section Rules

theorem Attains.weaken {action : Action σ α} {post weaker : α → View → Prop}
    (attains : backend.Attains part ctx view action post)
    (weaken : ∀ value later, post value later → weaker value later) :
    backend.Attains part ctx view action weaker := by
  intro s value sound shown succeeds
  obtain ⟨soundLater, later, shownLater, holds⟩ := attains s value sound shown succeeds
  exact ⟨soundLater, later, shownLater, weaken value later holds⟩

theorem attains_pure {value : α} {post : α → View → Prop} (holds : post value view) :
    backend.Attains part ctx view (Pure.pure value) post := by
  rintro s _ sound shown ⟨⟩
  exact ⟨sound, view, shown, holds⟩

theorem attains_fail (e : Error) (post : α → View → Prop) :
    backend.Attains part ctx view (fail e) post := by
  rintro s value - - ⟨⟩

theorem attains_liftM (result : Except Error α) :
    backend.Attains part ctx view (liftM result)
      fun value later => result = .ok value ∧ later = view :=
  fun _ _ sound shown succeeds => ⟨sound, view, shown, succeeds, rfl⟩

theorem Attains.bind {first : Action σ α} {second : α → Action σ β} {middle : α → View → Prop}
    {post : β → View → Prop} (atFirst : backend.Attains part ctx view first middle)
    (atSecond : ∀ value between, middle value between →
      backend.Attains part ctx between (second value) post) :
    backend.Attains part ctx view (first >>= second) post := by
  intro s value sound shown succeeds
  obtain ⟨found, foundFirst, succeedsSecond, same⟩ := exists_of_bind_apply_eq_ok succeeds
  obtain ⟨soundBetween, between, shownBetween, holds⟩ := atFirst s found sound shown foundFirst
  rw [same]
  exact atSecond found between holds _ value soundBetween shownBetween succeedsSecond

/-- What follows an action that only reads starts from the same view. -/
theorem Attains.read {first : Action σ α} {second : α → Action σ β} {told : α → Prop}
    {post : β → View → Prop}
    (atFirst : backend.Attains part ctx view first fun value later => told value ∧ later = view)
    (atSecond : ∀ value, told value → backend.Attains part ctx view (second value) post) :
    backend.Attains part ctx view (first >>= second) post := by
  apply atFirst.bind
  rintro value _ ⟨isTold, rfl⟩
  exact atSecond value isTold

/-- Hits can be taken to be seen in the rows of their queries. -/
theorem Attains.of_keyed {action : Action σ α} {post : α → View → Prop}
    (attains : view.Keyed backend.schema → backend.Attains part ctx view action post) :
    backend.Attains part ctx view action post :=
  fun s value sound shown => attains (sound.keyed_of_seen shown) s value sound shown

/-- Actions one after the other, each of which leads a step on and reaches something that further
steps keep, lead to where all of it is reached. -/
theorem attains_each {action : α → Action σ Unit} {items : List α} {step : View → View → Prop}
    {reached : α → View → Prop} (refl : ∀ start, step start start)
    (trans : ∀ start middle later, step start middle → step middle later → step start later)
    (one : ∀ item ∈ items, ∀ middle, backend.Attains part ctx middle (action item)
      fun _ later => step middle later ∧ reached item later)
    (keeps : ∀ item middle later, reached item middle → step middle later → reached item later) :
    backend.Attains part ctx view (Action.each action items) fun _ later =>
      step view later ∧ ∀ item ∈ items, reached item later := by
  induction items generalizing view with
  | nil => exact attains_pure ⟨refl view, nofun⟩
  | cons item items inductionHypothesis =>
      apply (one item List.mem_cons_self view).bind
      rintro _ between ⟨first, reachedFirst⟩
      refine Attains.weaken (inductionHypothesis fun other member =>
        one other (List.mem_cons_of_mem _ member)) ?_
      rintro _ later ⟨onward, reachedAll⟩
      refine ⟨trans _ _ _ first onward, fun other member => ?_⟩
      rcases List.mem_cons.mp member with rfl | member
      · exact keeps other between later reachedFirst onward
      · exact reachedAll other member

end Rules

namespace Hindered

variable (hindered : backend.Hindered part)
include hindered

/-- A request that succeeded was made. -/
theorem acts_of_ok {request : Request ι ε} {s : σ} {answer : Answer ι ε}
    (succeeds : (backend.stores.perform ctx request s).1 = .ok answer) :
    backend.Acts part ctx request s := by
  apply (hindered.request ctx request s).resolve_left
  rintro ⟨⟨e, failed⟩, -⟩
  cases succeeds.symm.trans failed

/-- A call that would change nothing if it failed changes nothing if it is kept from being made. -/
theorem perform_of_error {request : Request ι ε} {s : σ} {e : Error}
    (clean : ∀ listing signals,
      ((Repository.storesIn backend.schema listing signals).perform ctx request).FailsClean)
    (failed : (backend.stores.perform ctx request s).1 = .error e) :
    part (backend.stores.perform ctx request s).2 = part s := by
  rcases hindered.request ctx request s with ⟨-, same⟩ | ⟨listing, signals, outcome, same⟩
  · exact same
  · exact same.trans (clean listing signals _ _ (outcome.symm.trans failed))

/-- A failure that is worked around leaves the repository as it was. -/
theorem tolerate (label : String) (e : Error) (s : σ) :
    part (backend.tolerate label e s).2 = part s := by
  unfold Backend.tolerate
  split
  · rfl
  · exact hindered.record _ _

theorem attains_check :
    backend.Attains part ctx view (backend.check ctx) fun _ later => True ∧ later = view := by
  intro s value sound shown _
  rw [hindered.check]
  exact ⟨sound, view, shown, trivial, rfl⟩

theorem attains_record (event : Event) :
    backend.Attains part ctx view (backend.record event) fun _ later => True ∧ later = view := by
  intro s value sound shown _
  rw [hindered.record]
  exact ⟨sound, view, shown, trivial, rfl⟩

section Calls

variable (request : Request ι ε) {call : Action σ α} {form : α → Answer ι ε}
  (made : backend.stores.perform ctx request = call.map form)
  (injective : ∀ left right, form left = form right → left = right)
include made injective

/-- A call that succeeded was made, and succeeded as it was made. -/
theorem made_of_ok {direct : Listing → Signals → Action Repository α}
    (same : ∀ listing signals, (Repository.storesIn backend.schema listing signals).perform ctx
      request = (direct listing signals).map form) {s : σ} {value : α}
    (succeeds : (call s).1 = .ok value) :
    ∃ listing signals, (direct listing signals (part s)).1 = .ok value ∧
      part (call s).2 = (direct listing signals (part s)).2 := by
  have answered : (backend.stores.perform ctx request s).1 = .ok (form value) := by
    rw [made, map_apply, succeeds]
    rfl
  obtain ⟨listing, signals, outcome, left⟩ := hindered.acts_of_ok answered
  rw [made, same] at outcome left
  exact ⟨listing, signals, (eq_of_map_eq injective outcome).symm.trans succeeds, left⟩

/-- A call of the store of hits yields what it yields on the table. -/
theorem attains_onHits {direct : Listing → Signals → Action Table α}
    {post : α → Rows → Prop}
    (same : ∀ listing signals, (Repository.storesIn backend.schema listing signals).perform ctx
      request = (onHits (direct listing signals)).map form)
    (yields : ∀ listing signals, Table.Yields ctx view.hits (direct listing signals) post) :
    backend.Attains part ctx view call fun value later =>
      ∃ rows, post value rows ∧ later = { view with hits := rows } := by
  intro s value sound shown succeeds
  obtain ⟨listing, signals, outcome, left⟩ :=
    hindered.made_of_ok request made injective same succeeds
  have soundLater : ((onHits (direct listing signals)).map form (part s)).2.Sound
      backend.schema :=
    same listing signals ▸ sound.perform request
  obtain ⟨hits, copies⟩ := seen_eq_ok.mp shown
  obtain ⟨-, rows, shownLater, holds⟩ := yields listing signals _ value sound.ordered hits outcome
  rw [left]
  refine ⟨soundLater, { view with hits := rows }, seen_eq_ok.mpr ⟨shownLater, copies⟩, ?_⟩
  exact ⟨rows, holds, rfl⟩

/-- A call of the store of entities yields what it yields on the table. -/
theorem attains_onEntities {direct : Listing → Signals → Action Table α}
    {post : α → Rows → Prop}
    (same : ∀ listing signals, (Repository.storesIn backend.schema listing signals).perform ctx
      request = (onEntities (direct listing signals)).map form)
    (yields : ∀ listing signals, Table.Yields ctx view.copies (direct listing signals) post) :
    backend.Attains part ctx view call fun value later =>
      ∃ rows, post value rows ∧ later = { view with copies := rows } := by
  intro s value sound shown succeeds
  obtain ⟨listing, signals, outcome, left⟩ :=
    hindered.made_of_ok request made injective same succeeds
  have soundLater : ((onEntities (direct listing signals)).map form (part s)).2.Sound
      backend.schema :=
    same listing signals ▸ sound.perform request
  obtain ⟨hits, copies⟩ := seen_eq_ok.mp shown
  obtain ⟨-, rows, shownLater, holds⟩ :=
    yields listing signals _ value sound.entitiesOrdered copies outcome
  rw [left]
  refine ⟨soundLater, { view with copies := rows }, seen_eq_ok.mpr ⟨hits, shownLater⟩, ?_⟩
  exact ⟨rows, holds, rfl⟩

end Calls

theorem attains_findHit (queryId : String) :
    backend.Attains part ctx view (backend.hits.findById ctx queryId) fun found later =>
      told backend.schema.decodeHit view.hits[queryId]? = .ok found ∧ later = view := by
  refine Attains.weaken (hindered.attains_onHits (.findHit queryId) rfl
    (fun _ _ same => Answer.hit.inj same) (fun _ _ => rfl)
    fun _ signals => Hits.yields_findById backend.schema signals queryId) ?_
  rintro found later ⟨_, ⟨isTold, rfl⟩, rfl⟩
  exact ⟨isTold, rfl⟩

/-- All hits can be read where they could be listed, in whatever order that was. -/
theorem attains_findHits :
    backend.Attains part ctx view (backend.hits.findAll ctx) fun hits later =>
      (∃ listing, Hits.ofRowsIn backend.schema listing view.hits = .ok hits) ∧ later = view := by
  have yields (listing : Listing) (signals : Signals) :
      Table.Yields ctx view.hits (Hits.findAllIn backend.schema signals listing ctx)
        fun hits later =>
          (∃ listing, Hits.ofRowsIn backend.schema listing view.hits = .ok hits) ∧
            later = view.hits := by
    refine (Hits.yields_findAllIn backend.schema signals listing).weaken ?_
    rintro hits later ⟨read, same⟩
    exact ⟨⟨listing, read⟩, same⟩
  refine Attains.weaken (hindered.attains_onHits .findHits rfl
    (fun _ _ same => Answer.hits.inj same) (fun _ _ => rfl) yields) ?_
  rintro hits later ⟨_, ⟨read, rfl⟩, rfl⟩
  exact ⟨read, rfl⟩

theorem attains_deleteHit (queryId : String) :
    backend.Attains part ctx view (backend.hits.deleteById ctx queryId)
      fun _ later => later = { view with hits := view.hits.erase queryId } := by
  refine Attains.weaken (hindered.attains_onHits (.deleteHit queryId) rfl
    (fun _ _ _ => rfl) (fun _ _ => rfl)
    fun _ signals => Hits.yields_deleteById signals queryId) ?_
  rintro _ later ⟨_, rfl, rfl⟩
  rfl

theorem attains_deleteHits :
    backend.Attains part ctx view (backend.hits.deleteAll ctx)
      fun _ later => later = { view with hits := ∅ } := by
  refine Attains.weaken (hindered.attains_onHits .deleteHits rfl
    (fun _ _ _ => rfl) (fun _ _ => rfl)
    fun _ signals => Hits.yields_deleteAll signals) ?_
  rintro _ later ⟨_, rfl, rfl⟩
  rfl

theorem attains_createHit (hit : Hit ι) :
    backend.Attains part ctx view (backend.hits.create ctx hit) fun _ later =>
      ∃ bytes, backend.schema.encodeHit hit = .ok bytes ∧
        later = { view with hits := view.hits.insert hit.queryId bytes } := by
  refine Attains.weaken (hindered.attains_onHits (.createHit hit) rfl
    (fun _ _ _ => rfl) (fun _ _ => rfl)
    fun _ signals => Hits.yields_create backend.schema signals hit) ?_
  rintro _ later ⟨_, ⟨bytes, encoded, rfl⟩, rfl⟩
  exact ⟨bytes, encoded, rfl⟩

theorem attains_findEntity (id : ι) :
    backend.Attains part ctx view (backend.entities.findById ctx id) fun found later =>
      (∃ key, backend.schema.entityKey id = .ok key ∧
        told backend.schema.decode view.copies[key]? = .ok found) ∧ later = view := by
  refine Attains.weaken (hindered.attains_onEntities (.findEntity id) rfl
    (fun _ _ same => Answer.entity.inj same) (fun _ _ => rfl)
    fun _ signals => Entities.yields_findById backend.schema signals id) ?_
  rintro found later ⟨_, ⟨isTold, rfl⟩, rfl⟩
  exact ⟨isTold, rfl⟩

theorem attains_findEntities (ids : List ι) :
    backend.Attains part ctx view (backend.entities.findByIds ctx ids) fun entities later =>
      Entities.gathered backend.schema view.copies ids = .ok entities ∧ later = view := by
  refine Attains.weaken (hindered.attains_onEntities (.findEntities ids) rfl
    (fun _ _ same => Answer.entities.inj same) (fun _ _ => rfl)
    fun _ signals => Entities.yields_findByIds backend.schema signals ids) ?_
  rintro entities later ⟨_, ⟨all, rfl⟩, rfl⟩
  exact ⟨all, rfl⟩

theorem attains_createEntity (entity : ε) :
    backend.Attains part ctx view (backend.entities.create ctx entity) fun _ later =>
      ∃ key bytes, backend.schema.entityKey (backend.schema.idOf entity) = .ok key ∧
        backend.schema.encode entity = .ok bytes ∧
        later = { view with copies := view.copies.insert key bytes } := by
  refine Attains.weaken (hindered.attains_onEntities (.createEntity entity) rfl
    (fun _ _ _ => rfl) (fun _ _ => rfl)
    fun _ signals => Entities.yields_create backend.schema signals entity) ?_
  rintro _ later ⟨_, ⟨key, bytes, named, -, encoded, rfl⟩, rfl⟩
  exact ⟨key, bytes, named, encoded, rfl⟩

theorem attains_updateEntity (entity : ε) :
    backend.Attains part ctx view (backend.entities.update ctx entity) fun _ later =>
      ∃ key bytes, backend.schema.entityKey (backend.schema.idOf entity) = .ok key ∧
        view.copies[key]? ≠ none ∧ backend.schema.encode entity = .ok bytes ∧
        later = { view with copies := view.copies.insert key bytes } := by
  refine Attains.weaken (hindered.attains_onEntities (.updateEntity entity) rfl
    (fun _ _ _ => rfl) (fun _ _ => rfl)
    fun _ signals => Entities.yields_update backend.schema signals entity) ?_
  rintro _ later ⟨_, ⟨key, bytes, named, present, encoded, rfl⟩, rfl⟩
  exact ⟨key, bytes, named, present, encoded, rfl⟩

theorem attains_upsert (entities : List ε) :
    backend.Attains part ctx view (backend.entities.upsert ctx entities) fun _ later =>
      Upserted backend.schema entities view later := by
  refine Attains.weaken (hindered.attains_onEntities (.upsertEntities entities) rfl
    (fun _ _ _ => rfl) (fun _ _ => rfl)
    fun _ signals => Entities.yields_upsert backend.schema signals entities) ?_
  rintro _ later ⟨copies, ⟨grows, copied, onto⟩, rfl⟩
  exact ⟨rfl, grows, copied, onto⟩

theorem attains_deleteEntity (id : ι) :
    backend.Attains part ctx view (backend.entities.deleteById ctx id) fun _ later =>
      ∃ key, backend.schema.entityKey id = .ok key ∧
        later = { view with copies := view.copies.erase key } := by
  refine Attains.weaken (hindered.attains_onEntities (.deleteEntity id) rfl
    (fun _ _ _ => rfl) (fun _ _ => rfl)
    fun _ signals => Entities.yields_deleteById backend.schema signals id) ?_
  rintro _ later ⟨_, ⟨key, named, rfl⟩, rfl⟩
  exact ⟨key, named, rfl⟩

theorem attains_deleteEntities :
    backend.Attains part ctx view (backend.entities.deleteAll ctx)
      fun _ later => later = { view with copies := ∅ } := by
  refine Attains.weaken (hindered.attains_onEntities .deleteEntities rfl
    (fun _ _ _ => rfl) (fun _ _ => rfl)
    fun _ signals => Entities.yields_deleteAll signals) ?_
  rintro _ later ⟨_, rfl, rfl⟩
  rfl

/-- Where a hit was looked for with success, the context sees something, and what was found is seen
there. -/
theorem told_of_findHit {s : σ} (sound : (part s).Sound backend.schema) {queryId : String}
    {found : Option (Hit ι)} (succeeds : (backend.hits.findById ctx queryId s).1 = .ok found) :
    ∃ view, (part s).seen ctx.tx = .ok view ∧
      told backend.schema.decodeHit view.hits[queryId]? = .ok found := by
  obtain ⟨_, _, outcome, -⟩ := hindered.made_of_ok (.findHit queryId) rfl
    (fun _ _ same => Answer.hit.inj same) (fun _ _ => rfl) succeeds
  have isOpen := (Table.exists_view_iff sound.ordered).mp (Hits.exists_view_of_findById outcome)
  obtain ⟨view, shown⟩ := (exists_seen_iff sound).mpr isOpen
  obtain ⟨-, _, -, isTold, -⟩ := hindered.attains_findHit queryId s found sound shown succeeds
  exact ⟨view, shown, isTold⟩

theorem told_of_findEntity {s : σ} (sound : (part s).Sound backend.schema) {id : ι}
    {found : Option ε} (succeeds : (backend.entities.findById ctx id s).1 = .ok found) :
    ∃ view key, (part s).seen ctx.tx = .ok view ∧ backend.schema.entityKey id = .ok key ∧
      told backend.schema.decode view.copies[key]? = .ok found := by
  obtain ⟨_, _, outcome, -⟩ := hindered.made_of_ok (.findEntity id) rfl
    (fun _ _ same => Answer.entity.inj same) (fun _ _ => rfl) succeeds
  have isOpen := (Table.exists_view_iff sound.entitiesOrdered).mp
    (Entities.exists_view_of_findById outcome)
  have isOpen := isOpen.congr fun tx => (sound.paired tx).symm
  obtain ⟨view, shown⟩ := (exists_seen_iff sound).mpr isOpen
  obtain ⟨-, _, -, ⟨key, named, isTold⟩, -⟩ :=
    hindered.attains_findEntity id s found sound shown succeeds
  exact ⟨view, key, shown, named, isTold⟩

theorem gathered_of_findEntities {s : σ} (sound : (part s).Sound backend.schema)
    (shown : (part s).seen ctx.tx = .ok view) {ids : List ι} {entities : List ε}
    (succeeds : (backend.entities.findByIds ctx ids s).1 = .ok entities) :
    Entities.gathered backend.schema view.copies ids = .ok entities := by
  obtain ⟨-, _, -, gathered, -⟩ := hindered.attains_findEntities ids s entities sound shown succeeds
  exact gathered

/-- A transaction that was begun shows what is seen around it. -/
theorem seen_of_begin {s opened : σ} {inner : Context} (sound : (part s).Sound backend.schema)
    (began : backend.begin ctx s = (.ok inner, opened)) :
    (∃ tx, inner = ctx.withTx tx) ∧ (part opened).Sound backend.schema ∧
      (part opened).seen inner.tx = (part s).seen ctx.tx := by
  rcases hindered.begin_cases sound with ⟨e, failed, -⟩ | ⟨parentOpen, begun, same⟩
  · rw [began] at failed
    cases failed
  · rw [began] at begun same
    cases begun
    have soundOpened : (part opened).Sound backend.schema := same ▸ sound.opening parentOpen
    refine ⟨⟨_, rfl⟩, soundOpened, ?_⟩
    rw [same] at soundOpened ⊢
    exact seen_opening sound soundOpened

/-- In a transaction of its own that succeeded, work began with what was seen and succeeded, and
what was seen at its end is seen after the commit. -/
theorem seen_transact {work : Context → Action σ Unit} {s : σ}
    (stays : ∀ inner, (work inner).Along (backend.Stays part False inner.tx))
    (sound : (part s).Sound backend.schema) (succeeds : (backend.transact ctx work s).1 = .ok ()) :
    ∃ opened,
      let inner := ctx.withTx ((part s).lastTx + 1)
      backend.begin ctx s = (.ok inner, opened) ∧ (part opened).Sound backend.schema ∧
        (part opened).seen inner.tx = (part s).seen ctx.tx ∧ (work inner opened).1 = .ok () ∧
        ∀ later, (part (work inner opened).2).Sound backend.schema →
          (part (work inner opened).2).seen inner.tx = .ok later →
          (part (backend.transact ctx work s).2).Sound backend.schema ∧
            (part (backend.transact ctx work s).2).seen ctx.tx = .ok later := by
  rcases hindered.transact_cases stays sound with
    ⟨e, -, failed, -⟩ | ⟨opened, began, -, soundOpened, atEnd, applied⟩
  · rw [failed] at succeeds
    cases succeeds
  · obtain ⟨-, -, sameSeen⟩ := hindered.seen_of_begin sound began
    rw [applied] at succeeds ⊢
    refine ⟨opened, began, soundOpened, sameSeen, ?_⟩
    generalize work (ctx.withTx ((part s).lastTx + 1)) opened = done at atEnd succeeds ⊢
    obtain ⟨outcome | ⟨⟩, done⟩ := done
    · cases succeeds
    · refine ⟨rfl, fun later soundDone shownLater => ?_⟩
      have answered : (backend.stores.perform (ctx.withTx ((part s).lastTx + 1)) .commit done).1 =
          .ok .done := by
        change ((backend.commit _ done).1).map _ = _
        exact congrArg _ succeeds
      obtain ⟨⟨soundLater, -, -⟩, -⟩ := atEnd.settled_commit (hindered.acts_of_ok answered)
      obtain ⟨-, published⟩ := (hindered.acts_of_ok answered).commit
      rw [atEnd.commit_eq] at published
      refine ⟨soundLater, ?_⟩
      change (part (backend.commit _ done).2).seen ctx.tx = _
      rw [published]
      exact seen_commit soundDone atEnd.isOpen shownLater

/-- A transaction of its own that succeeded was committed, and attained what was done in it. -/
theorem attains_transact {work : Context → Action σ Unit} {post : View → Prop}
    (stays : ∀ inner, (work inner).Along (backend.Stays part False inner.tx))
    (inner : ∀ tx, backend.Attains part (ctx.withTx tx) view (work (ctx.withTx tx))
      fun _ later => post later) :
    backend.Attains part ctx view (backend.transact ctx work) fun _ later => post later := by
  intro s value sound shown succeeds
  obtain ⟨opened, -, soundOpened, sameSeen, worked, ends⟩ :=
    hindered.seen_transact stays sound succeeds
  obtain ⟨soundDone, later, shownLater, holds⟩ :=
    inner ((part s).lastTx + 1) opened () soundOpened (sameSeen.trans shown) worked
  obtain ⟨soundLater, seenLater⟩ := ends later soundDone shownLater
  exact ⟨soundLater, later, seenLater, holds⟩

section Removals

variable [DecidableEq ι]

open Invalidation

section Steps

variable {step : View → View → Prop} (removing : Removing backend.schema step)
include removing

omit [DecidableEq ι] in
/-- A hit that was removed is gone. -/
theorem attains_dropHit {removeEntity : Context → ι → Action σ Unit}
    (removes : ∀ view id, backend.Attains part ctx view (removeEntity ctx id) fun _ later =>
      step view later ∧ Gone backend.schema id later) (queryId : String) :
    backend.Attains part ctx view (dropHit backend removeEntity queryId ctx) fun _ later =>
      step view later ∧ later.hits[queryId]? = none := by
  refine hindered.attains_check.read fun _ _ => ?_
  refine (hindered.attains_findHit queryId).read fun found isTold => ?_
  cases found with
  | none => exact attains_pure ⟨removing.refl view, eq_none_of_told_eq_none isTold⟩
  | some hit =>
      apply (hindered.attains_deleteHit queryId).bind
      rintro _ _ rfl
      refine (hindered.attains_record _).read fun _ _ => ?_
      have one : ∀ id ∈ hit.entityIds, ∀ middle, backend.Attains part ctx middle
          (do
            backend.check ctx
            removeEntity ctx id)
          fun _ later => step middle later ∧ Gone backend.schema id later :=
        fun id _ middle => hindered.attains_check.read fun _ _ => removes middle id
      refine (attains_each removing.refl removing.trans one
        fun _ _ _ gone onward => gone.sub (removing.sub onward)).weaken ?_
      rintro _ later ⟨rest, gone⟩
      have erased : (view.hits.erase queryId)[queryId]? = none := by simp
      exact ⟨removing.eraseHit (exists_of_told_eq_some isTold) rest gone,
        (removing.sub rest).hits.absent erased⟩

/-- An entity that was removed is gone with all that lists it, every hit that is left was read, and
there is a query for the entity. -/
theorem attains_dropEntity {removeHit : Context → String → Action σ Unit}
    (removes : ∀ view queryId, backend.Attains part ctx view (removeHit ctx queryId)
      fun _ later => step view later ∧ later.hits[queryId]? = none) (id : ι) :
    backend.Attains part ctx view (dropEntity backend removeHit id ctx) fun _ later =>
      step view later ∧ Gone backend.schema id later ∧
        (∀ (key : String) bytes, later.hits[key]? = some bytes →
          ∃ hit, backend.schema.decodeHit bytes = .ok hit) ∧
        ∃ query, backend.schema.findByIdKey id = .ok query := by
  refine hindered.attains_check.read fun _ _ => (attains_liftM _).read fun key named => ?_
  apply (removes view key).bind
  rintro _ first ⟨toFirst, ownGone⟩
  refine .of_keyed fun keyed => ?_
  refine hindered.attains_check.read fun _ _ => hindered.attains_findHits.read ?_
  rintro hits ⟨listing, read⟩
  have one : ∀ queryId ∈ (hits.filter fun hit => hit.references id).map Hit.queryId, ∀ middle,
      backend.Attains part ctx middle
        (do
          backend.check ctx
          removeHit ctx queryId)
        fun _ later => step middle later ∧ later.hits[queryId]? = none :=
    fun queryId _ middle => hindered.attains_check.read fun _ _ => removes middle queryId
  apply (attains_each removing.refl removing.trans one
    fun _ _ _ absent onward => (removing.sub onward).hits.absent absent).bind
  rintro _ second ⟨toSecond, absent⟩
  have sub := removing.sub toSecond
  have unlisted := Hits.unlisted_of_absent keyed read sub absent
  have own : ∀ query, backend.schema.findByIdKey id = .ok query → second.hits[query]? = none := by
    intro query sameName
    cases named.symm.trans sameName
    exact sub.hits.absent ownGone
  have decoded (key : String) bytes (present : second.hits[key]? = some bytes) :
      ∃ hit, backend.schema.decodeHit bytes = .ok hit := by
    obtain ⟨hit, -, decoded⟩ := Hits.exists_mem_of_ofRows read (sub.hits key bytes present)
    exact ⟨hit, decoded⟩
  have removed := removing.trans _ _ _ toFirst toSecond
  refine hindered.attains_check.read fun _ _ => ?_
  refine (hindered.attains_findEntity id).read ?_
  rintro found ⟨place, placed, isTold⟩
  cases found with
  | none =>
      refine attains_pure
        ⟨removed, ⟨own, unlisted, fun other samePlace => ?_⟩, decoded, key, named⟩
      cases placed.symm.trans samePlace
      exact eq_none_of_told_eq_none isTold
  | some entity =>
      obtain ⟨bytes, present, readable⟩ := exists_of_told_eq_some isTold
      refine (hindered.attains_deleteEntity id).weaken ?_
      rintro _ later ⟨other, samePlace, rfl⟩
      cases placed.symm.trans samePlace
      refine ⟨removing.trans _ _ _ removed (removing.eraseCopy placed present readable unlisted),
        ⟨own, unlisted, ?_⟩, decoded, key, named⟩
      intro other samePlace
      cases placed.symm.trans samePlace
      simp

theorem attains_hitWithin (depth : Nat) (ctx : Context) (view : View) (queryId : String) :
    backend.Attains part ctx view (hitWithin backend depth ctx queryId) fun _ later =>
      step view later ∧ later.hits[queryId]? = none := by
  induction depth generalizing ctx view queryId with
  | zero => exact attains_fail _ _
  | succ depth inductionHypothesis =>
      refine hindered.attains_transact (fun inner => ?_) fun tx => ?_
      · exact hindered.along_dropHit (hindered.along_entityWithin False.elim depth inner) queryId
      · refine hindered.attains_dropHit removing (fun middle id => ?_) queryId
        refine hindered.attains_transact (fun inner => ?_) fun innermost => ?_
        · exact hindered.along_dropEntity (hindered.along_hitWithin False.elim depth inner) id
        · refine (hindered.attains_dropEntity removing (inductionHypothesis _) id).weaken ?_
          rintro _ later ⟨removed, gone, -, -⟩
          exact ⟨removed, gone⟩

/-- A removal of an entity that succeeded came across every hit, and asked for the query of the
entity. -/
theorem attains_entity (id : ι) :
    backend.Attains part ctx view (backend.invalidateEntity ctx id) fun _ later =>
      step view later ∧ Gone backend.schema id later ∧
        (∀ (key : String) bytes, later.hits[key]? = some bytes →
          ∃ hit, backend.schema.decodeHit bytes = .ok hit) ∧
        ∃ query, backend.schema.findByIdKey id = .ok query := by
  intro s
  refine hindered.attains_transact (fun inner => ?_) (fun tx => ?_) s
  · exact hindered.along_dropEntity (hindered.along_hitWithin False.elim _ inner) id
  · exact hindered.attains_dropEntity removing (hindered.attains_hitWithin removing _ _) id

end Steps

section Trims

variable (distinct : backend.schema.Distinct)
include distinct

theorem attains_invalidateQuery (queryId : String) :
    backend.Attains part ctx view (backend.invalidateQuery ctx queryId) fun _ later =>
      Trims backend.schema view later ∧ later.hits[queryId]? = none :=
  fun s =>
    hindered.attains_hitWithin (Trims.removing distinct) (backend.nesting s) ctx view queryId s

theorem attains_invalidateEntity (id : ι) :
    backend.Attains part ctx view (backend.invalidateEntity ctx id) fun _ later =>
      Trims backend.schema view later ∧ Gone backend.schema id later := by
  refine (hindered.attains_entity (Trims.removing distinct) id).weaken ?_
  rintro _ later ⟨trims, gone, -, -⟩
  exact ⟨trims, gone⟩

end Trims

omit [DecidableEq ι] in
theorem attains_dropAll :
    backend.Attains part ctx view (backend.dropAll ctx) fun _ later => later = ⟨∅, ∅⟩ := by
  refine hindered.attains_check.read fun _ _ => ?_
  refine hindered.attains_transact (fun inner => hindered.along_deleteRows) fun tx => ?_
  apply hindered.attains_deleteHits.bind
  rintro _ _ rfl
  refine hindered.attains_deleteEntities.weaken ?_
  rintro _ later rfl
  rfl

end Removals

end Hindered

end Backend

end QueryCache
