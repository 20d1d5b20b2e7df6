import QueryCache.Proofs.Integrity

/-!
# The list of all entities

A cache that is asked for all entities answers with the rows of the source, in their order, as far
as its list goes. A creation leaves a stored list as it is, so that the list lacks what was created
since it was stored; nothing else can make it differ from the rows. Where no entity was created
while a list was stored, the answer is all rows.
-/

namespace QueryCache

open Wire

section Lists

variable {ι ε : Type}

/-- What the identifiers in a stored list are among all identifiers: the first of them, and if the
list is to be whole, all of them. -/
structure Lists (whole : Prop) (ids all : List ι) : Prop where
  first : ids <+: all
  complete : whole → ids = all

variable {whole : Prop} {ids all : List ι}

theorem Lists.refl (whole : Prop) (all : List ι) : Lists whole all all :=
  ⟨List.prefix_rfl, fun _ => rfl⟩

/-- A list without an identifier is as good when the identifier is no more. -/
theorem Lists.without [DecidableEq ι] (lists : Lists whole ids all) {id : ι} (absent : id ∉ ids) :
    Lists whole ids (all.filter fun other => decide (other ≠ id)) := by
  have kept : ids.filter (fun other => decide (other ≠ id)) = ids :=
    List.filter_eq_self.mpr fun other member => decide_eq_true fun same => absent (same ▸ member)
  constructor
  · exact kept ▸ lists.first.filter _
  · exact fun isWhole => kept.symm.trans (congrArg _ (lists.complete isWhole))

/-- A list that need not be whole may lack what is last. -/
theorem Lists.append (lists : Lists whole ids all) (notWhole : ¬ whole) (others : List ι) :
    Lists whole ids (all ++ others) :=
  ⟨lists.first.trans (List.prefix_append all others), fun isWhole => absurd isWhole notWhole⟩

/-- Every hit of the query for all entities lists the identifiers of rows. -/
def View.Lists (schema : Schema ι ε) (whole : Prop) (rows : List ε) (view : View) : Prop :=
  ∀ hit, view.hits.Hold schema QueryKey.findAll.encode hit →
    QueryCache.Lists whole hit.entityIds (rows.map schema.idOf)

/-- In a faithful view, the copies of rows are these rows. -/
theorem Faithful.eq_of_gathered [DecidableEq ι] {schema : Schema ι ε} (names : schema.Names)
    {rows : List ε} (distinct : (rows.map schema.idOf).Nodup) {view : View}
    (faithful : Faithful schema rows view) {segment entities : List ε}
    (held : ∀ row ∈ segment, row ∈ rows)
    (all : Entities.gathered schema view.copies (segment.map schema.idOf) = .ok entities) :
    entities = segment := by
  induction segment generalizing entities with
  | nil =>
      cases all
      rfl
  | cons row segment inductionHypothesis =>
      obtain ⟨key, named⟩ := names.exists_entityKey (schema.idOf row)
      rw [List.map_cons] at all
      cases present : view.copies[key]? with
      | none =>
          rw [Entities.gathered_of_absent schema named present] at all
          cases all
      | some bytes =>
          obtain ⟨copied, member, placed, decoded⟩ := faithful.copies key bytes present
          have sameId := names.entityKey_inj placed named
          have isCopied := (Source.rowOf_eq_some_iff distinct).mpr ⟨member, sameId⟩
          have isRow := (Source.rowOf_eq_some_iff distinct).mpr ⟨held row List.mem_cons_self, rfl⟩
          cases isCopied.symm.trans isRow
          rw [Entities.gathered_of_present schema named present decoded] at all
          cases rest : Entities.gathered schema view.copies (segment.map schema.idOf) with
          | error e =>
              rw [rest] at all
              cases all
          | ok others =>
              rw [rest] at all
              cases all
              rw [inductionHypothesis (fun row member => held row (List.mem_cons_of_mem _ member))
                rest]

/-- What a list of rows leads to is as good a list of them. -/
theorem Faithful.lists_of_gathered [DecidableEq ι] {schema : Schema ι ε} (names : schema.Names)
    {rows : List ε} (distinct : (rows.map schema.idOf).Nodup) {view : View}
    (faithful : Faithful schema rows view) (lists : Lists whole ids (rows.map schema.idOf))
    {entities : List ε} (all : Entities.gathered schema view.copies ids = .ok entities) :
    Lists whole entities rows := by
  have isFirst : ids = (rows.take ids.length).map schema.idOf := by
    rw [List.map_take]
    exact List.prefix_iff_eq_take.mp lists.first
  constructor
  · rw [isFirst] at all
    rw [faithful.eq_of_gathered names distinct (fun _ => List.mem_of_mem_take) all]
    exact List.take_prefix _ _
  · intro isWhole
    rw [lists.complete isWhole] at all
    exact faithful.eq_of_gathered names distinct (fun _ => id) all

end Lists

namespace Simulation

variable {γ σ ι ε : Type}

namespace Operation

/-- The call that an operation makes of a cache. -/
def call : Operation ι ε → CacheCall σ ι ε
  | .create entity => .create entity
  | .update entity => .update entity
  | .deleteById id => .deleteById id
  | .deleteAll => .deleteAll
  | .findById id => .findById id
  | .findAll => .findAll
  | .invalidate (.entity id) => .remove (.entity id)
  | .invalidate (.hit queryId) => .remove (.query queryId)
  | .dropAll => .remove .all
  | .queryMany key answer => .queryMany key (pure answer)
  | .queryOne key answer => .queryOne key (pure answer)

/-- No cached query goes by the text of the query for all entities. -/
def Spares : Operation ι ε → Prop
  | .queryMany key _ => key ≠ QueryKey.findAll.encode
  | .queryOne key _ => key ≠ QueryKey.findAll.encode
  | _ => True

variable (operation : Operation ι ε)

theorem idle_call (part : σ → Repository) : operation.call.Idle part := by
  cases operation with
  | invalidate start => cases start <;> trivial
  | queryMany key answer => exact fun _ => rfl
  | queryOne key answer => exact fun _ => rfl
  | _ => trivial

theorem onCache_snd [DecidableEq ι] (backend : Backend σ ι ε) (ctx : Context) (s : σ) :
    (operation.onCache backend ctx s).2 = operation.call.after backend ctx s := by
  cases operation with
  | invalidate start => cases start <;> rfl
  | _ => rfl

/-- Only the query for all entities records its hit. -/
theorem eq_findAll_of_may {schema : Schema ι ε} (spares : operation.Spares)
    (may : (operation.call : CacheCall σ ι ε).May schema QueryKey.findAll.encode) :
    operation = .findAll := by
  cases operation with
  | findAll => rfl
  | findById id => exact absurd rfl (Schema.findByIdKey_ne_findAll may)
  | invalidate start => cases start <;> exact may.elim
  | queryMany key answer => exact absurd may.symm spares
  | queryOne key answer => exact absurd may.symm spares
  | _ => exact may.elim

end Operation

section Plays

variable [DecidableEq ι]

/-- A moment at which an entity is created while a list of all entities is stored. -/
def Moment.Breaks (setting : Setting γ ι ε) (moment : Moment ι ε) (world : World γ ε) : Prop :=
  (∃ entity, moment.operation = .create entity ∧
    (moment.onCache setting world).1 = .created (.ok ()) entity) ∧
  ∃ hit, world.repository.hits.rows.Hold setting.schema QueryKey.findAll.encode hit

/-- No entity is created while a list of all entities is stored. -/
def Unbroken (setting : Setting γ ι ε) : List (Moment ι ε) → World γ ε → Prop
  | [], _ => True
  | moment :: script, world =>
      ¬ moment.Breaks setting world ∧ Unbroken setting script (moment.onCache setting world).2

variable {setting : Setting γ ι ε} (passes : setting.gate.Passes) (plain : setting.outlet = .plain)
  (names : setting.schema.Names) {source : Source ε} {world : World γ ε} {whole : Prop}
  {signals : Signals} {clock : Time.Timestamp} {ctx : Context} {hit : Hit ι}

/-- The answer for all entities may be recorded where it is legal to ask for them. -/
theorem recordable_findAll
    (legal : (Moment.mk signals clock ctx .findAll).Legal setting.schema source.rows) :
    Recordable setting.schema ⟨signals, clock, source.rows, none⟩ QueryKey.findAll.encode
      source.rows :=
  ⟨fun _ member => member, fun _ named => absurd rfl (Schema.findByIdKey_ne_findAll named),
    legal.operation⟩

/-- A creation adds a row behind the others, so that a stored list misses it. -/
theorem Mirrored.lists_create (mirrored : Mirrored setting source world) {entity : ε}
    (live : ctx.check signals = .ok ())
    (told : ((Moment.mk signals clock ctx (.create entity)).onCache setting world).1 =
      ((Moment.mk signals clock ctx (.create entity)).onSource setting.schema source).1)
    (unbroken : whole → ¬ (Moment.mk signals clock ctx (.create entity)).Breaks setting world)
    (held : world.repository.committed.hits.Hold setting.schema QueryKey.findAll.encode hit)
    (lists : Lists whole hit.entityIds (source.rows.map setting.schema.idOf)) :
    Lists whole hit.entityIds
      (((Moment.mk signals clock ctx (.create entity)).onSource setting.schema source).2.rows.map
        setting.schema.idOf) := by
  simp only [Moment.onSource, Operation.onSource, answered,
    Source.create_apply live mirrored.healthy] at told ⊢
  split
  · exact lists
  · rename_i absent
    rw [if_neg absent] at told
    rw [List.map_append]
    exact lists.append (fun isWhole => unbroken isWhole ⟨⟨entity, rfl, told⟩, hit, held⟩) _

theorem Mirrored.lists_update (mirrored : Mirrored setting source world) {entity : ε}
    (live : ctx.check signals = .ok ())
    (lists : Lists whole hit.entityIds (source.rows.map setting.schema.idOf)) :
    Lists whole hit.entityIds
      (((Moment.mk signals clock ctx (.update entity)).onSource setting.schema source).2.rows.map
        setting.schema.idOf) := by
  simp only [Moment.onSource, Operation.onSource, answered,
    Source.update_apply live mirrored.healthy]
  cases replaced : Source.replace setting.schema entity source.rows with
  | none => exact lists
  | some later =>
      obtain ⟨sameIds, -⟩ := Source.of_replace replaced
      exact sameIds ▸ lists

include passes

/-- A deletion that succeeded did away with every list of the entity. -/
theorem Mirrored.lists_deleteById (names : setting.schema.Names)
    (mirrored : Mirrored setting source world) {id : ι} (outside : ctx.tx = none)
    (live : ctx.check signals = .ok ())
    (told : ((Moment.mk signals clock ctx (.deleteById id)).onCache setting world).1 =
      ((Moment.mk signals clock ctx (.deleteById id)).onSource setting.schema source).1)
    (held : ((Moment.mk signals clock ctx (.deleteById id)).onCache setting
      world).2.repository.committed.hits.Hold setting.schema QueryKey.findAll.encode hit)
    (lists : Lists whole hit.entityIds (source.rows.map setting.schema.idOf)) :
    Lists whole hit.entityIds
      (((Moment.mk signals clock ctx (.deleteById id)).onSource setting.schema source).2.rows.map
        setting.schema.idOf) := by
  let start : World γ ε := { world with signals, clock }
  have sound : start.repository.Sound setting.schema := mirrored.sound
  have ends : Response.done (setting.backend.deleteById ctx id start).1 =
      .done (Source.deleteById setting.schema signals ctx id source).1 := told
  simp only [Moment.onSource, Operation.onSource, answered]
  rw [Source.deleteById_apply live mirrored.healthy] at ends ⊢
  split at ends
  · rename_i isRow
    obtain ⟨-, -, gone⟩ := ((setting.hindered passes.hinders).attains_deleteById setting.apart
      names.distinct id).outside outside sound (Response.done.inj ends)
    have deleted := lists.without (gone.unlisted QueryKey.findAll.encode hit held)
    rw [List.filter_map] at deleted
    rw [if_pos isRow]
    exact deleted
  · rename_i noRow
    rw [if_neg noRow]
    exact lists

/-- After the deletion of everything, no list is stored. -/
theorem Mirrored.not_hold_deleteAll (mirrored : Mirrored setting source world)
    (outside : ctx.tx = none) (live : ctx.check signals = .ok ())
    (told : ((Moment.mk signals clock ctx .deleteAll).onCache setting world).1 =
      ((Moment.mk signals clock ctx .deleteAll).onSource setting.schema source).1) :
    ¬ ((Moment.mk signals clock ctx .deleteAll).onCache setting
      world).2.repository.committed.hits.Hold setting.schema QueryKey.findAll.encode hit := by
  let start : World γ ε := { world with signals, clock }
  have sound : start.repository.Sound setting.schema := mirrored.sound
  have ends : Response.done (setting.backend.deleteAll ctx start).1 =
      .done (Source.deleteAll signals ctx source).1 := told
  rw [Source.deleteAll_apply live mirrored.healthy] at ends
  obtain ⟨-, nothing⟩ := ((setting.hindered passes.hinders).attains_deleteAll setting.apart).outside
    outside sound (Response.done.inj ends)
  rintro ⟨bytes, present, -⟩
  change (setting.backend.deleteAll ctx start).2.repository.committed.hits[
    QueryKey.findAll.encode]? = some bytes at present
  rw [nothing] at present
  simp at present

include names

/-- A legal moment at which not all entities are asked for records no list of them. -/
theorem Mirrored.hold_of_hold_step (mirrored : Mirrored setting source world) {moment : Moment ι ε}
    (outside : moment.ctx.tx = none) (spares : moment.operation.Spares)
    (other : moment.operation ≠ .findAll) {hit : Hit ι}
    (held : (moment.onCache setting world).2.repository.committed.hits.Hold setting.schema
      QueryKey.findAll.encode hit) :
    world.repository.committed.hits.Hold setting.schema QueryKey.findAll.encode hit := by
  let start : World γ ε := { world with signals := moment.signals, clock := moment.clock }
  obtain ⟨-, revised⟩ := CacheCall.revises (setting.hindered passes.hinders) setting.apart
    names.distinct outside (moment.operation.idle_call World.repository) start mirrored.sound
  rw [← moment.operation.onCache_snd] at revised
  exact revised.hold (fun may => other (moment.operation.eq_findAll_of_may spares may)) held

include plain

theorem Mirrored.lists_findAll (mirrored : Mirrored setting source world)
    (legal : (Moment.mk signals clock ctx .findAll).Legal setting.schema source.rows)
    (lists : world.repository.committed.Lists setting.schema whole source.rows) :
    ((Moment.mk signals clock ctx .findAll).onCache setting world).2.repository.committed.Lists
      setting.schema whole source.rows := by
  obtain ⟨later, seesLater, -, answer, -, -, records, -⟩ := ensures_findAll passes plain names
    mirrored.distinct rfl mirrored.keeps (recordable_findAll legal) mirrored.faithful _
    (mirrored.sees legal.outside legal.live clock)
  rw [seesLater.eq_of_outside legal.outside] at records
  intro hit held
  rcases records hit held with heldBefore | same
  · exact lists hit heldBefore
  · rw [same]
    exact .refl whole _

/-- A legal moment leaves the stored lists of all entities as good as they were, unless it breaks
them. -/
theorem Mirrored.step_lists (mirrored : Mirrored setting source world) {moment : Moment ι ε}
    (legal : moment.Legal setting.schema source.rows) (spares : moment.operation.Spares)
    (unbroken : whole → ¬ moment.Breaks setting world)
    (lists : world.repository.committed.Lists setting.schema whole source.rows) :
    (moment.onCache setting world).2.repository.committed.Lists setting.schema whole
      (moment.onSource setting.schema source).2.rows := by
  intro hit held
  obtain ⟨told, -⟩ := mirrored.step passes plain names legal
  have heldBefore other :=
    mirrored.hold_of_hold_step passes names legal.outside spares other held
  have before other := lists hit (heldBefore other)
  obtain ⟨signals, clock, ctx, operation⟩ := moment
  cases operation with
  | create entity =>
      exact mirrored.lists_create legal.live told unbroken (heldBefore (by simp)) (before (by simp))
  | update entity => exact mirrored.lists_update legal.live (before (by simp))
  | deleteById id =>
      exact mirrored.lists_deleteById passes names legal.outside legal.live told held
        (before (by simp))
  | deleteAll =>
      exact absurd held (mirrored.not_hold_deleteAll passes legal.outside legal.live told)
  | findAll => exact mirrored.lists_findAll passes plain names legal lists hit held
  | findById id =>
      simp only [Moment.onSource, Operation.onSource, answered,
        Source.findById_apply legal.live mirrored.healthy]
      exact before (by simp)
  | _ => exact before (by simp)

theorem Mirrored.play_lists (mirrored : Mirrored setting source world)
    {script : List (Moment ι ε)} (legal : Legal setting.schema script source)
    (spares : ∀ moment ∈ script, moment.operation.Spares)
    (unbroken : whole → Unbroken setting script world)
    (lists : world.repository.committed.Lists setting.schema whole source.rows) :
    (Simulation.play (Moment.onCache setting) script world).2.repository.committed.Lists
      setting.schema whole
      (Simulation.play (Moment.onSource setting.schema) script source).2.rows := by
  induction script generalizing source world with
  | nil => exact lists
  | cons moment script inductionHypothesis =>
      obtain ⟨-, mirroredNext⟩ := mirrored.step passes plain names legal.1
      have listsNext := mirrored.step_lists passes plain names legal.1
        (spares moment List.mem_cons_self) (fun isWhole => (unbroken isWhole).1) lists
      exact inductionHypothesis mirroredNext legal.2
        (fun other member => spares other (List.mem_cons_of_mem _ member))
        (fun isWhole => (unbroken isWhole).2) listsNext

/-- Where the stored lists of all entities are as good as stated, so is the answer. -/
theorem Mirrored.findAll_of_lists (mirrored : Mirrored setting source world)
    (lists : world.repository.committed.Lists setting.schema whole source.rows)
    (legal : (Moment.mk signals clock ctx .findAll).Legal setting.schema source.rows) :
    ∃ answer, (setting.backend.findAll ctx { world with signals, clock }).1 = .ok answer ∧
      Lists whole answer source.rows := by
  obtain ⟨-, -, -, answer, succeeds, -, -, same | ⟨hit, held, all⟩⟩ :=
    ensures_findAll passes plain names mirrored.distinct rfl mirrored.keeps
      (recordable_findAll legal) mirrored.faithful _
      (mirrored.sees legal.outside legal.live clock)
  · exact ⟨answer, succeeds, same ▸ .refl whole _⟩
  · exact ⟨answer, succeeds,
      mirrored.faithful.lists_of_gathered names mirrored.distinct (lists hit held) all⟩

end Plays

/-- What a cache answers for all entities are the first rows of the source, in their order. They are
all rows, if no entity was created while a list of all entities was stored. -/
theorem findAll_answers_first_rows [DecidableEq ι] (setting : Setting γ ι ε)
    (passes : setting.gate.Passes) (plain : setting.outlet = .plain) (names : setting.schema.Names)
    (rows : List ε) (distinct : (rows.map setting.schema.idOf).Nodup)
    (keeps : ∀ row ∈ rows, setting.schema.Keeps row) (state : γ) (firstPlace : Nat)
    (script : List (Moment ι ε)) (legal : Legal setting.schema script (.ofRows rows))
    (spares : ∀ moment ∈ script, moment.operation.Spares)
    (signals : Signals) (clock : Time.Timestamp) (ctx : Context)
    (final : (Moment.mk signals clock ctx .findAll).Legal setting.schema
      (play (Moment.onSource setting.schema) script (.ofRows rows)).2.rows) :
    let start := World.initial state rows firstPlace
    let cached := (play (Moment.onCache setting) script start).2
    let bare := (play (Moment.onSource setting.schema) script (.ofRows rows)).2
    ∃ answer, (setting.backend.findAll ctx { cached with signals, clock }).1 = .ok answer ∧
      answer <+: bare.rows ∧ (Unbroken setting script start → answer = bare.rows) := by
  have begins : Mirrored setting (.ofRows rows) (World.initial state rows firstPlace) :=
    mirrored_initial distinct keeps state firstPlace
  have lists : (World.initial state rows firstPlace).repository.committed.Lists setting.schema
      (Unbroken setting script (World.initial state rows firstPlace)) rows := by
    rintro hit ⟨bytes, present, -⟩
    simp [World.initial, Repository.committed, Repository.empty, Table.empty] at present
  obtain ⟨-, mirrored⟩ := begins.play passes plain names legal
  have listsLast := begins.play_lists passes plain names legal spares (fun unbroken => unbroken)
    lists
  obtain ⟨answer, succeeds, first, complete⟩ :=
    mirrored.findAll_of_lists passes plain names listsLast final
  exact ⟨answer, succeeds, first, complete⟩

/-- Two switches are listed, and one of them is deleted. -/
def relistedScript : List (Moment Bool (Entry Bool)) :=
  [.early .findAll, .early (.deleteById true)]

/-- The empty list is stored, and a switch is created. -/
def unlistedScript : List (Moment Bool (Entry Bool)) :=
  [.early .findAll, .early (.create ⟨true, "on"⟩)]

/-- All switches may be asked for where the hit that lists them can be stored. -/
theorem legal_early_findAll {rows : List (Entry Bool)} (keepsHit : switchSetting.schema.KeepsHit
      ⟨QueryKey.findAll.encode, rows.map switchSetting.schema.idOf, ⟨0, 0⟩⟩) :
    (Moment.early .findAll).Legal switchSetting.schema rows :=
  ⟨rfl, rfl, keepsHit⟩

theorem findAll_answers_first_rows_relisted :
    let cached := (play (Moment.onCache switchSetting) relistedScript
      (World.initial () [⟨true, "on"⟩, ⟨false, "off"⟩] 0)).2
    (switchSetting.backend.findAll .root { cached with signals := .initial, clock := ⟨0, 0⟩ }).1 =
      .ok [⟨false, "off"⟩] := by
  obtain ⟨answer, succeeds, -, complete⟩ := findAll_answers_first_rows switchSetting
    (fun _ _ => rfl) rfl names_switch [⟨true, "on"⟩, ⟨false, "off"⟩] (by decide)
    (by decide +kernel) () 0 relistedScript
    ⟨legal_early_findAll (by decide +kernel), ⟨rfl, rfl, trivial⟩, trivial⟩
    (by simp [relistedScript, Moment.early, Operation.Spares]) .initial ⟨0, 0⟩ .root
    (legal_early_findAll (by decide +kernel))
  have unbroken : Unbroken switchSetting relistedScript
      (World.initial () [⟨true, "on"⟩, ⟨false, "off"⟩] 0) := by
    refine ⟨?_, ?_, trivial⟩
    all_goals
      rintro ⟨⟨entity, impossible, -⟩, -⟩
      cases impossible
  rw [complete unbroken] at succeeds
  exact succeeds.trans rfl

/-- A switch that is created while the empty list is stored is missing in the next answer. -/
theorem findAll_ne_rows_unlisted :
    let cached := (play (Moment.onCache switchSetting) unlistedScript (World.initial () [] 0)).2
    Legal switchSetting.schema unlistedScript (.ofRows []) ∧
      (switchSetting.backend.findAll .root cached).1 = .ok [] ∧
      cached.source.rows = [⟨true, "on"⟩] := by
  refine ⟨⟨legal_early_findAll (by decide +kernel), ⟨rfl, rfl, ?_⟩, trivial⟩, rfl, rfl⟩
  change switchSetting.schema.Keeps ⟨true, "on"⟩
  decide +kernel

end Simulation

end QueryCache
