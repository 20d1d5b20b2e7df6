import QueryCache.Proofs.Names
import QueryCache.Proofs.Scenes
import QueryCache.Simulation.Entry

/-!
# Invalidation removes what goes together

Where nothing fails, an invalidation removes exactly what is reached from its start.

A removal of a hit runs again into hits whose removal is under way further out, and then returns
before what goes with them is gone. What it leaves is therefore not free of all that is reached from
its hit; it is a sweep (`Swept`), in which every hit that it removed itself is settled. The
outermost removal finds nothing under way, and so a sweep that did away with its start is exact.
-/

namespace QueryCache

open Wire

variable {ι ε : Type}

/-- The hits and copies of a view can be read, and there is a query for every entity that a hit
lists. -/
structure Readable (schema : Schema ι ε) (view : View) : Prop where
  hits : ∀ (key : String) bytes, view.hits[key]? = some bytes →
    ∃ hit, schema.decodeHit bytes = .ok hit
  copies : ∀ (key : String) bytes, view.copies[key]? = some bytes →
    ∃ entity, schema.decode bytes = .ok entity
  listed : ∀ key hit, view.hits.Hold schema key hit → ∀ id ∈ hit.entityIds,
    ∃ key, schema.findByIdKey id = .ok key

theorem Readable.sub {schema : Schema ι ε} {earlier later : View}
    (readable : Readable schema earlier) (sub : View.Sub later earlier) :
    Readable schema later where
  hits key bytes present := readable.hits key bytes (sub.hits key bytes present)
  copies key bytes present := readable.copies key bytes (sub.copies key bytes present)
  listed key hit held := readable.listed key hit (sub.hits.hold held)

/-- What the removal of nodes comes across can be read: all hits, and the copies of the entities
among the nodes. -/
structure Legible (schema : Schema ι ε) (reached : Node ι → Prop) (view : View) : Prop where
  hits : ∀ (key : String) bytes, view.hits[key]? = some bytes →
    ∃ hit, schema.decodeHit bytes = .ok hit
  copies : ∀ id (place : String) bytes, reached (.entity id) → schema.entityKey id = .ok place →
    view.copies[place]? = some bytes → ∃ entity, schema.decode bytes = .ok entity

theorem Legible.sub {schema : Schema ι ε} {reached : Node ι → Prop} {earlier later : View}
    (legible : Legible schema reached earlier) (sub : View.Sub later earlier) :
    Legible schema reached later where
  hits key bytes present := legible.hits key bytes (sub.hits key bytes present)
  copies id place bytes isReached placed present :=
    legible.copies id place bytes isReached placed (sub.copies place bytes present)

theorem Readable.legible {schema : Schema ι ε} {view : View} (readable : Readable schema view)
    (reached : Node ι → Prop) : Legible schema reached view :=
  ⟨readable.hits, fun _ place bytes _ _ => readable.copies place bytes⟩

/-- Where a view can be read, there is a query for every entity that is reached, if there is one for
the start. -/
theorem Readable.named {schema : Schema ι ε} {view : View} (readable : Readable schema view)
    {start : Node ι} (named : ∀ id, start = .entity id → ∃ key, schema.findByIdKey id = .ok key)
    {id : ι} (isReached : Reached schema view.hits start (.entity id)) :
    ∃ key, schema.findByIdKey id = .ok key := by
  cases isReached with
  | start => exact named id rfl
  | listed _ held lists => exact readable.listed _ _ held id lists

/-- Whether a view can be read is found out row by row. -/
def View.isReadable (schema : Schema ι ε) (view : View) : Bool :=
  (view.hits.toList.all fun row =>
    match schema.decodeHit row.2 with
    | .ok hit => hit.entityIds.all fun id => (schema.findByIdKey id).isOk
    | .error _ => false) &&
  view.copies.toList.all fun row => (schema.decode row.2).isOk

theorem Readable.of_isReadable {schema : Schema ι ε} {view : View}
    (isReadable : view.isReadable schema) : Readable schema view := by
  simp only [View.isReadable, Bool.and_eq_true, List.all_eq_true] at isReadable
  obtain ⟨hits, copies⟩ := isReadable
  have row {rows : Rows} {key : String} {bytes : Bytes} (present : rows[key]? = some bytes) :
      (key, bytes) ∈ rows.toList := Std.ExtTreeMap.mem_toList_iff_getElem?_eq_some.mpr present
  constructor
  · intro key bytes present
    have checked := hits _ (row present)
    cases decoded : schema.decodeHit bytes with
    | ok hit => exact ⟨hit, rfl⟩
    | error e => simp [decoded] at checked
  · intro key bytes present
    have checked := copies _ (row present)
    cases decoded : schema.decode bytes with
    | ok entity => exact ⟨entity, rfl⟩
    | error e => simp [decoded, Except.isOk, Except.toBool] at checked
  · rintro key hit ⟨bytes, present, decoded⟩ id lists
    have checked := hits _ (row present)
    simp only [decoded, List.all_eq_true] at checked
    have named := checked id lists
    cases query : schema.findByIdKey id with
    | ok text => exact ⟨text, rfl⟩
    | error e => simp [query, Except.isOk, Except.toBool] at named

/-- Rows that can all be read are read as the hits that they hold. -/
theorem Hits.ofRowsIn_of_readable {schema : Schema ι ε} {rows : Rows} (listing : Listing)
    (readable : ∀ (key : String) bytes, rows[key]? = some bytes →
      ∃ hit, schema.decodeHit bytes = .ok hit) :
    ∃ hits, ofRowsIn schema listing rows = .ok hits ∧
      ∀ hit, hit ∈ hits ↔ ∃ key, rows.Hold schema key hit := by
  have ofList (list : List (String × Bytes))
      (readable : ∀ row ∈ list, ∃ hit, schema.decodeHit row.2 = .ok hit) :
      ∃ hits, list.mapM (fun row => schema.decodeHit row.2) = .ok hits ∧
        ∀ hit, hit ∈ hits ↔ ∃ row ∈ list, schema.decodeHit row.2 = .ok hit := by
    induction list with
    | nil => exact ⟨[], rfl, by simp⟩
    | cons row list inductionHypothesis =>
        obtain ⟨first, decoded⟩ := readable row List.mem_cons_self
        obtain ⟨others, rest, iff⟩ := inductionHypothesis fun row member =>
          readable row (List.mem_cons_of_mem _ member)
        refine ⟨first :: others, ?_, fun hit => ?_⟩
        · rw [List.mapM_cons, decoded, rest]
          rfl
        · rw [List.mem_cons, iff, List.exists_mem_cons_iff, decoded, Except.ok.injEq, eq_comm]
  have isRow (row : String × Bytes) :
      row ∈ listing.arrange rows.toList ↔ rows[row.1]? = some row.2 :=
    (listing.perm rows.toList).mem_iff.trans Std.ExtTreeMap.mem_toList_iff_getElem?_eq_some
  obtain ⟨hits, listed, iff⟩ := ofList (listing.arrange rows.toList) fun row member =>
    readable row.1 row.2 ((isRow row).mp member)
  refine ⟨hits, listed, fun hit => ?_⟩
  rw [iff]
  constructor
  · rintro ⟨row, member, decoded⟩
    exact ⟨row.1, row.2, (isRow row).mp member, decoded⟩
  · rintro ⟨key, bytes, present, decoded⟩
    exact ⟨(key, bytes), (isRow (key, bytes)).mpr present, decoded⟩

/-- The same backend with another scan for all hits. -/
def Backend.scanning {σ : Type} (backend : Backend σ ι ε)
    (scan : Context → Action σ (List (Hit ι))) : Backend σ ι ε :=
  { backend with hits := { backend.hits with findAll := scan } }

/-- The same backend, but for the order in which it lists the hits, which may be another one each
time. -/
def Backend.arranged {σ : Type} (backend : Backend σ ι ε)
    (arrange : σ → List (Hit ι) → List (Hit ι)) : Backend σ ι ε :=
  backend.scanning fun ctx s =>
    ((backend.hits.findAll ctx s).1.map (arrange s), (backend.hits.findAll ctx s).2)

theorem Backend.arranged_id {σ : Type} (backend : Backend σ ι ε) :
    backend.arranged (fun _ hits => hits) = backend := by
  have same (ctx : Context) (s : σ) :
      ((backend.hits.findAll ctx s).1.map fun hits => hits) = (backend.hits.findAll ctx s).1 := by
    cases (backend.hits.findAll ctx s).1 <;> rfl
  simp only [arranged, scanning, same]

/-- Removes an entity, or the hit of a query, with what goes with it. -/
def Backend.invalidate {σ : Type} [DecidableEq ι] (backend : Backend σ ι ε) (ctx : Context) :
    Node ι → Action σ Unit
  | .entity id => backend.invalidateEntity ctx id
  | .hit queryId => backend.invalidateQuery ctx queryId

namespace Simulation

variable {γ : Type} {setting : Setting γ ι ε} {scene : Scene ε} {ctx : Context}
  {view whole : View} {reached : Node ι → Prop}

open QueryCache.Action Invalidation

/-- Removals one after the other sweep away what each of them sweeps away, and what is gone after
one of them is gone after all. -/
theorem ensures_eachSwept {α : Type} {action : α → Action (World γ ε) Unit} {items : List α}
    {gone : α → View → Prop}
    (one : ∀ item ∈ items, ∀ middle, Swept setting.schema reached view middle →
      Ensures setting.schema scene ctx middle (action item) fun _ later =>
        Swept setting.schema reached middle later ∧ gone item later)
    (keeps : ∀ item earlier later, gone item earlier → View.Sub later earlier → gone item later) :
    Ensures setting.schema scene ctx view (Action.each action items) fun _ later =>
      Swept setting.schema reached view later ∧ ∀ item ∈ items, gone item later :=
  ensures_each Swept.refl (fun _ _ _ => Swept.trans)
    (fun item earlier later isGone onward => keeps item earlier later isGone onward.sub) one

/-- From every part of a view that holds fewer hits than a bound, a way to remove hits sweeps away
what is reached together with the hit, if the hit is there. -/
def Drops (setting : Setting γ ι ε) (scene : Scene ε) (whole : View) (reached : Node ι → Prop)
    (bound : Nat) (drop : Context → String → Action (World γ ε) Unit) : Prop :=
  ∀ ctx view queryId, View.Sub view whole → view.hits.size < bound →
    (view.hits[queryId]?.isSome → reached (.hit queryId)) →
    Ensures setting.schema scene ctx view (drop ctx queryId) fun _ later =>
      Swept setting.schema reached view later ∧ later.hits[queryId]? = none

/-- Likewise, a way to remove entities sweeps away what is reached together with the entity, and
leaves nothing of it. -/
def DropsEntities (setting : Setting γ ι ε) (scene : Scene ε) (whole : View)
    (reached : Node ι → Prop) (bound : Nat) (drop : Context → ι → Action (World γ ε) Unit) : Prop :=
  ∀ ctx view id, View.Sub view whole → view.hits.size < bound → reached (.entity id) →
    (∃ key, setting.schema.findByIdKey id = .ok key) →
    Ensures setting.schema scene ctx view (drop ctx id) fun _ later =>
      Swept setting.schema reached view later ∧ Gone setting.schema id later

/-- A scan lists all hits that are held, if they can be read, and changes nothing. -/
def Scans (setting : Setting γ ι ε) (scene : Scene ε)
    (scan : Context → Action (World γ ε) (List (Hit ι))) : Prop :=
  ∀ ctx view, (∀ (key : String) bytes, view.hits[key]? = some bytes →
      ∃ hit, setting.schema.decodeHit bytes = .ok hit) →
    Ensures setting.schema scene ctx view (scan ctx) fun hits later => later = view ∧
      ∀ hit, hit ∈ hits ↔ ∃ key, view.hits.Hold setting.schema key hit

variable [DecidableEq ι]

section Cascade

variable (passes : setting.gate.Passes)
include passes

/-- The copy of an entity that is reached is swept away. -/
theorem ensures_dropCopy (legible : Legible setting.schema reached view) {id : ι} {place : String}
    (placed : setting.schema.entityKey id = .ok place) (isReached : reached (.entity id)) :
    Ensures setting.schema scene ctx view
      (do
        setting.backend.check ctx
        if (← setting.backend.entities.findById ctx id).isSome then
          setting.backend.entities.deleteById ctx id)
      fun _ later => Swept setting.schema reached view later ∧ later.hits = view.hits ∧
        later.copies[place]? = none := by
  refine Ends.bind ends_check ?_
  cases present : view.copies[place]? with
  | none =>
      refine Ends.bind ((ends_findEntity passes placed).to (told_of_absent present)) ?_
      exact ensures_pure ⟨.refl view, rfl, present⟩
  | some bytes =>
      obtain ⟨entity, decoded⟩ := legible.copies id place bytes isReached placed present
      have found := told_of_present present decoded
      refine Ends.bind ((ends_findEntity passes placed).to found) ?_
      refine (ends_deleteEntity passes placed present).ensures ?_
      exact ⟨.eraseCopy isReached placed, rfl, by simp⟩

variable {scan : Context → Action (World γ ε) (List (Hit ι))} (scans : Scans setting scene scan)
  (legible : Legible setting.schema reached whole) (keyed : whole.Keyed setting.schema)
  (named : ∀ id, reached (.entity id) → ∃ key, setting.schema.findByIdKey id = .ok key)
  (closed : Closed setting.schema whole.hits reached) {bound : Nat}
include closed

include keyed in
omit passes in
/-- Of the hits that list an entity, one after the other is removed. -/
theorem ensures_dropListing {drop : Context → String → Action (World γ ε) Unit}
    (drops : Drops setting scene whole reached bound drop) {id : ι} (sub : View.Sub view whole)
    (small : view.hits.size < bound) (isReached : reached (.entity id)) {hits : List (Hit ι)}
    (listed : ∀ hit, hit ∈ hits ↔ ∃ key, view.hits.Hold setting.schema key hit) :
    Ensures setting.schema scene ctx view
      (Action.each (fun queryId => do
        setting.backend.check ctx
        drop ctx queryId) ((hits.filter fun hit => hit.references id).map Hit.queryId))
      fun _ later => Swept setting.schema reached view later ∧
        ∀ key hit, later.hits.Hold setting.schema key hit → id ∉ hit.entityIds := by
  have one : ∀ queryId ∈ (hits.filter fun hit => hit.references id).map Hit.queryId, ∀ middle,
      Swept setting.schema reached view middle →
      Ensures setting.schema scene ctx middle
        (do
          setting.backend.check ctx
          drop ctx queryId)
        fun _ later => Swept setting.schema reached middle later ∧
          later.hits[queryId]? = none := by
    intro queryId member middle onward
    have fewer := onward.sub.hits.size_le
    refine Ends.bind ends_check (drops ctx middle queryId (onward.sub.trans sub) ?_ fun _ => ?_)
    · omega
    · obtain ⟨hit, isIn, rfl⟩ := List.mem_map.mp member
      obtain ⟨isHit, references⟩ := List.mem_filter.mp isIn
      obtain ⟨key, held⟩ := (listed hit).mp isHit
      have heldBefore := sub.hits.hold held
      have lists : id ∈ hit.entityIds := by simpa [Hit.references] using references
      rw [keyed key hit heldBefore]
      exact closed.listing id key hit isReached heldBefore lists
  refine Ensures.weaken (ensures_eachSwept one fun _ _ _ absent sub => sub.hits.absent absent) ?_
  rintro _ later ⟨swept, absent⟩
  refine ⟨swept, fun key hit held lists => ?_⟩
  have heldBefore := swept.sub.hits.hold held
  have references : hit.references id := by simpa [Hit.references] using lists
  have member : hit ∈ hits.filter fun hit => hit.references id :=
    List.mem_filter.mpr ⟨(listed hit).mpr ⟨key, heldBefore⟩, references⟩
  have gone := absent hit.queryId (List.mem_map_of_mem member)
  obtain ⟨bytes, present, -⟩ := held
  rw [keyed key hit (sub.hits.hold heldBefore), present] at gone
  cases gone

include scans legible keyed in
/-- The removal of an entity: first goes the hit of its own query, then every other hit that lists
it, and last its copy. -/
theorem dropsEntities_dropEntity {drop : Context → String → Action (World γ ε) Unit}
    (drops : Drops setting scene whole reached bound drop) :
    DropsEntities setting scene whole reached bound fun ctx id =>
      dropEntity (setting.backend.scanning scan) drop id ctx := by
  intro ctx view id sub small isReached named
  obtain ⟨key, named⟩ := named
  obtain ⟨place, placed⟩ := Schema.entityKey_of_findByIdKey named
  refine Ends.bind ends_check (Ends.bind (ends_liftM named) ?_)
  refine Ensures.bind (drops ctx view key sub small fun stored => ?_) ?_
  · exact closed.own id key isReached named (sub.hits.isSome stored)
  rintro _ first ⟨toFirst, ownGone⟩
  have firstSub := toFirst.sub.trans sub
  have firstSmall : first.hits.size < bound := by
    have fewer := toFirst.sub.hits.size_le
    omega
  refine Ends.bind ends_check ?_
  refine Ensures.bind (scans ctx first (legible.sub firstSub).hits) ?_
  rintro hits _ ⟨rfl, listed⟩
  refine Ensures.bind
    (ensures_dropListing keyed closed drops firstSub firstSmall isReached listed) ?_
  rintro _ second ⟨toSecond, unlisted⟩
  have secondLegible := legible.sub (toSecond.sub.trans firstSub)
  refine Ensures.weaken (ensures_dropCopy passes secondLegible placed isReached) ?_
  rintro _ third ⟨toThird, sameHits, uncopied⟩
  refine ⟨(toFirst.trans toSecond).trans toThird, ?_, ?_, ?_⟩
  · intro other sameName
    cases named.symm.trans sameName
    exact (toThird.sub.trans toSecond.sub).hits.absent ownGone
  · rw [sameHits]
    exact unlisted
  · intro other samePlace
    cases placed.symm.trans samePlace
    exact uncopied

include legible named in
/-- The removal of a hit: first goes the hit itself, and then every entity that it lists. -/
theorem ensures_dropHit {drop : Context → ι → Action (World γ ε) Unit}
    (drops : DropsEntities setting scene whole reached bound drop) {queryId : String}
    (sub : View.Sub view whole) (small : view.hits.size ≤ bound)
    (isReached : view.hits[queryId]?.isSome → reached (.hit queryId)) :
    Ensures setting.schema scene ctx view
      (dropHit (setting.backend.scanning scan) drop queryId ctx)
      fun _ later => Swept setting.schema reached view later ∧ later.hits[queryId]? = none := by
  refine Ends.bind ends_check ?_
  cases present : view.hits[queryId]? with
  | none =>
      refine Ends.bind ((ends_findHit passes queryId).to (told_of_absent present)) ?_
      exact ensures_pure ⟨.refl view, present⟩
  | some bytes =>
      obtain ⟨hit, decoded⟩ := legible.hits queryId bytes (sub.hits _ _ present)
      have held : view.hits.Hold setting.schema queryId hit := ⟨bytes, present, decoded⟩
      have heldBefore := sub.hits.hold held
      have hitReached := isReached (by rw [present]; rfl)
      have found := told_of_present present decoded
      refine Ends.bind ((ends_findHit passes queryId).to found) ?_
      refine Ends.bind (ends_deleteHit passes present) (Ends.bind (ends_record _) ?_)
      have erasedSub : View.Sub { view with hits := view.hits.erase queryId } view :=
        ⟨Rows.sub_erase _ _, .refl _⟩
      have erasedFewer := Rows.size_erase_lt present
      have one : ∀ id ∈ hit.entityIds, ∀ middle,
          Swept setting.schema reached { view with hits := view.hits.erase queryId } middle →
          Ensures setting.schema scene ctx middle
            (do
              setting.backend.check ctx
              drop ctx id)
            fun _ later => Swept setting.schema reached middle later ∧
              Gone setting.schema id later := by
        intro id lists middle onward
        have middleSub := (onward.sub.trans erasedSub).trans sub
        have middleFewer := onward.sub.hits.size_le
        have idReached := closed.listed queryId hit id hitReached heldBefore lists
        have idNamed := named id idReached
        refine Ends.bind ends_check (drops ctx middle id middleSub ?_ idReached idNamed)
        exact Nat.lt_of_le_of_lt middleFewer (Nat.lt_of_lt_of_le erasedFewer small)
      refine Ensures.weaken (ensures_eachSwept one fun _ _ _ gone sub => gone.sub sub) ?_
      rintro _ later ⟨rest, gone⟩
      have erased : (view.hits.erase queryId)[queryId]? = none := by simp
      exact ⟨.eraseHit held hitReached rest gone, rest.sub.hits.absent erased⟩

include scans legible keyed

theorem dropsEntities_entityWithin {depth : Nat}
    (drops : Drops setting scene whole reached bound
      (hitWithin (setting.backend.scanning scan) depth)) :
    DropsEntities setting scene whole reached bound
      (entityWithin (setting.backend.scanning scan) depth) :=
  fun ctx view id sub small isReached named => ensures_transact passes fun tx =>
    dropsEntities_dropEntity passes scans legible keyed closed drops (ctx.withTx tx) view id sub
      small isReached named

include named in
/-- However deeply nested, a removal of a hit sweeps away what is reached together with it, where
there are fewer hits than it may nest. -/
theorem drops_hitWithin (depth : Nat) :
    Drops setting scene whole reached depth
      (hitWithin (setting.backend.scanning scan) depth) := by
  induction depth with
  | zero => exact fun _ _ _ _ small => absurd small (Nat.not_lt_zero _)
  | succ depth inductionHypothesis =>
      intro ctx view queryId sub small isReached
      refine ensures_transact passes fun tx => ?_
      have drops :=
        dropsEntities_entityWithin passes scans legible keyed closed inductionHypothesis
      have smallEnough := Nat.le_of_lt_succ small
      exact ensures_dropHit passes legible named closed drops sub smallEnough isReached

end Cascade

/-- Invalidations may nest more deeply than there are hits. -/
theorem Setting.hitCount_lt_nesting (setting : Setting γ ι ε) (world : World γ ε) :
    world.hitCount < setting.backend.nesting world := by
  change world.hitCount < (world.hitCount + 1) * (setting.gate.revivals world.gate + 1)
  have once : world.hitCount + 1 ≤
      (world.hitCount + 1) * (setting.gate.revivals world.gate + 1) :=
    Nat.le_mul_of_pos_right _ (Nat.succ_pos _)
  omega

theorem Sees.size_lt_nesting {world : World γ ε}
    (sees : Sees setting.schema scene ctx view world) :
    view.hits.size < setting.backend.nesting world :=
  Nat.lt_of_le_of_lt sees.size_le_hitCount (setting.hitCount_lt_nesting world)

/-- An invalidation sweeps away what is reached from its start, and its start with it, if what it
comes across can be read; in which order hits are listed is of no importance. -/
theorem ensures_invalidate_scanning (passes : setting.gate.Passes)
    {scan : Context → Action (World γ ε) (List (Hit ι))} (scans : Scans setting scene scan)
    {start : Node ι}
    (legible : Legible setting.schema (Reached setting.schema view.hits start) view)
    (named : ∀ id, Reached setting.schema view.hits start (.entity id) →
      ∃ key, setting.schema.findByIdKey id = .ok key) :
    Ensures setting.schema scene ctx view
      ((setting.backend.scanning scan).invalidate ctx start) fun _ later =>
      Swept setting.schema (Reached setting.schema view.hits start) view later ∧
      start.Gone setting.schema later := by
  intro world sees
  have closed : Closed setting.schema view.hits (Reached setting.schema view.hits start) :=
    closed_reached view.hits start
  have drops : Drops setting scene view (Reached setting.schema view.hits start)
      (setting.backend.nesting world)
      (hitWithin (setting.backend.scanning scan) (setting.backend.nesting world)) :=
    drops_hitWithin passes scans legible sees.keyed named closed _
  cases start with
  | hit queryId =>
      exact drops ctx view queryId (.refl view) sees.size_lt_nesting (fun _ => .start) world sees
  | entity id =>
      have dropsEntities :=
        dropsEntities_entityWithin passes scans legible sees.keyed closed drops
      exact dropsEntities ctx view id (.refl view) sees.size_lt_nesting .start (named id .start)
        world sees

/-- However they are arranged, all hits that are held are listed. -/
theorem scans_arranged (passes : setting.gate.Passes)
    {arrange : World γ ε → List (Hit ι) → List (Hit ι)}
    (arranges : ∀ world hits, (arrange world hits).Perm hits) :
    Scans setting scene fun ctx world =>
      ((setting.backend.hits.findAll ctx world).1.map (arrange world),
        (setting.backend.hits.findAll ctx world).2) := by
  intro ctx view readable world sees
  obtain ⟨hits, read, listed⟩ := Hits.ofRowsIn_of_readable .ascending readable
  obtain ⟨_, seesLater, frame, found, rfl⟩ := ends_findHits passes world sees
  refine ⟨_, seesLater, frame, arrange world hits, ?_, rfl, fun hit => ?_⟩
  · change (setting.backend.hits.findAll ctx world).1.map (arrange world) = _
    rw [found, Hits.ofRows, read]
    rfl
  · rw [(arranges world hits).mem_iff, listed]

/-- Likewise in the order in which the stores list the hits. -/
theorem ensures_invalidate_of_legible (passes : setting.gate.Passes) {start : Node ι}
    (legible : Legible setting.schema (Reached setting.schema view.hits start) view)
    (named : ∀ id, Reached setting.schema view.hits start (.entity id) →
      ∃ key, setting.schema.findByIdKey id = .ok key) :
    Ensures setting.schema scene ctx view (setting.backend.invalidate ctx start) fun _ later =>
      Swept setting.schema (Reached setting.schema view.hits start) view later ∧
      start.Gone setting.schema later := by
  rw [← setting.backend.arranged_id]
  exact ensures_invalidate_scanning passes (scans_arranged passes fun _ _ => .refl _) legible named

/-- Likewise if all that is seen can be read. -/
theorem ensures_invalidate (passes : setting.gate.Passes) (readable : Readable setting.schema view)
    {start : Node ι}
    (named : ∀ id, start = .entity id → ∃ key, setting.schema.findByIdKey id = .ok key) :
    Ensures setting.schema scene ctx view (setting.backend.invalidate ctx start) fun _ later =>
      Swept setting.schema (Reached setting.schema view.hits start) view later ∧
      start.Gone setting.schema later :=
  ensures_invalidate_of_legible passes (readable.legible _) fun _ => readable.named named

/-- The invalidation of a query that is not stored uses up the number of a transaction, and does
nothing else to the repository. -/
theorem repository_invalidateQuery_of_absent (passes : setting.gate.Passes) {world : World γ ε}
    (sees : Sees setting.schema scene ctx view world) {queryId : String}
    (absent : view.hits[queryId]? = none) :
    (setting.backend.invalidateQuery ctx queryId world).2.repository =
      { world.repository with lastTx := world.repository.lastTx + 1 } := by
  have nests := sees.size_lt_nesting
  change (hitWithin setting.backend (setting.backend.nesting world) ctx queryId
    world).2.repository = _
  cases bound : setting.backend.nesting world with
  | zero => exact absurd (bound ▸ nests) (Nat.not_lt_zero _)
  | succ depth =>
      let inner := entityWithin setting.backend depth
      obtain ⟨gate, applied⟩ := transact_apply passes sees (dropHit setting.backend inner queryId)
      have seesOpened := sees_opening sees gate
      obtain ⟨idleGate, found⟩ := findHit_of_absent passes seesOpened absent
      have idle : dropHit setting.backend inner queryId _ _ = (.ok (), _) :=
        (bind_of_ok (check_apply seesOpened)).trans (bind_of_ok found)
      change (setting.backend.transact ctx (dropHit setting.backend inner queryId)
        world).2.repository = _
      rw [applied]
      dsimp only
      rw [idle]
      change (setting.backend.commit _ _).2.repository = _
      rw [commit_apply passes, sees.sound.commit_opening sees.hits.opened]

/-- A cache of numbered entries behind a gate that lets every call pass. -/
def openSetting : Setting Unit UInt64 (Entry UInt64) :=
  ⟨IdKind.natural.schema, .opened, ⟨[], none, none, false⟩, false⟩

theorem openSetting_passes : openSetting.gate.Passes :=
  fun _ _ => rfl

/-- A world with the copies of two entries, one of which is listed by a hit. -/
def listedWorld : World Unit (Entry UInt64) :=
  { World.initial () [] 0 with
    repository := Repository.after IdKind.natural.schema
      [.request .initial .root (.upsertEntities [⟨7, "x"⟩, ⟨8, "y"⟩]),
        .request .initial .root (.createHit ⟨"q", [7], ⟨0, 0⟩⟩)] .empty }

end Simulation

/-- What is seen in a transaction of both tables of a repository. -/
def Repository.seen (repository : Repository) (place : Option TxId) : Except Error View := do
  return ⟨← repository.hits.view place, ← repository.entities.view place⟩

/-- Whether what is seen can be read is found out row by row. -/
theorem Readable.of_seen {schema : Schema ι ε} {repository : Repository} {place : Option TxId}
    (isReadable : (repository.seen place).map (View.isReadable schema) = .ok true) (view : View)
    (seen : repository.seen place = .ok view) : Readable schema view := by
  rw [seen] at isReadable
  exact .of_isReadable (Except.ok.inj isReadable)

theorem Repository.seen_eq_ok {repository : Repository} {place : Option TxId} {view : View} :
    repository.seen place = .ok view ↔
      repository.hits.view place = .ok view.hits ∧
        repository.entities.view place = .ok view.copies := by
  obtain ⟨hits, copies⟩ := view
  unfold seen
  cases repository.hits.view place with
  | error e => exact ⟨nofun, nofun⟩
  | ok seenHits =>
      cases repository.entities.view place with
      | error e => exact ⟨nofun, nofun⟩
      | ok seenCopies => simp [bind, Except.bind, pure, Except.pure]

/-- Outside of transactions, and in a transaction around which all are open, something is seen; and
nowhere else. -/
theorem Repository.exists_seen_iff {schema : Schema ι ε} {repository : Repository}
    (sound : repository.Sound schema) {place : Option TxId} :
    (∃ view, repository.seen place = .ok view) ↔ repository.hits.OpenThrough place := by
  rw [← Table.exists_view_iff sound.ordered]
  constructor
  · rintro ⟨view, seen⟩
    exact ⟨view.hits, (seen_eq_ok.mp seen).1⟩
  · rintro ⟨hits, seenHits⟩
    have isOpen := (Table.exists_view_iff sound.ordered).mp ⟨hits, seenHits⟩
    obtain ⟨copies, seenCopies⟩ :=
      (Table.exists_view_iff sound.entitiesOrdered).mpr (isOpen.congr sound.paired)
    exact ⟨⟨hits, copies⟩, seen_eq_ok.mpr ⟨seenHits, seenCopies⟩⟩

/-- A live context sees a view of a reachable repository, and no store is made to fail. -/
structure Simulation.Undisturbed {γ : Type} (setting : Simulation.Setting γ ι ε) (ctx : Context)
    (view : View) (world : Simulation.World γ ε) : Prop where
  reachable : world.repository.Reachable setting.schema
  live : ctx.check world.signals = .ok ()
  hitsHealthy : world.repository.hits.failure = none
  entitiesHealthy : world.repository.entities.failure = none
  seen : world.repository.seen ctx.tx = .ok view

theorem Simulation.Undisturbed.sees {γ : Type} {setting : Simulation.Setting γ ι ε} {ctx : Context}
    {view : View} {world : Simulation.World γ ε}
    (undisturbed : Undisturbed setting ctx view world) :
    Sees setting.schema world.scene ctx view world := by
  have sound : world.repository.Sound setting.schema := undisturbed.reachable.sound
  obtain ⟨seenHits, seenCopies⟩ := Repository.seen_eq_ok.mp undisturbed.seen
  exact ⟨rfl, sound, ⟨sound.ordered, undisturbed.hitsHealthy, undisturbed.live, seenHits⟩,
    ⟨sound.entitiesOrdered, undisturbed.entitiesHealthy, undisturbed.live, seenCopies⟩⟩

/-- Where nothing fails, an invalidation succeeds in a live context that is open. It removes from
what the context sees exactly the hits that are reached from its start and the copies of the
entities that are reached, and keeps the bytes of all others. A query that is not stored is
invalidated without any change, but that a transaction is numbered. -/
theorem invalidate_removes_exactly_reached [DecidableEq ι] {γ : Type}
    (setting : Simulation.Setting γ ι ε) (passes : setting.gate.Passes) (ctx : Context)
    (start : Node ι) (world : Simulation.World γ ε)
    (reachable : world.repository.Reachable setting.schema)
    (live : ctx.check world.signals = .ok ())
    (hitsHealthy : world.repository.hits.failure = none)
    (entitiesHealthy : world.repository.entities.failure = none)
    (isOpen : world.repository.hits.OpenThrough ctx.tx)
    (readable : ∀ view, world.repository.seen ctx.tx = .ok view → Readable setting.schema view)
    (named : ∀ id, start = .entity id → ∃ key, setting.schema.findByIdKey id = .ok key) :
    let done := setting.backend.invalidate ctx start world
    done.1 = .ok () ∧
    ∃ before after, world.repository.seen ctx.tx = .ok before ∧
      done.2.repository.seen ctx.tx = .ok after ∧
      (∀ (key : String) bytes, after.hits[key]? = some bytes ↔
        before.hits[key]? = some bytes ∧
          ¬ Reached setting.schema before.hits start (.hit key)) ∧
      (∀ (key : String) bytes, after.copies[key]? = some bytes ↔
        before.copies[key]? = some bytes ∧
          ¬ ∃ id, Reached setting.schema before.hits start (.entity id) ∧
            setting.schema.entityKey id = .ok key) ∧
      ∀ queryId, start = .hit queryId → before.hits[queryId]? = none →
        done.2.repository = { world.repository with lastTx := world.repository.lastTx + 1 } := by
  have sound : world.repository.Sound setting.schema := reachable.sound
  obtain ⟨before, seen⟩ := (Repository.exists_seen_iff sound).mpr isOpen
  have undisturbed : Simulation.Undisturbed setting ctx before world :=
    ⟨reachable, live, hitsHealthy, entitiesHealthy, seen⟩
  have sees := undisturbed.sees
  obtain ⟨after, seesAfter, -, ⟨⟩, succeeds, swept, gone⟩ :=
    Simulation.ensures_invalidate passes (readable before seen) named world sees
  obtain ⟨hits, copies⟩ := swept.exact gone
  refine ⟨succeeds, before, after, seen, ?_, hits, copies, ?_⟩
  · exact Repository.seen_eq_ok.mpr ⟨seesAfter.hits.view, seesAfter.copies.view⟩
  · rintro queryId rfl absent
    exact Simulation.repository_invalidateQuery_of_absent passes sees absent

theorem invalidate_removes_exactly_reached_listedWorld :
    let done := Simulation.openSetting.backend.invalidate .root (.entity 7) Simulation.listedWorld
    done.1 = .ok () ∧ ∃ after, done.2.repository.seen none = .ok after ∧
      after.hits["q"]? = none ∧ after.copies["item:7"]? = none := by
  let before : View :=
    ⟨Simulation.listedWorld.repository.hits.rows, Simulation.listedWorld.repository.entities.rows⟩
  have readable : Readable Simulation.openSetting.schema before :=
    .of_isReadable (by decide +kernel)
  have named : ∃ key, Simulation.openSetting.schema.findByIdKey 7 = .ok key := ⟨_, rfl⟩
  obtain ⟨succeeds, shown, after, same, seen, hits, copies, -⟩ :=
    invalidate_removes_exactly_reached Simulation.openSetting Simulation.openSetting_passes .root
      (.entity 7) Simulation.listedWorld ⟨_, rfl⟩ rfl rfl rfl .outside
      (fun view seen => by cases seen; exact readable) fun id same => by cases same; exact named
  obtain rfl : shown = before := (Except.ok.inj same).symm
  refine ⟨succeeds, after, seen, ?_, ?_⟩
  · cases kept : after.hits["q"]? with
    | none => rfl
    | some bytes =>
        obtain ⟨present, notReached⟩ := (hits "q" bytes).mp kept
        have stored : (before.hits["q"]?.map fun bytes =>
            ((Simulation.openSetting.schema.decodeHit bytes).map Hit.entityIds).toOption) =
            some (some [7]) := by
          decide +kernel
        rw [present] at stored
        cases decoded : Simulation.openSetting.schema.decodeHit bytes with
        | error e => simp [decoded, Except.map, Except.toOption] at stored
        | ok hit =>
            have listed : hit.entityIds = [7] := by
              simpa [decoded, Except.map, Except.toOption] using stored
            have lists : (7 : UInt64) ∈ hit.entityIds := by simp [listed]
            exact absurd (.listing .start ⟨bytes, present, decoded⟩ lists) notReached
  · cases kept : after.copies["item:7"]? with
    | none => rfl
    | some bytes =>
        have notReached := ((copies "item:7" bytes).mp kept).2
        exact absurd ⟨7, .start, rfl⟩ notReached

end QueryCache
