import Mathlib.Data.List.Perm.Subperm
import QueryCache.Schema
import QueryCache.Store.Table

/-!
# What goes together

Hits and entities form a graph: an entity goes together with the hit of its own query and with
every hit that lists it, and a hit with every entity that it lists. `Reached` is what goes
together with a start.

A removal sweeps a view (`Swept`) if all it removes is reached, and if with every hit it removed
nothing is left of the entities that the hit lists (`Gone`). Sweeps compose. A sweep that also did
away with its start removed exactly what is reached.
-/

namespace QueryCache

open Wire

/-- An entity, or the hit of a query. -/
inductive Node (ι : Type)
  | entity (id : ι)
  | hit (queryId : String)

/-- Rows hold a hit of a query. -/
def Rows.Hold {ι ε : Type} (schema : Schema ι ε) (rows : Rows) (queryId : String)
    (hit : Hit ι) : Prop :=
  ∃ bytes, rows[queryId]? = some bytes ∧ schema.decodeHit bytes = .ok hit

/-- What goes together with a start, given the rows of hits. -/
inductive Reached {ι ε : Type} (schema : Schema ι ε) (rows : Rows) (start : Node ι) :
    Node ι → Prop
  | start : Reached schema rows start start
  | own {id : ι} {key : String} (earlier : Reached schema rows start (.entity id))
      (named : schema.findByIdKey id = .ok key) (stored : rows[key]?.isSome) :
      Reached schema rows start (.hit key)
  | listing {id : ι} {key : String} {hit : Hit ι} (earlier : Reached schema rows start (.entity id))
      (held : rows.Hold schema key hit) (lists : id ∈ hit.entityIds) :
      Reached schema rows start (.hit key)
  | listed {key : String} {hit : Hit ι} {id : ι} (earlier : Reached schema rows start (.hit key))
      (held : rows.Hold schema key hit) (lists : id ∈ hit.entityIds) :
      Reached schema rows start (.entity id)

/-- Rows all of which are among other rows. -/
def Rows.Sub (later earlier : Rows) : Prop :=
  ∀ (key : String) (bytes : Bytes), later[key]? = some bytes → earlier[key]? = some bytes

namespace Rows

theorem Sub.refl (rows : Rows) : rows.Sub rows :=
  fun _ _ present => present

theorem Sub.trans {first second third : Rows} (upper : first.Sub second)
    (lower : second.Sub third) : first.Sub third :=
  fun key bytes present => lower key bytes (upper key bytes present)

theorem Sub.absent {later earlier : Rows} (sub : later.Sub earlier) {key : String}
    (absent : earlier[key]? = none) : later[key]? = none := by
  cases present : later[key]? with
  | none => rfl
  | some bytes => cases absent.symm.trans (sub key bytes present)

/-- A row that is still there is the row that was there. -/
theorem Sub.present {later earlier : Rows} (sub : later.Sub earlier) {key : String} {bytes : Bytes}
    (present : earlier[key]? = some bytes) (kept : later[key]? ≠ none) :
    later[key]? = some bytes := by
  obtain ⟨other, still⟩ := Option.ne_none_iff_exists'.mp kept
  rw [still, ← sub key other still, present]

theorem Sub.isSome {later earlier : Rows} (sub : later.Sub earlier) {key : String}
    (kept : later[key]?.isSome) : earlier[key]?.isSome := by
  obtain ⟨bytes, present⟩ := Option.isSome_iff_exists.mp kept
  rw [sub key bytes present]
  rfl

theorem Sub.hold {ι ε : Type} {schema : Schema ι ε} {later earlier : Rows}
    (sub : later.Sub earlier) {queryId : String} {hit : Hit ι}
    (held : later.Hold schema queryId hit) : earlier.Hold schema queryId hit := by
  obtain ⟨bytes, present, decoded⟩ := held
  exact ⟨bytes, sub queryId bytes present, decoded⟩

/-- The identifiers that the hit of a query lists, if it is held. -/
def listed {ι ε : Type} (schema : Schema ι ε) (rows : Rows) (queryId : String) :
    Option (List ι) := do
  let bytes ← rows[queryId]?
  let hit ← (schema.decodeHit bytes).toOption
  return hit.entityIds

theorem exists_hold_of_listed {ι ε : Type} {schema : Schema ι ε} {rows : Rows} {queryId : String}
    {ids : List ι} (isListed : rows.listed schema queryId = some ids) :
    ∃ hit, rows.Hold schema queryId hit ∧ hit.entityIds = ids := by
  unfold listed at isListed
  cases present : rows[queryId]? with
  | none => simp [present] at isListed
  | some bytes =>
      cases decoded : schema.decodeHit bytes with
      | error e => simp [present, decoded, Except.toOption] at isListed
      | ok hit =>
          refine ⟨hit, ⟨bytes, present, decoded⟩, ?_⟩
          simpa [present, decoded, Except.toOption] using isListed

/-- A hit that is held after another one was stored is that one, or was held before. -/
theorem hold_insert {ι ε : Type} {schema : Schema ι ε} {rows : Rows} {key other : String}
    {bytes : Bytes} {hit : Hit ι} (held : Rows.Hold schema (rows.insert key bytes) other hit) :
    other = key ∧ schema.decodeHit bytes = .ok hit ∨ rows.Hold schema other hit := by
  obtain ⟨found, present, decoded⟩ := held
  rw [Std.ExtTreeMap.getElem?_insert] at present
  split at present
  · rename_i same
    cases present
    exact .inl ⟨(Std.LawfulEqCmp.compare_eq_iff_eq.mp same).symm, decoded⟩
  · exact .inr ⟨found, present, decoded⟩

theorem getElem?_erase (rows : Rows) (key other : String) :
    (rows.erase key)[other]? = if key = other then none else rows[other]? := by
  simp [Std.ExtTreeMap.getElem?_erase]

theorem sub_erase (rows : Rows) (key : String) : Rows.Sub (rows.erase key) rows := by
  intro other bytes present
  rw [getElem?_erase] at present
  split at present
  · cases present
  · exact present

/-- Rows have no more keys than a list that holds all of them. -/
theorem size_le_length {rows : Rows} {keys : List String}
    (covered : ∀ (key : String) (bytes : Bytes), rows[key]? = some bytes → key ∈ keys) :
    rows.size ≤ keys.length := by
  rw [← Std.ExtTreeMap.length_keys]
  refine (List.subperm_of_subset Std.ExtTreeMap.nodup_keys fun key member => ?_).length_le
  obtain ⟨bytes, present⟩ := Option.isSome_iff_exists.mp
    (Std.ExtTreeMap.mem_iff_isSome_getElem?.mp (Std.ExtTreeMap.mem_keys.mp member))
  exact covered key bytes present

theorem Sub.size_le {later earlier : Rows} (sub : later.Sub earlier) :
    later.size ≤ earlier.size := by
  have covered : later.size ≤ earlier.keys.length := by
    refine size_le_length fun key bytes present => Std.ExtTreeMap.mem_keys.mpr ?_
    rw [Std.ExtTreeMap.mem_iff_isSome_getElem?, sub key bytes present]
    rfl
  rwa [Std.ExtTreeMap.length_keys] at covered

theorem size_erase_lt {rows : Rows} {key : String} {bytes : Bytes}
    (present : rows[key]? = some bytes) : (rows.erase key).size < rows.size := by
  have member : rows.contains key := by
    rw [Std.ExtTreeMap.contains_eq_isSome_getElem?, present]
    rfl
  have nonempty : rows.size ≠ 0 := by
    intro empty
    rw [Std.ExtTreeMap.eq_empty_iff_size_eq_zero.mpr empty] at present
    simp at present
  rw [Std.ExtTreeMap.size_erase, if_pos member]
  omega

end Rows

/-- The rows that a context sees. -/
structure View where
  hits : Rows
  copies : Rows

/-- A view all of which is in another one. -/
structure View.Sub (later earlier : View) : Prop where
  hits : later.hits.Sub earlier.hits
  copies : later.copies.Sub earlier.copies

theorem View.Sub.refl (view : View) : View.Sub view view :=
  ⟨.refl _, .refl _⟩

theorem View.Sub.trans {first second third : View} (upper : View.Sub first second)
    (lower : View.Sub second third) : View.Sub first third :=
  ⟨upper.hits.trans lower.hits, upper.copies.trans lower.copies⟩

section Sweeps

variable {ι ε : Type} (schema : Schema ι ε)

/-- Hits are seen in the rows of their queries. -/
def View.Keyed (view : View) : Prop :=
  ∀ key hit, view.hits.Hold schema key hit → hit.queryId = key

/-- Nothing of an entity is left in a view: not the hit of its own query, no hit that lists it, and
no copy of it. -/
structure Gone (id : ι) (view : View) : Prop where
  own : ∀ key, schema.findByIdKey id = .ok key → view.hits[key]? = none
  unlisted : ∀ key hit, view.hits.Hold schema key hit → id ∉ hit.entityIds
  copy : ∀ key, schema.entityKey id = .ok key → view.copies[key]? = none

variable {schema}

theorem Gone.sub {id : ι} {earlier later : View} (gone : Gone schema id earlier)
    (sub : View.Sub later earlier) : Gone schema id later where
  own key named := sub.hits.absent (gone.own key named)
  unlisted key hit held := gone.unlisted key hit (sub.hits.hold held)
  copy key named := sub.copies.absent (gone.copy key named)

variable (schema)

/-- All that was removed of a view is reached, and with a removed hit nothing is left of the
entities that it lists. -/
structure Swept (reached : Node ι → Prop) (earlier later : View) : Prop where
  sub : View.Sub later earlier
  settled : ∀ key hit, earlier.hits.Hold schema key hit → later.hits[key]? = none →
    ∀ id ∈ hit.entityIds, Gone schema id later
  hits : ∀ (key : String) bytes, earlier.hits[key]? = some bytes → later.hits[key]? = none →
    reached (.hit key)
  copies : ∀ (key : String) bytes, earlier.copies[key]? = some bytes → later.copies[key]? = none →
    ∃ id, reached (.entity id) ∧ schema.entityKey id = .ok key

variable {schema} {reached : Node ι → Prop}

namespace Swept

theorem refl (view : View) : Swept schema reached view view where
  sub := .refl view
  settled := by
    rintro key hit ⟨bytes, present, -⟩ absent
    cases present.symm.trans absent
  hits key bytes present absent := by cases present.symm.trans absent
  copies key bytes present absent := by cases present.symm.trans absent

theorem trans {first second third : View} (earlier : Swept schema reached first second)
    (later : Swept schema reached second third) : Swept schema reached first third where
  sub := later.sub.trans earlier.sub
  settled := by
    rintro key hit ⟨bytes, present, decoded⟩ absent id listed
    by_cases kept : second.hits[key]? = none
    · exact (earlier.settled key hit ⟨bytes, present, decoded⟩ kept id listed).sub later.sub
    · exact later.settled key hit ⟨bytes, earlier.sub.hits.present present kept, decoded⟩ absent id
        listed
  hits key bytes present absent := by
    by_cases kept : second.hits[key]? = none
    · exact earlier.hits key bytes present kept
    · exact later.hits key bytes (earlier.sub.hits.present present kept) absent
  copies key bytes present absent := by
    by_cases kept : second.copies[key]? = none
    · exact earlier.copies key bytes present kept
    · exact later.copies key bytes (earlier.sub.copies.present present kept) absent

/-- A hit is removed first, and the entities that it lists afterwards. -/
theorem eraseHit {earlier later : View} {queryId : String} {hit : Hit ι}
    (held : earlier.hits.Hold schema queryId hit) (isReached : reached (.hit queryId))
    (rest : Swept schema reached { earlier with hits := earlier.hits.erase queryId } later)
    (gone : ∀ id ∈ hit.entityIds, Gone schema id later) : Swept schema reached earlier later where
  sub := rest.sub.trans ⟨Rows.sub_erase _ _, .refl _⟩
  settled := by
    rintro key other ⟨bytes, present, decoded⟩ absent id listed
    by_cases same : queryId = key
    · subst same
      obtain ⟨heldBytes, heldPresent, heldDecoded⟩ := held
      cases heldPresent.symm.trans present
      cases heldDecoded.symm.trans decoded
      exact gone id listed
    · refine rest.settled key other ⟨bytes, ?_, decoded⟩ absent id listed
      rw [Rows.getElem?_erase, if_neg same, present]
  hits key bytes present absent := by
    by_cases same : queryId = key
    · exact same ▸ isReached
    · refine rest.hits key bytes ?_ absent
      rw [Rows.getElem?_erase, if_neg same, present]
  copies := rest.copies

theorem eraseCopy {view : View} {id : ι} {key : String} (isReached : reached (.entity id))
    (named : schema.entityKey id = .ok key) :
    Swept schema reached view { view with copies := view.copies.erase key } where
  sub := ⟨.refl _, Rows.sub_erase _ _⟩
  settled := by
    rintro other hit ⟨bytes, present, -⟩ absent
    cases present.symm.trans absent
  hits other bytes present absent := by cases present.symm.trans absent
  copies other bytes present absent := by
    rw [Rows.getElem?_erase] at absent
    split at absent
    · rename_i same
      exact ⟨id, isReached, same ▸ named⟩
    · cases present.symm.trans absent

end Swept

/-- Nodes that are closed under going together, given the rows of hits. -/
structure Closed (schema : Schema ι ε) (rows : Rows) (reached : Node ι → Prop) : Prop where
  own : ∀ id key, reached (.entity id) → schema.findByIdKey id = .ok key → rows[key]?.isSome →
    reached (.hit key)
  listing : ∀ id key hit, reached (.entity id) → rows.Hold schema key hit → id ∈ hit.entityIds →
    reached (.hit key)
  listed : ∀ key hit id, reached (.hit key) → rows.Hold schema key hit → id ∈ hit.entityIds →
    reached (.entity id)

theorem closed_reached (rows : Rows) (start : Node ι) :
    Closed schema rows (Reached schema rows start) where
  own _ _ := Reached.own
  listing _ _ _ := Reached.listing
  listed _ _ _ := Reached.listed

/-- Nothing is left of a node. -/
def Node.Gone (schema : Schema ι ε) (view : View) : Node ι → Prop
  | .entity id => QueryCache.Gone schema id view
  | .hit queryId => view.hits[queryId]? = none

/-- A sweep that did away with its start did away with all that is reached. -/
theorem Swept.gone_of_reached {earlier later : View} {start node : Node ι}
    (swept : Swept schema reached earlier later) (startGone : start.Gone schema later)
    (isReached : Reached schema earlier.hits start node) : node.Gone schema later := by
  induction isReached with
  | start => exact startGone
  | own _ named stored inductionHypothesis => exact inductionHypothesis.own _ named
  | @listing id key hit _ held lists inductionHypothesis =>
      by_cases kept : later.hits[key]? = none
      · exact kept
      · obtain ⟨bytes, present, decoded⟩ := held
        have still := swept.sub.hits.present present kept
        exact absurd lists (inductionHypothesis.unlisted key hit ⟨bytes, still, decoded⟩)
  | @listed key hit id _ held lists inductionHypothesis =>
      exact swept.settled key hit held inductionHypothesis id lists

/-- A sweep that did away with its start removed exactly what is reached. -/
theorem Swept.exact {earlier later : View} {start : Node ι}
    (swept : Swept schema (Reached schema earlier.hits start) earlier later)
    (startGone : start.Gone schema later) :
    (∀ (key : String) bytes, later.hits[key]? = some bytes ↔
      earlier.hits[key]? = some bytes ∧ ¬ Reached schema earlier.hits start (.hit key)) ∧
    (∀ (key : String) bytes, later.copies[key]? = some bytes ↔
      earlier.copies[key]? = some bytes ∧
        ¬ ∃ id, Reached schema earlier.hits start (.entity id) ∧
          schema.entityKey id = .ok key) := by
  refine ⟨fun key bytes => ⟨fun kept => ?_, ?_⟩, fun key bytes => ⟨fun kept => ?_, ?_⟩⟩
  · refine ⟨swept.sub.hits key bytes kept, fun isReached => ?_⟩
    have gone : later.hits[key]? = none := swept.gone_of_reached startGone isReached
    cases kept.symm.trans gone
  · rintro ⟨present, notReached⟩
    by_cases kept : later.hits[key]? = none
    · exact absurd (swept.hits key bytes present kept) notReached
    · exact swept.sub.hits.present present kept
  · refine ⟨swept.sub.copies key bytes kept, ?_⟩
    rintro ⟨id, isReached, named⟩
    have gone : Gone schema id later := swept.gone_of_reached startGone isReached
    cases kept.symm.trans (gone.copy key named)
  · rintro ⟨present, notReached⟩
    by_cases kept : later.copies[key]? = none
    · exact absurd (swept.copies key bytes present kept) notReached
    · exact swept.sub.copies.present present kept

end Sweeps

end QueryCache
