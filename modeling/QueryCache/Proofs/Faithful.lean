import QueryCache.Proofs.Cascade
import QueryCache.Proofs.Sources

/-!
# Faithful views

A view is faithful to the rows of a source if every copy in it is a row, and if no hit of the query
for one entity hides a row: such a hit lists the entity or nothing, and it lists nothing only where
there is no row of the entity, or where a copy is found before the hit is asked for. Everything that
a cache does to what it stores keeps a view faithful.
-/

namespace QueryCache

open Wire

variable {ι ε : Type} {schema : Schema ι ε} {rows later : List ε} {view : View}

/-- It does no harm that a query for an entity is known to find nothing: there is no row of it, or
its copy is found before. -/
def Harmless (schema : Schema ι ε) (rows : List ε) (copies : Rows) (id : ι) : Prop :=
  (∀ row ∈ rows, schema.idOf row ≠ id) ∨
    ∃ key, schema.entityKey id = .ok key ∧ copies[key]?.isSome

/-- What a cache shows of a source with the given rows. -/
structure Faithful (schema : Schema ι ε) (rows : List ε) (view : View) : Prop where
  copies : ∀ (key : String) bytes, view.copies[key]? = some bytes →
    ∃ row ∈ rows, schema.entityKey (schema.idOf row) = .ok key ∧ schema.decode bytes = .ok row
  hits : ∀ (key : String) bytes, view.hits[key]? = some bytes →
    ∃ hit, schema.decodeHit bytes = .ok hit
  own : ∀ id key hit, schema.findByIdKey id = .ok key → view.hits.Hold schema key hit →
    hit.entityIds = [id] ∨ hit.entityIds = [] ∧ Harmless schema rows view.copies id

namespace Faithful

theorem empty (schema : Schema ι ε) (rows : List ε) : Faithful schema rows ⟨∅, ∅⟩ where
  copies key bytes present := by simp at present
  hits key bytes present := by simp at present
  own := by
    rintro id key hit - ⟨bytes, present, -⟩
    simp at present

variable (names : schema.Names)

include names in
theorem readable (faithful : Faithful schema rows view) : Readable schema view where
  hits := faithful.hits
  copies key bytes present := by
    obtain ⟨row, -, -, decoded⟩ := faithful.copies key bytes present
    exact ⟨row, decoded⟩
  listed _ _ _ id _ := names.exists_findByIdKey id

include names in
/-- With a copy, a sweep removes the hit of the query for its entity. -/
theorem swept (faithful : Faithful schema rows view) {after : View} {start : Node ι}
    (swept : Swept schema (Reached schema view.hits start) view after)
    (startGone : start.Gone schema after) : Faithful schema rows after where
  copies key bytes present := faithful.copies key bytes (swept.sub.copies key bytes present)
  hits key bytes present := faithful.hits key bytes (swept.sub.hits key bytes present)
  own id key hit named held := by
    have heldBefore := swept.sub.hits.hold held
    refine (faithful.own id key hit named heldBefore).imp_right fun ⟨listsNone, harmless⟩ => ?_
    refine ⟨listsNone, harmless.imp_right fun ⟨place, placed, present⟩ => ⟨place, placed, ?_⟩⟩
    by_contra absent
    obtain ⟨bytes, present⟩ := Option.isSome_iff_exists.mp present
    obtain ⟨other, isReached, samePlace⟩ :=
      swept.copies place bytes present (Option.not_isSome_iff_eq_none.mp absent)
    have gone : Gone schema other after := swept.gone_of_reached startGone isReached
    cases names.entityKey_inj placed samePlace
    obtain ⟨stored, still, -⟩ := held
    cases still.symm.trans (gone.own key named)

/-- A view in which nothing is left of an entity is faithful whatever becomes of the row of it. -/
theorem elsewhere (faithful : Faithful schema rows view) {id : ι} (gone : Gone schema id view)
    (kept : ∀ row ∈ rows, schema.idOf row ≠ id → row ∈ later)
    (onto : ∀ row ∈ later, schema.idOf row ≠ id → row ∈ rows) :
    Faithful schema later view where
  copies key bytes present := by
    obtain ⟨row, member, named, decoded⟩ := faithful.copies key bytes present
    refine ⟨row, kept row member fun same => ?_, named, decoded⟩
    cases present.symm.trans (gone.copy key (same ▸ named))
  hits := faithful.hits
  own other key hit named held := by
    refine (faithful.own other key hit named held).imp_right fun ⟨listsNone, harmless⟩ => ?_
    refine ⟨listsNone, harmless.imp_left fun absent row member same => ?_⟩
    have apart : other ≠ id := by
      rintro rfl
      obtain ⟨bytes, present, -⟩ := held
      cases present.symm.trans (gone.own key named)
    exact absent row (onto row member (same ▸ apart)) same

include names in
/-- Rows may change where copies of them are stored. -/
theorem copied (faithful : Faithful schema rows view) {entities : List ε} {copies : Rows}
    (copied : Copied schema entities view.copies copies)
    (into : ∀ entity ∈ entities, entity ∈ later)
    (kept : ∀ row ∈ rows, (∀ entity ∈ entities, schema.idOf entity ≠ schema.idOf row) → row ∈ later)
    (onto : ∀ row ∈ later, row ∈ entities ∨ row ∈ rows) :
    Faithful schema later { view with copies } where
  copies key bytes present := by
    rcases copied key with ⟨same, others⟩ | ⟨entity, member, named, stored, found, decoded⟩
    · obtain ⟨row, member, named, decoded⟩ := faithful.copies key bytes (same ▸ present)
      refine ⟨row, kept row member fun entity isIn sameId => ?_, named, decoded⟩
      exact others entity isIn (sameId ▸ named)
    · cases found.symm.trans present
      exact ⟨entity, into entity member, named, decoded⟩
  hits := faithful.hits
  own id key hit named held := by
    refine (faithful.own id key hit named held).imp_right fun ⟨listsNone, harmless⟩ => ?_
    refine ⟨listsNone, ?_⟩
    obtain ⟨place, placed⟩ := names.exists_entityKey id
    rcases copied place with ⟨same, others⟩ | ⟨entity, member, -, stored, found, -⟩
    · rcases harmless with absent | ⟨other, samePlace, present⟩
      · refine .inl fun row member sameId => ?_
        rcases onto row member with isIn | isIn
        · exact others row isIn (sameId ▸ placed)
        · exact absent row isIn sameId
      · cases placed.symm.trans samePlace
        exact .inr ⟨place, placed, same ▸ present⟩
    · exact .inr ⟨place, placed, by rw [found]; rfl⟩

/-- A hit may be recorded if it hides no row. -/
theorem recorded (faithful : Faithful schema rows view) {hit : Hit ι} {bytes : Bytes}
    (decoded : schema.decodeHit bytes = .ok hit)
    (own : ∀ id, schema.findByIdKey id = .ok hit.queryId →
      hit.entityIds = [id] ∨ hit.entityIds = [] ∧ Harmless schema rows view.copies id) :
    Faithful schema rows { view with hits := view.hits.insert hit.queryId bytes } where
  copies := faithful.copies
  hits key found present := by
    by_cases same : hit.queryId = key
    · subst same
      rw [Std.ExtTreeMap.getElem?_insert_self] at present
      cases present
      exact ⟨hit, decoded⟩
    · simp only [Std.ExtTreeMap.getElem?_insert, Std.LawfulEqCmp.compare_eq_iff_eq, same, if_false]
        at present
      exact faithful.hits key found present
  own id key other named held := by
    obtain ⟨found, present, decodedOther⟩ := held
    by_cases same : hit.queryId = key
    · subst same
      rw [Std.ExtTreeMap.getElem?_insert_self] at present
      cases present
      cases decoded.symm.trans decodedOther
      exact own id named
    · simp only [Std.ExtTreeMap.getElem?_insert, Std.LawfulEqCmp.compare_eq_iff_eq, same, if_false]
        at present
      exact faithful.own id key other named ⟨found, present, decodedOther⟩

end Faithful

end QueryCache
