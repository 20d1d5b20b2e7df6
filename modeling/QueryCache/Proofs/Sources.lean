import QueryCache.Proofs.Actions
import QueryCache.Source

/-!
# The source in memory

What each call of the source does where it is not made to fail and the context is live, and what
becomes of the rows.
-/

namespace QueryCache

variable {ι ε : Type} [DecidableEq ι] {schema : Schema ι ε} {id : ι} {entity : ε} {rows : List ε}

namespace Source

section Calls

variable {signals : Signals} {ctx : Context} {source : Source ε}
  (live : ctx.check signals = .ok ()) (healthy : source.failure = none)
include live healthy

theorem precheck_apply : precheck signals ctx source = (.ok (), source) := by
  simp only [precheck, Action.bind_apply, Action.state, Action.liftM_apply, live, healthy]
  rfl

theorem findById_apply (id : ι) :
    findById schema signals ctx id source =
      (.ok (rowOf schema id source.rows),
        { source with findByIdCalls := source.findByIdCalls + 1 }) := by
  simp [findById, Action.bind_apply, Action.modify, Action.state, precheck_apply live, healthy]

theorem findAll_apply :
    findAll signals ctx source =
      (.ok source.rows, { source with findAllCalls := source.findAllCalls + 1 }) := by
  simp [findAll, Action.bind_apply, Action.modify, Action.state, precheck_apply live, healthy]

theorem create_apply (entity : ε) :
    create schema signals ctx entity source =
      if (rowOf schema (schema.idOf entity) source.rows).isSome then
        (.error (.source (schema.label ++ " already exists with id " ++
          schema.idText (schema.idOf entity))), source)
      else (.ok (), { source with rows := source.rows ++ [entity] }) := by
  simp only [create, Action.bind_apply, Action.state, precheck_apply live healthy]
  split <;> rfl

theorem update_apply (entity : ε) :
    update schema signals ctx entity source =
      match replace schema entity source.rows with
      | some rows => (.ok (), { source with rows })
      | none => (.error (.notFound (schema.named (schema.idOf entity))), source) := by
  simp only [update, Action.bind_apply, Action.state, precheck_apply live healthy]
  cases replace schema entity source.rows <;> rfl

theorem deleteById_apply (id : ι) :
    deleteById schema signals ctx id source =
      if (rowOf schema id source.rows).isSome then
        (.ok (), { source with rows := source.rows.filter fun row => schema.idOf row ≠ id })
      else (.error (.notFound (schema.named id)), source) := by
  simp only [deleteById, Action.bind_apply, Action.state, precheck_apply live healthy]
  split <;> rfl

theorem deleteAll_apply :
    deleteAll signals ctx source = (.ok (), { source with rows := [] }) := by
  simp only [deleteAll, Action.bind_apply, Action.modify, precheck_apply live healthy]

end Calls

section Successes

variable {signals : Signals} {ctx : Context} {source : Source ε}

/-- A call that succeeds was not kept from being made. -/
theorem live_of_ok {α : Type} {rest : Unit → Action (Source ε) α} {value : α}
    (succeeds : ((precheck signals ctx >>= rest) source).1 = .ok value) :
    ctx.check signals = .ok () ∧ source.failure = none := by
  obtain ⟨_, checked, -⟩ := Action.exists_of_bind_apply_eq_ok succeeds
  obtain ⟨_, live, -, -⟩ := Action.exists_of_bind_apply_eq_ok checked
  refine ⟨live, ?_⟩
  have live : ctx.check signals = .ok () := live
  cases failure : source.failure with
  | none => rfl
  | some e =>
      simp only [precheck, Action.bind_apply, Action.state, Action.liftM_apply, live, failure]
        at checked
      cases checked

/-- After its creation, the row of an entity is the entity. -/
theorem rowOf_of_create (succeeds : (create schema signals ctx entity source).1 = .ok ()) :
    rowOf schema (schema.idOf entity) (create schema signals ctx entity source).2.rows =
      some entity := by
  obtain ⟨live, healthy⟩ := live_of_ok succeeds
  rw [create_apply live healthy] at succeeds ⊢
  split at succeeds
  · cases succeeds
  · rename_i absent
    rw [if_neg absent, rowOf, List.find?_append]
    rw [rowOf, Option.not_isSome_iff_eq_none] at absent
    simp [absent]

/-- After its replacement, the row of an entity is the entity. -/
theorem rowOf_of_replace {later : List ε} (replaced : replace schema entity rows = some later) :
    rowOf schema (schema.idOf entity) later = some entity := by
  induction rows generalizing later with
  | nil => cases replaced
  | cons row rows inductionHypothesis =>
      rw [replace] at replaced
      split at replaced
      · cases replaced
        simp [rowOf]
      · rename_i other
        obtain ⟨rest, found, rfl⟩ := Option.map_eq_some_iff.mp replaced
        rw [rowOf, List.find?_cons_of_neg (by simpa using other)]
        exact inductionHypothesis found

theorem rowOf_of_update (succeeds : (update schema signals ctx entity source).1 = .ok ()) :
    rowOf schema (schema.idOf entity) (update schema signals ctx entity source).2.rows =
      some entity := by
  obtain ⟨live, healthy⟩ := live_of_ok succeeds
  rw [update_apply live healthy] at succeeds ⊢
  cases replaced : replace schema entity source.rows with
  | none =>
      rw [replaced] at succeeds
      cases succeeds
  | some later => exact rowOf_of_replace replaced

end Successes

theorem rowOf_eq_none_iff : rowOf schema id rows = none ↔ ∀ row ∈ rows, schema.idOf row ≠ id := by
  simp [rowOf]

/-- In rows of different identifiers, the row of an identifier is the one that has it. -/
theorem rowOf_eq_some_iff (distinct : (rows.map schema.idOf).Nodup) :
    rowOf schema id rows = some entity ↔ entity ∈ rows ∧ schema.idOf entity = id := by
  induction rows with
  | nil => simp [rowOf]
  | cons row rows inductionHypothesis =>
      obtain ⟨fresh, distinct⟩ := List.nodup_cons.mp distinct
      have others := inductionHypothesis distinct
      unfold rowOf at others ⊢
      rw [List.find?_cons]
      by_cases same : schema.idOf row = id
      · simp only [same, decide_true, Option.some.injEq, List.mem_cons]
        constructor
        · rintro rfl
          exact ⟨.inl rfl, same⟩
        · rintro ⟨rfl | member, named⟩
          · rfl
          · exact absurd (List.mem_map.mpr ⟨entity, member, named.trans same.symm⟩) fresh
      · simp only [same, decide_false, others, List.mem_cons]
        constructor
        · rintro ⟨member, named⟩
          exact ⟨.inr member, named⟩
        · rintro ⟨rfl | member, named⟩
          · exact absurd named same
          · exact ⟨member, named⟩

/-- Replacing a row keeps the identifiers and all rows of other identifiers. -/
theorem of_replace {later : List ε} (replaced : replace schema entity rows = some later) :
    later.map schema.idOf = rows.map schema.idOf ∧ entity ∈ later ∧
      (∀ row ∈ later, row = entity ∨ row ∈ rows) ∧
      ∀ row ∈ rows, schema.idOf row ≠ schema.idOf entity → row ∈ later := by
  induction rows generalizing later with
  | nil => cases replaced
  | cons row rows inductionHypothesis =>
      rw [replace] at replaced
      split at replaced
      · rename_i same
        cases replaced
        refine ⟨by simp [same], List.mem_cons_self, fun other member => ?_,
          fun other member apart => ?_⟩
        · rcases List.mem_cons.mp member with rfl | member
          · exact .inl rfl
          · exact .inr (List.mem_cons_of_mem _ member)
        · rcases List.mem_cons.mp member with rfl | member
          · exact absurd same apart
          · exact List.mem_cons_of_mem _ member
      · rename_i apartRow
        obtain ⟨rest, found, rfl⟩ := Option.map_eq_some_iff.mp replaced
        obtain ⟨sameIds, isIn, onto, kept⟩ := inductionHypothesis found
        refine ⟨by simp [sameIds], List.mem_cons_of_mem _ isIn, fun other member => ?_,
          fun other member apart => ?_⟩
        · rcases List.mem_cons.mp member with rfl | member
          · exact .inr List.mem_cons_self
          · exact (onto other member).imp_right (List.mem_cons_of_mem _)
        · rcases List.mem_cons.mp member with rfl | member
          · exact List.mem_cons_self
          · exact List.mem_cons_of_mem _ (kept other member apart)

end Source

end QueryCache
