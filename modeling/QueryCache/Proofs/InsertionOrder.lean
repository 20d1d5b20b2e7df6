import Mathlib.Data.List.Basic
import QueryCache.Proofs.Sources
import QueryCache.Simulation.Entry

/-!
# The source is a map in order of insertion

A source holds its rows in a list, and every call searches the list in a way of its own. Together
they do what a map does that lists its entries in the order in which their keys came into it
(`OrderedMap`). Rows stand for such a map (`Source.Represents`) if they have its keys, in the same
order, and the first row of each key is its entry. Every call keeps this up, and so does every run
of calls, whatever failures are set in between and whenever contexts end.
-/

namespace QueryCache

open Simulation

/-- A map that lists its keys in the order in which they came into it. -/
structure OrderedMap (ι ε : Type) where
  order : List ι
  entry : ι → Option ε
  nodup : order.Nodup
  mem_order_iff : ∀ id, id ∈ order ↔ (entry id).isSome

namespace OrderedMap

variable {ι ε : Type}

/-- The map without entries. -/
def empty : OrderedMap ι ε := ⟨[], fun _ => none, List.nodup_nil, by simp⟩

/-- The entries in the order of their keys. -/
def toList (map : OrderedMap ι ε) : List ε := map.order.filterMap map.entry

variable [DecidableEq ι] (map : OrderedMap ι ε) (id : ι)

/-- The map with an entry for a key. A key that is there keeps its place, another one goes last. -/
def put (value : ε) : OrderedMap ι ε where
  order := if (map.entry id).isSome then map.order else map.order ++ [id]
  entry := Function.update map.entry id (some value)
  nodup := by
    split
    · exact map.nodup
    · rename_i absent
      rw [← map.mem_order_iff] at absent
      refine List.nodup_append.mpr ⟨map.nodup, by simp, ?_⟩
      intro other member _ isNew same
      exact absurd (same.trans (List.mem_singleton.mp isNew) ▸ member) absent
  mem_order_iff other := by
    by_cases same : other = id
    · subst same
      split <;> simp_all [map.mem_order_iff]
    · split <;> simp [same, map.mem_order_iff]

/-- The map without an entry for a key. -/
def erase : OrderedMap ι ε where
  order := map.order.filter (· ≠ id)
  entry := Function.update map.entry id none
  nodup := map.nodup.filter _
  mem_order_iff other := by
    by_cases same : other = id <;> simp [same, map.mem_order_iff]

@[simp] theorem entry_put (value : ε) (other : ι) :
    (map.put id value).entry other = if other = id then some value else map.entry other :=
  Function.update_apply ..

@[simp] theorem entry_erase (other : ι) :
    (map.erase id).entry other = if other = id then none else map.entry other :=
  Function.update_apply ..

end OrderedMap

/-- An action for each of some items, one after the other, whether or not they fail: how each of
them ended, and what they leave. -/
def Action.trace {σ τ α : Type} (act : τ → Action σ α) : List τ → σ → List (Except Error α) × σ
  | [], s => ([], s)
  | item :: items, s =>
      let rest := trace act items (act item s).2
      ((act item s).1 :: rest.1, rest.2)

/-- Actions that end alike from related states do so one after the other. -/
theorem Action.Simulates.trace {σ σ' τ α : Type} {related : σ → σ' → Prop}
    {act : τ → Action σ α} {act' : τ → Action σ' α}
    (simulates : ∀ item, Simulates related (act item) (act' item)) (items : List τ)
    {s : σ} {s' : σ'} (relation : related s s') :
    (trace act items s).1 = (trace act' items s').1 ∧
      related (trace act items s).2 (trace act' items s').2 := by
  induction items generalizing s s' with
  | nil => exact ⟨rfl, relation⟩
  | cons item items inductionHypothesis =>
      obtain ⟨same, next⟩ := simulates item s s' relation
      obtain ⟨others, last⟩ := inductionHypothesis next
      exact ⟨by simp only [Action.trace, same, others], last⟩

namespace Source

variable {ι ε : Type}

/-- A call of a source in a context. -/
inductive Call (ι ε : Type)
  | create (entity : ε)
  | update (entity : ε)
  | deleteById (id : ι)
  | deleteAll
  | findById (id : ι)
  | findAll

/-- What a call of a source succeeds with. -/
inductive Answer (ε : Type)
  | done
  | found (entity : Option ε)
  | listed (entities : List ε)
  deriving DecidableEq

/-- What can happen to a source: a call under the signals of its moment, an entity that is put in
without a call, or a failure that is set or taken away. -/
inductive Turn (ι ε : Type)
  | call (signals : Signals) (ctx : Context) (call : Call ι ε)
  | insert (entity : ε)
  | fail (failure : Option Error)

/-- What keeps a call from being made. -/
def obstacle (signals : Signals) (ctx : Context) (failure : Option Error) : Option Error :=
  match ctx.check signals with
  | .error e => some e
  | .ok () => failure

variable [DecidableEq ι] (schema : Schema ι ε)

/-- Makes a call. -/
def perform (signals : Signals) (ctx : Context) : Call ι ε → Action (Source ε) (Answer ε)
  | .create entity => (create schema signals ctx entity).map fun () => .done
  | .update entity => (update schema signals ctx entity).map fun () => .done
  | .deleteById id => (deleteById schema signals ctx id).map fun () => .done
  | .deleteAll => (deleteAll signals ctx).map fun () => .done
  | .findById id => (findById schema signals ctx id).map .found
  | .findAll => (findAll signals ctx).map .listed

/-- Takes a turn. -/
def take : Turn ι ε → Action (Source ε) (Answer ε)
  | .call signals ctx call => perform schema signals ctx call
  | .insert entity => fun source => (.ok .done, source.insert schema entity)
  | .fail failure => fun source => (.ok .done, { source with failure })

end Source

/-- What a source is to be: a map, and a failure that calls meet while it is set. -/
structure Catalogue (ι ε : Type) where
  map : OrderedMap ι ε
  failure : Option Error

namespace Catalogue

variable {ι ε : Type} [DecidableEq ι] (schema : Schema ι ε)

/-- A catalogue of the given entities. -/
def ofRows (rows : List ε) : Catalogue ι ε :=
  ⟨rows.foldl (fun map row => map.put (schema.idOf row) row) .empty, none⟩

/-- What the map answers to a call, and what becomes of it. -/
def answer : Source.Call ι ε → Action (OrderedMap ι ε) (Source.Answer ε)
  | .create entity => fun map =>
      let id := schema.idOf entity
      if (map.entry id).isSome then
        (.error (.source (schema.label ++ " already exists with id " ++ schema.idText id)), map)
      else (.ok .done, map.put id entity)
  | .update entity => fun map =>
      let id := schema.idOf entity
      if (map.entry id).isSome then (.ok .done, map.put id entity)
      else (.error (.notFound (schema.named id)), map)
  | .deleteById id => fun map =>
      if (map.entry id).isSome then (.ok .done, map.erase id)
      else (.error (.notFound (schema.named id)), map)
  | .deleteAll => fun _ => (.ok .done, .empty)
  | .findById id => fun map => (.ok (.found (map.entry id)), map)
  | .findAll => fun map => (.ok (.listed map.toList), map)

/-- Takes a turn. A call whose context has ended, or that meets a failure, comes to nothing. -/
def take : Source.Turn ι ε → Action (Catalogue ι ε) (Source.Answer ε)
  | .call signals ctx call => fun catalogue =>
      match Source.obstacle signals ctx catalogue.failure with
      | some e => (.error e, catalogue)
      | none =>
          Action.within map (fun map catalogue => { catalogue with map }) (answer schema call)
            catalogue
  | .insert entity => fun catalogue =>
      (.ok .done, { catalogue with map := catalogue.map.put (schema.idOf entity) entity })
  | .fail failure => fun catalogue => (.ok .done, { catalogue with failure })

end Catalogue

namespace Source

variable {ι ε : Type} [DecidableEq ι] {schema : Schema ι ε} {rows later : List ε} {entity : ε}
  {map : OrderedMap ι ε}

/-- Replacing a row changes the row of its identifier and no other. -/
theorem rowOf_replace (replaced : replace schema entity rows = some later) (id : ι) :
    rowOf schema id later =
      if id = schema.idOf entity then some entity else rowOf schema id rows := by
  split
  · rename_i same
    exact same ▸ rowOf_of_replace replaced
  · rename_i apart
    induction rows generalizing later with
    | nil => cases replaced
    | cons row rows inductionHypothesis =>
        rw [replace] at replaced
        split at replaced
        · rename_i same
          cases replaced
          simp [rowOf, same, Ne.symm apart]
        · obtain ⟨rest, found, rfl⟩ := Option.map_eq_some_iff.mp replaced
          have others := inductionHypothesis found
          unfold rowOf at others ⊢
          rw [List.find?_cons, List.find?_cons, others]

/-- A row is replaced if there is one of the identifier. -/
theorem isSome_replace :
    (replace schema entity rows).isSome = (rowOf schema (schema.idOf entity) rows).isSome := by
  induction rows with
  | nil => rfl
  | cons row rows inductionHypothesis =>
      unfold rowOf at inductionHypothesis ⊢
      rw [replace, List.find?_cons]
      split
      · rename_i same
        simp [same]
      · rename_i apart
        simpa [apart] using inductionHypothesis

theorem isSome_rowOf_iff {id : ι} :
    (rowOf schema id rows).isSome ↔ id ∈ rows.map schema.idOf := by
  simp [rowOf]

/-- Where the rows of an identifier are gone, it has no row, and all others have theirs. -/
theorem rowOf_filter (id other : ι) :
    rowOf schema other (rows.filter fun row => schema.idOf row ≠ id) =
      if other = id then none else rowOf schema other rows := by
  unfold rowOf
  rw [List.find?_filter]
  split
  · rename_i same
    simp [same]
  · rename_i apart
    congr 1
    funext row
    by_cases named : schema.idOf row = other <;> simp [named, apart]

/-- Rows stand for a map. -/
structure Represents (schema : Schema ι ε) (rows : List ε) (map : OrderedMap ι ε) : Prop where
  order : rows.map schema.idOf = map.order
  entry : ∀ id, rowOf schema id rows = map.entry id

namespace Represents

theorem empty : Represents schema [] .empty := ⟨rfl, fun _ => rfl⟩

variable (represents : Represents schema rows map)
include represents

theorem distinct : (rows.map schema.idOf).Nodup :=
  represents.order ▸ map.nodup

/-- The entries of the map are the rows, in their order. -/
theorem toList_eq : map.toList = rows := by
  have own row (member : row ∈ rows) : map.entry (schema.idOf row) = some row := by
    rw [← represents.entry, rowOf_eq_some_iff represents.distinct]
    exact ⟨member, rfl⟩
  rw [OrderedMap.toList, ← represents.order, List.filterMap_map]
  calc
    rows.filterMap (map.entry ∘ schema.idOf) = rows.filterMap some :=
      List.filterMap_congr own
    _ = rows := List.filterMap_some

/-- A row that is replaced is an entry that keeps its place. -/
theorem replace (replaced : Source.replace schema entity rows = some later) :
    Represents schema later (map.put (schema.idOf entity) entity) := by
  have present : (map.entry (schema.idOf entity)).isSome := by
    rw [← represents.entry, ← isSome_replace, replaced]
    rfl
  constructor
  · simp [OrderedMap.put, present, (of_replace replaced).1, represents.order]
  · intro id
    rw [rowOf_replace replaced, OrderedMap.entry_put, represents.entry]

/-- A row of a new identifier is an entry that goes last. -/
theorem append (absent : rowOf schema (schema.idOf entity) rows = none) :
    Represents schema (rows ++ [entity]) (map.put (schema.idOf entity) entity) := by
  have isNew : map.entry (schema.idOf entity) = none := represents.entry _ ▸ absent
  constructor
  · simp [OrderedMap.put, isNew, represents.order]
  · intro id
    have before := represents.entry id
    rw [rowOf, List.find?_append, ← rowOf, before, OrderedMap.entry_put]
    by_cases same : id = schema.idOf entity
    · simp [same, isNew]
    · simp [same, Ne.symm same]

theorem put : Represents schema
    ((Source.replace schema entity rows).getD (rows ++ [entity]))
    (map.put (schema.idOf entity) entity) := by
  cases replaced : Source.replace schema entity rows with
  | some later => exact represents.replace replaced
  | none =>
      refine represents.append ?_
      rw [← Option.isNone_iff_eq_none, ← Option.not_isSome, ← isSome_replace, replaced]
      rfl

theorem erase (id : ι) :
    Represents schema (rows.filter fun row => schema.idOf row ≠ id) (map.erase id) := by
  constructor
  · simp [OrderedMap.erase, ← represents.order, List.filter_map, Function.comp_def]
  · intro other
    rw [rowOf_filter, OrderedMap.entry_erase, represents.entry]

/-- Entities of different identifiers that come in one after the other are rows in their order. -/
theorem foldl_put {entities : List ε} (distinct : ((rows ++ entities).map schema.idOf).Nodup) :
    Represents schema (rows ++ entities)
      (entities.foldl (fun map row => map.put (schema.idOf row) row) map) := by
  induction entities generalizing rows map with
  | nil => simpa using represents
  | cons entity entities inductionHypothesis =>
      have absent : rowOf schema (schema.idOf entity) rows = none := by
        rw [rowOf_eq_none_iff]
        intro row member same
        rw [List.map_append, List.nodup_append] at distinct
        exact distinct.2.2 _ (List.mem_map_of_mem member) _ List.mem_cons_self same
      rw [List.append_cons] at distinct ⊢
      exact inductionHypothesis (represents.append absent) distinct

end Represents

theorem represents_ofRows (distinct : (rows.map schema.idOf).Nodup) :
    Represents schema rows (Catalogue.ofRows schema rows).map :=
  Represents.empty.foldl_put distinct

section Calls

variable {signals : Signals} {ctx : Context} {source : Source ε} {catalogue : Catalogue ι ε}

theorem obstacle_eq_none_iff {failure : Option Error} :
    obstacle signals ctx failure = none ↔ ctx.check signals = .ok () ∧ failure = none := by
  unfold obstacle
  cases ctx.check signals <;> simp

theorem precheck_of_obstacle {e : Error} (kept : obstacle signals ctx source.failure = some e) :
    precheck signals ctx source = (.error e, source) := by
  simp only [precheck, Action.bind_apply, Action.liftM_apply, Action.state]
  revert kept
  unfold obstacle
  cases ctx.check signals with
  | error e => simp
  | ok _ =>
      intro kept
      simp [kept]

/-- A call that is kept from being made fails for the reason of that, and is at most counted. -/
theorem perform_of_obstacle {e : Error} (kept : obstacle signals ctx source.failure = some e)
    (call : Call ι ε) :
    (perform schema signals ctx call source).1 = .error e ∧
      (perform schema signals ctx call source).2.rows = source.rows ∧
      (perform schema signals ctx call source).2.failure = source.failure := by
  cases call <;>
    simp [perform, create, update, deleteById, deleteAll, findById, findAll, Action.bind_apply,
      Action.modify, precheck_of_obstacle, kept, Except.map]

/-- A call that nothing keeps from being made answers what the map answers, and leaves rows that
stand for what becomes of it. -/
theorem perform_of_represents (free : obstacle signals ctx source.failure = none)
    (represents : Represents schema source.rows map) (call : Call ι ε) :
    (perform schema signals ctx call source).1 = (Catalogue.answer schema call map).1 ∧
      Represents schema (perform schema signals ctx call source).2.rows
        (Catalogue.answer schema call map).2 ∧
      (perform schema signals ctx call source).2.failure = source.failure := by
  obtain ⟨live, healthy⟩ := obstacle_eq_none_iff.mp free
  cases call with
  | create entity =>
      simp only [perform, Action.map_apply, create_apply live healthy, represents.entry,
        Catalogue.answer]
      split
      · exact ⟨rfl, represents, rfl⟩
      · rename_i absent
        rw [← represents.entry, Option.not_isSome_iff_eq_none] at absent
        exact ⟨rfl, represents.append absent, rfl⟩
  | update entity =>
      simp only [perform, Action.map_apply, update_apply live healthy, Catalogue.answer,
        ← represents.entry, ← isSome_replace]
      cases replaced : Source.replace schema entity source.rows with
      | none => exact ⟨rfl, represents, rfl⟩
      | some later => exact ⟨rfl, represents.replace replaced, rfl⟩
  | deleteById id =>
      simp only [perform, Action.map_apply, deleteById_apply live healthy, represents.entry,
        Catalogue.answer]
      split
      · exact ⟨rfl, represents.erase id, rfl⟩
      · exact ⟨rfl, represents, rfl⟩
  | deleteAll =>
      rw [perform, Action.map_apply, deleteAll_apply live healthy]
      exact ⟨rfl, .empty, rfl⟩
  | findById id =>
      rw [perform, Action.map_apply, findById_apply live healthy, represents.entry]
      exact ⟨rfl, represents, rfl⟩
  | findAll =>
      simp only [perform, Action.map_apply, findAll_apply live healthy, Catalogue.answer,
        represents.toList_eq]
      exact ⟨rfl, represents, trivial⟩

/-- The rows of a source stand for the map of a catalogue, and both fail alike. -/
structure Follows (schema : Schema ι ε) (source : Source ε) (catalogue : Catalogue ι ε) :
    Prop where
  represents : Represents schema source.rows catalogue.map
  failure : source.failure = catalogue.failure

/-- Whatever happens to both, the source goes on following the catalogue, and answers alike. -/
theorem simulates_take (turn : Turn ι ε) :
    Action.Simulates (Follows schema) (take schema turn) (Catalogue.take schema turn) := by
  intro source catalogue follows
  cases turn with
  | call signals ctx call =>
      simp only [take, Catalogue.take, ← follows.failure]
      cases kept : obstacle signals ctx source.failure with
      | some e =>
          obtain ⟨fails, sameRows, sameFailure⟩ :
              (perform schema signals ctx call source).1 = .error e ∧ _ :=
            perform_of_obstacle kept call
          exact ⟨fails, sameRows ▸ follows.represents, sameFailure.trans follows.failure⟩
      | none =>
          obtain ⟨same, next, sameFailure⟩ :=
            perform_of_represents kept follows.represents call
          exact ⟨same, next, sameFailure.trans follows.failure⟩
  | insert entity => exact ⟨rfl, follows.represents.put, follows.failure⟩
  | fail failure => exact ⟨rfl, follows.represents, rfl⟩

/-- A call that fails leaves the rows as they were. -/
theorem rows_of_perform_error {call : Call ι ε} {e : Error}
    (fails : (perform schema signals ctx call source).1 = .error e) :
    (perform schema signals ctx call source).2.rows = source.rows := by
  cases kept : obstacle signals ctx source.failure with
  | some _ => exact (perform_of_obstacle kept call).2.1
  | none =>
      obtain ⟨live, healthy⟩ := obstacle_eq_none_iff.mp kept
      revert fails
      cases call with
      | create entity =>
          rw [perform, Action.map_apply, create_apply live healthy]
          split <;> simp [Except.map]
      | update entity =>
          rw [perform, Action.map_apply, update_apply live healthy]
          split <;> simp [Except.map]
      | deleteById id =>
          rw [perform, Action.map_apply, deleteById_apply live healthy]
          split <;> simp [Except.map]
      | deleteAll => simp [perform, deleteAll_apply live healthy, Except.map]
      | findById id => simp [perform, findById_apply live healthy, Except.map]
      | findAll => simp [perform, findAll_apply live healthy, Except.map]

variable (free : obstacle signals ctx source.failure = none)
include free

/-- A creation that nothing keeps from being made fails exactly on an identifier that is there. -/
theorem create_fails_iff (entity : ε) :
    (∃ e, (create schema signals ctx entity source).1 = .error e) ↔
      schema.idOf entity ∈ source.rows.map schema.idOf := by
  obtain ⟨live, healthy⟩ := obstacle_eq_none_iff.mp free
  rw [create_apply live healthy, ← isSome_rowOf_iff]
  split <;> simp_all

/-- A replacement that nothing keeps from being made fails exactly on an identifier that is not
there. -/
theorem update_fails_iff (entity : ε) :
    (∃ e, (update schema signals ctx entity source).1 = .error e) ↔
      schema.idOf entity ∉ source.rows.map schema.idOf := by
  obtain ⟨live, healthy⟩ := obstacle_eq_none_iff.mp free
  rw [update_apply live healthy, ← isSome_rowOf_iff, ← isSome_replace]
  split <;> simp_all

/-- A removal that nothing keeps from being made fails exactly on an identifier that is not
there. -/
theorem deleteById_fails_iff (id : ι) :
    (∃ e, (deleteById schema signals ctx id source).1 = .error e) ↔
      id ∉ source.rows.map schema.idOf := by
  obtain ⟨live, healthy⟩ := obstacle_eq_none_iff.mp free
  rw [deleteById_apply live healthy, ← isSome_rowOf_iff]
  split <;> simp_all

end Calls

/-- **A source is a map in order of insertion.** From rows of different identifiers, whatever is
called and put in, with failures set and taken away and contexts that have ended: each turn ends as
it does for the map, the identifiers stay different, and the rows are the entries of the map in its
order. There, a call that fails leaves the rows as they are; one whose context is live, while no
failure is set, lists just the rows or finds the row of the identifier, and a creation fails exactly
on an identifier that is there, a replacement and a removal exactly on one that is not. -/
theorem rows_follow_ordered_map (distinct : (rows.map schema.idOf).Nodup)
    (run : List (Turn ι ε)) :
    let played := Action.trace (take schema) run (ofRows rows)
    let expected := Action.trace (Catalogue.take schema) run (Catalogue.ofRows schema rows)
    let source := played.2
    played.1 = expected.1 ∧ source.failure = expected.2.failure ∧
      (source.rows.map schema.idOf).Nodup ∧ source.rows = expected.2.map.toList ∧
      ∀ signals ctx,
        (∀ call e, (perform schema signals ctx call source).1 = .error e →
          (perform schema signals ctx call source).2.rows = source.rows) ∧
        (ctx.check signals = .ok () → source.failure = none →
          (findAll signals ctx source).1 = .ok source.rows ∧
          (∀ id, ∃ found, (findById schema signals ctx id source).1 = .ok found ∧
            ∀ entity, found = some entity ↔ entity ∈ source.rows ∧ schema.idOf entity = id) ∧
          (∀ entity, (∃ e, (create schema signals ctx entity source).1 = .error e) ↔
            schema.idOf entity ∈ source.rows.map schema.idOf) ∧
          (∀ entity, (∃ e, (update schema signals ctx entity source).1 = .error e) ↔
            schema.idOf entity ∉ source.rows.map schema.idOf) ∧
          ∀ id, (∃ e, (deleteById schema signals ctx id source).1 = .error e) ↔
            id ∉ source.rows.map schema.idOf) := by
  intro played expected source
  have start : Follows schema (ofRows rows) (Catalogue.ofRows schema rows) :=
    ⟨represents_ofRows distinct, rfl⟩
  obtain ⟨same, follows⟩ := Action.Simulates.trace simulates_take run start
  have still := follows.represents.distinct
  refine ⟨same, follows.failure, still, follows.represents.toList_eq.symm, fun signals ctx => ?_⟩
  constructor
  · intro call e fails
    exact rows_of_perform_error fails
  · intro live healthy
    have free : obstacle signals ctx source.failure = none :=
      obstacle_eq_none_iff.mpr ⟨live, healthy⟩
    refine ⟨by rw [findAll_apply live healthy], fun id => ?_, create_fails_iff free,
      update_fails_iff free, deleteById_fails_iff free⟩
    refine ⟨rowOf schema id source.rows, by rw [findById_apply live healthy], fun entity => ?_⟩
    exact rowOf_eq_some_iff still

/-- One of two entities is removed and created anew, the other one is replaced: the first is now
the last. -/
theorem rows_follow_ordered_map_created_anew :
    let schema := IdKind.natural.schema
    let rows : List (Entry UInt64) := [⟨1, "a"⟩, ⟨2, "b"⟩]
    let run := [.call .initial .root (.deleteById 1), .insert ⟨2, "c"⟩,
      .call .initial .root (.create ⟨1, "d"⟩), .fail (some .cancelled)]
    let source := (Action.trace (take schema) run (ofRows rows)).2
    (rows.map schema.idOf).Nodup ∧ source.rows = [⟨2, "c"⟩, ⟨1, "d"⟩] ∧
      source.rows =
        (Action.trace (Catalogue.take schema) run (Catalogue.ofRows schema rows)).2.map.toList := by
  intro schema rows run source
  have distinct : (rows.map schema.idOf).Nodup := by decide
  have follows := rows_follow_ordered_map distinct run
  exact ⟨distinct, by decide, follows.2.2.2.1⟩

end Source

end QueryCache
