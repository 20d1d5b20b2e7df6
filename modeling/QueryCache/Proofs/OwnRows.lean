import QueryCache.Proofs.Repair

/-!
# Records in rows of their own

An invalidation removes a hit by the query that is read inside of it, not by the row in which it was
found. The two are the same: whatever is written or staged in the row of a key is a record that is
read back as one of that key. This holds for all runs in which only records are stored that are read
back as they were; nothing is asked of records that cannot be stored.
-/

namespace QueryCache

open QueryCache.Action Wire

variable {ι ε : Type}

/-- The bytes put into a row are a hit of the row's query. -/
def Hits.Own (schema : Schema ι ε) (key : String) (change : Option Bytes) : Prop :=
  ∀ bytes, change = some bytes → ∃ hit, schema.decodeHit bytes = .ok hit ∧ hit.queryId = key

/-- The bytes put into a row are an entity of the row's key. -/
def Entities.Own (schema : Schema ι ε) (key : String) (change : Option Bytes) : Prop :=
  ∀ bytes, change = some bytes →
    ∃ entity, schema.decode bytes = .ok entity ∧ schema.entityKey (schema.idOf entity) = .ok key

/-- A hit that can be stored is read back as it was. -/
def Schema.ReadsBackHit (schema : Schema ι ε) (hit : Hit ι) : Prop :=
  ∀ bytes, schema.encodeHit hit = .ok bytes → schema.decodeHit bytes = .ok hit

theorem Schema.KeepsHit.readsBackHit {schema : Schema ι ε} {hit : Hit ι}
    (keeps : schema.KeepsHit hit) : schema.ReadsBackHit hit := by
  intro bytes encoded
  rw [Schema.KeepsHit, encoded] at keeps
  exact keeps

/-- What a request is to store is read back as it was. -/
structure Request.ReadsBack (schema : Schema ι ε) (request : Request ι ε) : Prop where
  entities : ∀ entity ∈ request.storedEntities, schema.ReadsBackEntity entity
  hits : ∀ hit ∈ request.storedHits, schema.ReadsBackHit hit

/-- What is to be stored at a turn is read back as it was. -/
def Turn.ReadsBack (schema : Schema ι ε) : Turn ι ε → Prop
  | .request _ _ made => made.ReadsBack schema
  | _ => True

variable {schema : Schema ι ε}

theorem Entities.allows_own {entity : ε} (readsBack : schema.ReadsBackEntity entity) :
    Entities.Allows schema (Entities.Own schema) entity := by
  rintro key bytes named encoded _ ⟨⟩
  exact ⟨entity, readsBack bytes encoded, named⟩

theorem Hits.allows_own {hit : Hit ι} (readsBack : schema.ReadsBackHit hit) :
    Hits.Allows schema (Hits.Own schema) hit := by
  rintro bytes encoded _ ⟨⟩
  exact ⟨hit, readsBack bytes encoded, rfl⟩

namespace Hits

/-- Rows that hold hits of their own are listed in their order, each with the hit of its query. -/
theorem exists_ofRows_of_own {rows : Rows} (obey : rows.Obey (Own schema)) :
    ∃ hits, ofRows schema rows = .ok hits ∧ hits.map Hit.queryId = rows.keys ∧
      ∀ hit ∈ hits, rows.Hold schema hit.queryId hit := by
  have ofList (list : List (String × Bytes))
      (own : ∀ row ∈ list, Own schema row.1 (some row.2)) :
      ∃ hits, list.mapM (fun row => schema.decodeHit row.2) = .ok hits ∧
        hits.map Hit.queryId = list.map Prod.fst ∧
        ∀ hit ∈ hits, ∃ row ∈ list, row.1 = hit.queryId ∧ schema.decodeHit row.2 = .ok hit := by
    induction list with
    | nil => exact ⟨[], rfl, rfl, nofun⟩
    | cons row list inductionHypothesis =>
        obtain ⟨first, decoded, named⟩ := own row List.mem_cons_self row.2 rfl
        obtain ⟨others, rest, keys, held⟩ := inductionHypothesis fun other member =>
          own other (List.mem_cons_of_mem _ member)
        refine ⟨first :: others, ?_, by rw [List.map_cons, List.map_cons, named, keys], ?_⟩
        · rw [List.mapM_cons, decoded, rest]
          rfl
        · intro hit member
          rcases List.mem_cons.mp member with rfl | member
          · exact ⟨row, List.mem_cons_self, named.symm, decoded⟩
          · obtain ⟨other, isIn, found⟩ := held hit member
            exact ⟨other, List.mem_cons_of_mem _ isIn, found⟩
  obtain ⟨hits, listed, keys, held⟩ := ofList rows.toList fun row member =>
    obey row.1 row.2 (Std.ExtTreeMap.mem_toList_iff_getElem?_eq_some.mp member)
  refine ⟨hits, listed, keys.trans Std.ExtTreeMap.map_fst_toList_eq_keys, fun hit member => ?_⟩
  obtain ⟨row, isIn, named, decoded⟩ := held hit member
  exact ⟨row.2, named ▸ Std.ExtTreeMap.mem_toList_iff_getElem?_eq_some.mp isIn, decoded⟩

end Hits

namespace Repository

variable {repository : Repository} {signals : Signals} {ctx : Context}
  {legalEntities legalHits : String → Option Bytes → Prop}

/-- All that is committed and staged in both tables is legal. -/
structure Obeys (legalEntities legalHits : String → Option Bytes → Prop)
    (repository : Repository) : Prop where
  entities : repository.entities.Obeys legalEntities
  hits : repository.hits.Obeys legalHits

namespace Obeys

theorem empty : Obeys legalEntities legalHits .empty where
  entities := ⟨fun key bytes stored => by simp [Repository.empty, Table.empty] at stored,
    fun stored => by simp [Repository.empty, Table.empty] at stored⟩
  hits := ⟨fun key bytes stored => by simp [Repository.empty, Table.empty] at stored,
    fun stored => by simp [Repository.empty, Table.empty] at stored⟩

variable (obeys : repository.Obeys legalEntities legalHits)
include obeys

/-- A request that stores what is legal leaves what is legal. -/
theorem perform (sound : repository.Sound schema) {request : Request ι ε}
    (allows : Allows schema legalEntities legalHits request) :
    ((stores schema signals).perform ctx request repository).2.Obeys legalEntities legalHits := by
  by_cases call : request.isCall
  · obtain ⟨entities, hits, -⟩ : Edited legalEntities legalHits ctx.tx repository _ :=
      edited_perform call allows repository
    exact ⟨obeys.entities.edits entities, obeys.hits.edits hits⟩
  · cases request with
    | begin =>
        change (Repository.begin signals ctx repository).2.Obeys legalEntities legalHits
        rcases sound.begin_cases signals ctx with ⟨e, ended⟩ | ⟨e, closed⟩ | ⟨-, begun⟩
        · rw [ended]
          exact obeys
        · rw [closed]
          exact ⟨obeys.entities, obeys.hits⟩
        · rw [begun]
          exact ⟨obeys.entities.opening ctx.tx, obeys.hits.opening ctx.tx⟩
    | commit =>
        change (Repository.commit ctx repository).2.Obeys legalEntities legalHits
        cases inside : ctx.tx with
        | none => rwa [commit_outside inside]
        | some tx =>
            rw [sound.commit_eq inside]
            exact ⟨obeys.entities.commit tx, obeys.hits.commit tx⟩
    | rollback =>
        change (Repository.rollback ctx repository).2.Obeys legalEntities legalHits
        cases inside : ctx.tx with
        | none => rwa [rollback_outside inside]
        | some tx =>
            rw [sound.rollback_eq inside]
            exact ⟨obeys.entities.closing tx, obeys.hits.closing tx⟩
    | _ => exact absurd rfl call

end Obeys

/-- In a repository, each record is in the row of its own key. -/
def Filed (schema : Schema ι ε) : Repository → Prop :=
  Obeys (Entities.Own schema) (Hits.Own schema)

/-- A turn at which only what is read back is stored keeps the records in their own rows. -/
theorem Filed.take (filed : repository.Filed schema) (sound : repository.Sound schema)
    {turn : Turn ι ε} (readsBack : turn.ReadsBack schema) :
    (Repository.take schema turn repository).2.Filed schema := by
  cases turn with
  | failEntities failure => exact ⟨⟨filed.entities.rows, filed.entities.overlays⟩, filed.hits⟩
  | failHits failure => exact ⟨filed.entities, ⟨filed.hits.rows, filed.hits.overlays⟩⟩
  | request signals ctx request =>
      refine Obeys.perform filed sound ⟨fun entity stored => ?_, fun hit stored => ?_, ?_, ?_⟩
      · exact Entities.allows_own (readsBack.entities entity stored)
      · exact Hits.allows_own (readsBack.hits hit stored)
      · exact fun _ => nofun
      · exact fun _ => nofun

theorem Filed.after (filed : repository.Filed schema) (sound : repository.Sound schema)
    {run : List (Turn ι ε)} (readsBack : ∀ turn ∈ run, turn.ReadsBack schema) :
    (after schema run repository).Filed schema := by
  induction run generalizing repository with
  | nil => exact filed
  | cons turn run inductionHypothesis =>
      obtain ⟨first, others⟩ := List.forall_mem_cons.mp readsBack
      exact inductionHypothesis (filed.take sound first) (sound.take turn) others

/-- **Records are in rows of their own.** After any run in which only what is read back is stored,
all that is committed and staged in the table of hits is a hit of the query in whose row it is, and
all that is committed and staged in the table of entities is an entity of the key in whose row it
is. So a list of all hits names each query that is seen once, and who removes a hit by the query it
names removes the row from which it was read. -/
theorem records_are_in_own_rows (schema : Schema ι ε) (run : List (Turn ι ε))
    (readsBack : ∀ turn ∈ run, turn.ReadsBack schema) :
    let repository := after schema run .empty
    repository.hits.Obeys (Hits.Own schema) ∧ repository.entities.Obeys (Entities.Own schema) ∧
      ∀ signals ctx rows, ctx.check signals = .ok () → repository.hits.failure = none →
        repository.hits.view ctx.tx = .ok rows →
        ∃ hits, ((stores schema signals).hits.findAll ctx repository).1 = .ok hits ∧
          (hits.map Hit.queryId).Nodup ∧
          (∀ queryId, queryId ∈ hits.map Hit.queryId ↔ rows[queryId]?.isSome) ∧
          ∀ hit ∈ hits,
            (∃ bytes, rows[hit.queryId]? = some bytes ∧ schema.decodeHit bytes = .ok hit) ∧
            let deleted := (stores schema signals).hits.deleteById ctx hit.queryId repository
            deleted.1 = .ok () ∧ deleted.2.hits.view ctx.tx = .ok (rows.erase hit.queryId) := by
  intro repository
  have sound : repository.Sound schema := Reachable.sound ⟨run, rfl⟩
  have start : Sound schema .empty := Sound.empty
  have filed : repository.Filed schema := Filed.after Obeys.empty start readsBack
  refine ⟨filed.hits, filed.entities, fun signals ctx rows live healthy seen => ?_⟩
  have shows : Table.Shows signals ctx rows repository.hits :=
    ⟨sound.ordered, healthy, live, seen⟩
  obtain ⟨hits, listed, keys, held⟩ :=
    Hits.exists_ofRows_of_own (filed.hits.view sound.ordered seen)
  refine ⟨hits, ?_, ?_, fun queryId => ?_, fun hit member => ⟨held hit member, ?_⟩⟩
  · exact (Hits.turns_findAllIn schema .ascending repository.hits shows).1.trans listed
  · exact keys ▸ Std.ExtTreeMap.nodup_keys
  · rw [keys, Std.ExtTreeMap.mem_keys, Std.ExtTreeMap.isSome_getElem?_iff_mem]
  · obtain ⟨bytes, present, -⟩ := held hit member
    obtain ⟨succeeds, later⟩ := Hits.turns_deleteById present repository.hits shows
    exact ⟨succeeds, later.view⟩

/-- In a transaction a copy and a hit are stored, and another hit in one within it, which is
committed. -/
def stagedRun : List (Turn UInt64 (Simulation.Entry UInt64)) :=
  let outer := Context.root.withTx 1
  let inner := Context.root.withTx 2
  [.request .initial .root .begin, .request .initial outer (.createEntity ⟨7, "x"⟩),
    .request .initial outer (.createHit ⟨"q", [7], ⟨0, 0⟩⟩), .request .initial outer .begin,
    .request .initial inner (.createHit ⟨"p", [], ⟨0, 0⟩⟩), .request .initial inner .commit]

/-- The outer transaction sees the hits of both queries, each once, and can remove them. -/
theorem records_are_in_own_rows_stagedRun :
    let schema := Simulation.IdKind.natural.schema
    let repository := after schema stagedRun .empty
    let outer := Context.root.withTx 1
    (∀ turn ∈ stagedRun, turn.ReadsBack schema) ∧ repository.hits.Obeys (Hits.Own schema) ∧
      ∃ hits, ((stores schema .initial).hits.findAll outer repository).1 = .ok hits ∧
        (hits.map Hit.queryId).Nodup ∧ "q" ∈ hits.map Hit.queryId ∧ "p" ∈ hits.map Hit.queryId ∧
        ∀ hit ∈ hits,
          ((stores schema .initial).hits.deleteById outer hit.queryId repository).1 = .ok () := by
  intro schema repository outer
  have copy : schema.ReadsBackEntity ⟨7, "x"⟩ :=
    Schema.Keeps.readsBackEntity (by decide +kernel : schema.Keeps _)
  have listing : schema.ReadsBackHit ⟨"q", [7], ⟨0, 0⟩⟩ :=
    Schema.KeepsHit.readsBackHit (by decide +kernel : schema.KeepsHit _)
  have nothing : schema.ReadsBackHit ⟨"p", [], ⟨0, 0⟩⟩ :=
    Schema.KeepsHit.readsBackHit (by decide +kernel : schema.KeepsHit _)
  have readsBack : ∀ turn ∈ stagedRun, turn.ReadsBack schema := by
    simp only [stagedRun, List.forall_mem_cons, Turn.ReadsBack]
    refine ⟨⟨nofun, nofun⟩, ⟨?_, nofun⟩, ⟨nofun, ?_⟩, ⟨nofun, nofun⟩, ⟨nofun, ?_⟩, ⟨nofun, nofun⟩,
      nofun⟩
    · simpa [Request.storedEntities] using copy
    · simpa [Request.storedHits] using listing
    · simpa [Request.storedHits] using nothing
  obtain ⟨inHits, -, consequences⟩ := records_are_in_own_rows schema stagedRun readsBack
  have shown : (repository.hits.view outer.tx).map (fun rows =>
      rows["q"]?.isSome && rows["p"]?.isSome) = .ok true := by
    decide +kernel
  cases seen : repository.hits.view outer.tx with
  | error e =>
      rw [seen] at shown
      cases shown
  | ok rows =>
      obtain ⟨hits, listed, once, named, removes⟩ :=
        consequences .initial outer rows rfl (by decide +kernel) seen
      rw [seen] at shown
      obtain ⟨q, p⟩ := Bool.and_eq_true_iff.mp (Except.ok.inj shown)
      exact ⟨readsBack, inHits, hits, listed, once, (named "q").mpr q, (named "p").mpr p,
        fun hit member => (removes hit member).2.1⟩

end Repository

end QueryCache
