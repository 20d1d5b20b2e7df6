import QueryCache.Proofs.FailOpen
import QueryCache.Proofs.Repair

/-!
# What a failed read leaves

A read outside of transactions that fails has recorded no hit. What it can have committed before it
failed are two things: the removal of the broken hit of its query, with what goes with it, and the
copies of what the source answered. Where it came to neither, everything that is committed is as it
was, at whichever call the read was stopped.
-/

namespace QueryCache

open QueryCache.Action

variable {σ ι ε : Type}

/-- The copy of a listed entity was found to be missing. -/
def Note.misses : Note ι ε → Bool
  | .call (.findEntities _) (some (.notFound _)) => true
  | _ => false

/-- Copies were stored. -/
def Note.upserts : Note ι ε → Bool
  | .call (.upsertEntities _) none => true
  | _ => false

/-- The hit of a query was removed, with what goes with it. -/
structure Mended (schema : Schema ι ε) (key : String) (earlier later : View) : Prop where
  trims : Trims schema earlier later
  held : ∃ hit, earlier.hits.Hold schema key hit
  removed : later.hits[key]? = none

/-- A failed read removed the hit of its query, because copies were missing, and then asked the
source. -/
structure Retried (schema : Schema ι ε) (may : String → Prop) (notes : List (Note ι ε))
    (earlier later : View) : Prop where
  mended : ∃ key, may key ∧ Mended schema key earlier later
  missed : ∃ note ∈ notes, note.misses
  asked : ∃ note ∈ notes, note.Asks

/-- A failed read stored the copies of what the source answered. -/
def Deposited (schema : Schema ι ε) (notes : List (Note ι ε)) (earlier later : View) : Prop :=
  ∃ answer, .source (.ok answer) ∈ notes ∧ .call (.upsertEntities answer) none ∈ notes ∧
    Upserted schema answer earlier later

/-- What a failed read leaves of a view, given the texts of its query and what was noted: it may
have removed the broken hit of its query, and it may then have stored copies. -/
def Remains (schema : Schema ι ε) (may : String → Prop) (earlier : View) (notes : List (Note ι ε))
    (later : View) : Prop :=
  ∃ middle, (middle = earlier ∨ Retried schema may notes earlier middle) ∧
    (later = middle ∨ Deposited schema notes middle later)

section Remains

variable {schema : Schema ι ε} {may : String → Prop} {notes more : List (Note ι ε)}
  {earlier later : View}

theorem remains_untouched (notes : List (Note ι ε)) : Remains schema may earlier notes earlier :=
  ⟨earlier, .inl rfl, .inl rfl⟩

/-- What is noted later does not matter. -/
theorem Remains.mono (remains : Remains schema may earlier notes later) (initial : notes <+: more) :
    Remains schema may earlier more later := by
  have sub := initial.subset
  obtain ⟨middle, retried, deposited⟩ := remains
  refine ⟨middle, retried.imp_right ?_, deposited.imp_right ?_⟩
  · rintro ⟨mended, ⟨missing, noted, misses⟩, asking, alsoNoted, asks⟩
    exact ⟨mended, ⟨missing, sub noted, misses⟩, asking, sub alsoNoted, asks⟩
  · rintro ⟨answer, answered, stored, upserted⟩
    exact ⟨answer, sub answered, sub stored, upserted⟩

/-- Whatever it leaves, a failed read has recorded no hit. -/
theorem Remains.sub (remains : Remains schema may earlier notes later) :
    later.hits.Sub earlier.hits := by
  obtain ⟨middle, retried, deposited⟩ := remains
  have same : later.hits = middle.hits := by
    rcases deposited with rfl | ⟨_, -, -, upserted⟩
    · rfl
    · exact upserted.hits
  rw [same]
  rcases retried with rfl | ⟨⟨_, -, mended⟩, -, -⟩
  · exact .refl _
  · exact mended.trims.sub.hits

/-- A failed read leaves everything as it was where it did not ask the source, and where it found no
copy to be missing and stored none. -/
theorem Remains.eq (remains : Remains schema may earlier notes later)
    (clear : (∀ note ∈ notes, ¬ note.Asks) ∨ ∀ note ∈ notes, ¬ note.misses ∧ ¬ note.upserts) :
    later = earlier := by
  obtain ⟨middle, retried, deposited⟩ := remains
  have notRetried : ¬ Retried schema may notes earlier middle := by
    rintro ⟨-, ⟨missing, noted, misses⟩, asking, alsoNoted, asks⟩
    rcases clear with unasked | clear
    · exact unasked asking alsoNoted asks
    · exact (clear missing noted).1 misses
  have notDeposited : ¬ Deposited schema notes middle later := by
    rintro ⟨answer, answered, stored, -⟩
    rcases clear with unasked | clear
    · exact unasked _ answered trivial
    · exact (clear _ stored).2 rfl
  exact (deposited.resolve_right notDeposited).trans (retried.resolve_right notRetried)

end Remains

/-- Outside of transactions, only the check at its beginning keeps an upsert for its context from
being made. -/
theorem Entities.upsert_of_context {schema : Schema ι ε}
    (encodes : ∀ entity, Tolerable (schema.encode entity)) {ctx : Context} (outside : ctx.tx = none)
    {signals : Signals} {entities : List ε} {table : Table} {e : Error}
    (failed : (upsert schema signals ctx entities table).1 = .error e)
    (context : e.isContext = true) : (upsert schema signals ctx entities table).2 = table := by
  have stores (entity : ε) (table : Table) : Tolerable (store schema ctx entity table).1 := by
    refine .bind (schema.tolerable_entityKey _) fun key => .bind (encodes entity) fun bytes => ?_
    rw [outside]
    exact tolerable_ok ()
  rw [upsert, bind_apply] at failed ⊢
  have same : (precheck signals ctx table).2 = table := rfl
  generalize precheck signals ctx table = checked at same failed ⊢
  obtain ⟨_ | _, checked⟩ := checked
  · exact same
  · cases context.symm.trans (tolerable_each stores entities checked e failed)

/-- A later state of a watched backend, with the same repository. -/
structure Later (part : σ → Repository) (t u : Noted σ ι ε) : Prop where
  notes : t.notes <+: u.notes
  same : part u.state = part t.state

instance {part : σ → Repository} : IsPreorder (Noted σ ι ε) (Later part) where
  refl _ := ⟨List.prefix_rfl, rfl⟩
  trans _ _ _ first second := ⟨first.notes.trans second.notes, second.same.trans first.same⟩

theorem later_noted {α : Type} {part : σ → Repository} {action : Action σ α} {t : Noted σ ι ε}
    (same : part (action t.state).2 = part t.state) (note : Except Error α → List (Note ι ε)) :
    Later part t (action.noted note t).2 :=
  ⟨List.prefix_append _ _, same⟩

/-- A query asks the source once, and leaves the repository alone. -/
def Consults (part : σ → Repository) (query : Action (Noted σ ι ε) (List ε)) : Prop :=
  ∀ t, (query t).2.notes = t.notes ++ [.source (query t).1] ∧
    part (query t).2.state = part t.state

theorem Consults.later {part : σ → Repository} {query : Action (Noted σ ι ε) (List ε)}
    (consults : Consults part query) (t : Noted σ ι ε) : Later part t (query t).2 := by
  obtain ⟨noted, same⟩ := consults t
  exact ⟨noted ▸ List.prefix_append _ _, same⟩

/-- What is committed in a state with notes is what a failed read leaves of a view. -/
def Remaining (schema : Schema ι ε) (part : σ → Repository) (may : String → Prop) (earlier : View)
    (t : Noted σ ι ε) : Prop :=
  Remains schema may earlier t.notes (part t.state).committed

section Remaining

variable {schema : Schema ι ε} {part : σ → Repository} {may : String → Prop} {earlier : View}

theorem remaining_persists (t u : Noted σ ι ε) (later : Later part t u)
    (remaining : Remaining schema part may earlier t) : Remaining schema part may earlier u := by
  unfold Remaining at *
  rw [later.same]
  exact remaining.mono later.notes

theorem remaining_of_eq {t : Noted σ ι ε} (same : (part t.state).committed = earlier) :
    Remaining schema part may earlier t := by
  rw [Remaining, same]
  exact remains_untouched _

end Remaining

/-- Where an action fails, it leaves a state as stated. -/
def Leaves {τ α : Type} (post : τ → Prop) (action : Action τ α) (t : τ) : Prop :=
  ∀ e, (action t).1 = .error e → post (action t).2

section Rules

variable {τ α β : Type} {post : τ → Prop} {t : τ}

theorem leaves_pure (value : α) : Leaves post (Pure.pure value) t :=
  nofun

theorem Leaves.bind {first : Action τ α} {second : α → Action τ β} (atFirst : Leaves post first t)
    (atSecond : ∀ value, (first t).1 = .ok value → Leaves post (second value) (first t).2) :
    Leaves post (first >>= second) t := by
  intro e failed
  unfold Leaves at atFirst
  rw [bind_apply] at failed ⊢
  generalize first t = ended at atFirst atSecond failed ⊢
  obtain ⟨e | value, middle⟩ := ended
  · exact atFirst e rfl
  · exact atSecond value rfl _ failed

theorem Leaves.attempt_bind {first : Action τ α} {second : Except Error α → Action τ β}
    (atSecond : Leaves post (second (first t).1) (first t).2) :
    Leaves post (first.attempt >>= second) t :=
  atSecond

end Rules

namespace Backend.Hindered

open Repository

variable {backend : Backend σ ι ε} {part : σ → Repository} (hindered : backend.Hindered part)
  {ctx : Context} {e : Error}
include hindered

/-- Copies that were not stored because of the context left everything as it was. -/
theorem upsert_of_context {s : σ} (encodes : ∀ entity, Tolerable (backend.schema.encode entity))
    (outside : ctx.tx = none) {entities : List ε}
    (failed : (backend.entities.upsert ctx entities s).1 = .error e)
    (context : e.isContext = true) :
    part (backend.entities.upsert ctx entities s).2 = part s := by
  rcases hindered.request ctx (.upsertEntities entities) s with
    ⟨-, same⟩ | ⟨_, signals, outcome, same⟩
  · exact same
  · have refused : (Entities.upsert backend.schema signals ctx entities (part s).entities).1 =
        .error e :=
      map_eq_error_iff.mp (outcome.symm.trans (map_eq_error_iff.mpr failed))
    have unchanged := Entities.upsert_of_context encodes outside refused context
    exact same.trans (congrArg (fun entities => { part s with entities }) unchanged)

section Watched

variable {t : Noted σ ι ε} {post : Noted σ ι ε → Prop}
  (persists : ∀ t u, Later part t u → post t → post u)

theorem later_tolerate (label : String) (e : Error) :
    Later part t (backend.watched.tolerate label e t).2 := by
  unfold Backend.tolerate
  split
  · exact refl t
  · exact later_noted (hindered.record _ _) silent

include persists

theorem leaves_bypass {α : Type} (holds : post t) {query : Action (Noted σ ι ε) α}
    (consults : ∀ t, Later part t (query t).2) (label : String) :
    Leaves post (backend.watched.bypass label e query) t := by
  have tolerated := persists _ _ (hindered.later_tolerate label e) holds
  exact .bind (fun _ _ => tolerated) fun _ _ _ _ => persists _ _ (consults _) tolerated

section Queries

variable (steady : backend.Steady) (apart : backend.Apart part)
  (encodes : ∀ entity, Tolerable (backend.schema.encode entity)) (outside : ctx.tx = none)
include steady apart encodes outside

/-- An answer that could not be remembered is at most copied. -/
theorem leaves_remember (sound : (part t.state).Sound backend.schema) (holds : post t)
    {entities : List ε}
    (copied : ∀ u, t.notes <+: u.notes → .call (.upsertEntities entities) none ∈ u.notes →
      Upserted backend.schema entities (part t.state).committed (part u.state).committed → post u)
    (key : String) : Leaves post (backend.watched.remember ctx key entities) t := by
  have tolerates {u : Noted σ ι ε} (holds : post u) (e : Error) :
      Leaves post (backend.watched.tolerate key e) u :=
    fun _ _ => persists _ _ (hindered.later_tolerate key e) holds
  have noted : (backend.watched.entities.upsert ctx entities t).2.notes =
      t.notes ++ [.call (.upsertEntities entities)
        (failure (backend.entities.upsert ctx entities t.state).1)] := rfl
  apply Leaves.attempt_bind
  cases ended : (backend.watched.entities.upsert ctx entities t).1 with
  | error e =>
      cases context : e.isContext with
      | true =>
          have same := hindered.upsert_of_context encodes outside ended context
          exact tolerates (persists t _ ⟨noted ▸ List.prefix_append _ _, same⟩ holds) e
      | false =>
          intro e' failed
          simp only [Backend.tolerate, context] at failed
          cases (steady.record _ _).symm.trans failed
  | ok _ =>
      have succeeds : (backend.entities.upsert ctx entities t.state).1 = .ok () := ended
      obtain ⟨-, upserted⟩ := (hindered.attains_upsert entities).outside outside sound succeeds
      rw [succeeds] at noted
      have stored : post (backend.watched.entities.upsert ctx entities t).2 :=
        copied _ (noted ▸ List.prefix_append _ _) (by simp [noted, failure]) upserted
      generalize (backend.watched.entities.upsert ctx entities t).2 = middle at stored
      have dated := persists _ _ (later_noted (apart.now middle.state) silent) stored
      refine .bind (fun _ _ => dated) fun timestamp _ => .attempt_bind ?_
      split
      · rename_i e refused
        have failed : (backend.stores.perform ctx (.createHit _)
            (backend.watched.now middle).2.state).1 = .error e :=
          map_eq_error_iff.mpr refused
        have same := hindered.perform_of_error (fun _ _ => failsClean_perform rfl rfl) failed
        exact tolerates (persists _ _ ⟨List.prefix_append _ _, same⟩ dated) e
      · exact leaves_pure ()

/-- What a query leaves that asks the source and fails. -/
theorem leaves_ask (sound : (part t.state).Sound backend.schema)
    {query : Action (Noted σ ι ε) (List ε)} (consults : Consults part query)
    (asked : ∀ u, Later part t u → (∃ note ∈ u.notes, note.Asks) → post u)
    (copied : ∀ answer u, t.notes <+: u.notes → .source (.ok answer) ∈ u.notes →
      .call (.upsertEntities answer) none ∈ u.notes →
      Upserted backend.schema answer (part t.state).committed (part u.state).committed → post u)
    (key : String) : Leaves post (backend.watched.ask ctx key query) t := by
  obtain ⟨noted, -⟩ := consults t
  have answers : .source (query t).1 ∈ (query t).2.notes := by simp [noted]
  have later := consults.later t
  have holds : post (query t).2 := asked _ later ⟨_, answers, trivial⟩
  refine .bind (fun _ _ => holds) fun answer answered => ?_
  rw [answered] at answers
  have recorded : Later part (query t).2 (backend.watched.record (.miss key) (query t).2).2 :=
    later_noted (hindered.record _ _) silent
  have holds := persists _ _ recorded holds
  refine .bind (fun _ _ => holds) fun _ _ => .bind ?_ fun _ _ => leaves_pure _
  have later : Later part t _ := IsTrans.trans _ _ _ later recorded
  refine hindered.leaves_remember persists steady apart encodes outside (later.same ▸ sound) holds
    (fun u onward stored upserted => ?_) key
  refine copied answer u (later.notes.trans onward) ?_ stored (later.same ▸ upserted)
  exact onward.subset (recorded.notes.subset answers)

end Queries

end Watched

section Failures

variable (steady : backend.Steady) (apart : backend.Apart part)
  (encodes : ∀ entity, Tolerable (backend.schema.encode entity)) (outside : ctx.tx = none)
  (distinct : backend.schema.Distinct) {may : String → Prop} {key : String} (own : may key)
  {query : Action (Noted σ ι ε) (List ε)} (consults : Consults part query) {t : Noted σ ι ε}
  (sound : (part t.state).Sound backend.schema)
include steady apart encodes outside consults sound

/-- A query that asks the source right away and fails has at most stored copies. -/
theorem remaining_ask (key : String) :
    Leaves (Remaining backend.schema part may (part t.state).committed)
      (backend.watched.ask ctx key query) t := by
  refine hindered.leaves_ask remaining_persists steady apart encodes outside sound consults ?_ ?_
    key
  · exact fun u later _ => remaining_of_eq (congrArg Repository.committed later.same)
  · exact fun answer u _ answered stored upserted =>
      ⟨_, .inl rfl, .inr ⟨answer, answered, stored, upserted⟩⟩

variable [DecidableEq ι]
include distinct own

/-- What a query leaves that fails after a copy was found to be missing. -/
theorem remaining_retry {hit : Hit ι}
    (held : (part t.state).committed.hits.Hold backend.schema key hit)
    (missed : ∃ note ∈ t.notes, note.misses) :
    Leaves (Remaining backend.schema part may (part t.state).committed)
      (do
        match ← Action.attempt (backend.watched.invalidateQuery ctx key) with
        | .ok () => backend.watched.ask ctx key query
        | .error e => backend.watched.bypass key e query) t := by
  have bears : backend.invalidateQuery ctx key t.state =
      ((backend.watched.invalidateQuery ctx key t).1,
        (backend.watched.invalidateQuery ctx key t).2.state) := by
    obtain ⟨sameOutcome, sameState⟩ := backend.alike_watched.invalidateQuery key t t.state rfl
    exact Prod.ext sameOutcome.symm sameState.symm
  obtain ⟨_, extended, -⟩ := heeds_invalidateQuery steady key t
  apply Leaves.attempt_bind
  generalize backend.watched.invalidateQuery ctx key t = removed at bears extended ⊢
  obtain ⟨removed, u⟩ := removed
  have missed {v : Noted σ ι ε} (onward : u.notes <+: v.notes) :
      ∃ note ∈ v.notes, note.misses := by
    obtain ⟨missing, noted, misses⟩ := missed
    exact ⟨missing, onward.subset (extended ▸ List.mem_append_left _ noted), misses⟩
  cases removed with
  | ok _ =>
      obtain ⟨soundLater, trims, gone⟩ :=
        (hindered.attains_invalidateQuery distinct key).outside outside sound
          (congrArg Prod.fst bears)
      rw [bears] at soundLater trims gone
      have mended : Mended backend.schema key _ _ := ⟨trims, ⟨hit, held⟩, gone⟩
      refine hindered.leaves_ask remaining_persists steady apart encodes outside soundLater consults
        (fun v later asked => ?_) (fun answer v onward answered stored upserted => ?_) key
      · exact ⟨_, .inr ⟨⟨key, own, mended⟩, missed later.notes, asked⟩,
          .inl (congrArg Repository.committed later.same)⟩
      · exact ⟨_, .inr ⟨⟨key, own, mended⟩, missed onward, _, answered, trivial⟩,
          .inr ⟨answer, answered, stored, upserted⟩⟩
  | error e =>
      obtain ⟨-, untouched⟩ := hindered.settled_remove False.elim ctx (.query key) sound
      have unchanged := (untouched e (congrArg Prod.fst bears)).committed_eq
      change (part (backend.invalidateQuery ctx key t.state).2).committed = _ at unchanged
      rw [bears] at unchanged
      exact hindered.leaves_bypass remaining_persists (remaining_of_eq unchanged) consults.later key

/-- What a query leaves that fails after its hit was found. -/
theorem remaining_replay {hit : Hit ι}
    (held : (part t.state).committed.hits.Hold backend.schema key hit) :
    Leaves (Remaining backend.schema part may (part t.state).committed)
      (backend.watched.replay ctx key hit query) t := by
  apply Leaves.attempt_bind
  have searched : Later part t (backend.watched.entities.findByIds ctx hit.entityIds t).2 :=
    ⟨List.prefix_append _ _, hindered.perform_of_reads (.findEntities hit.entityIds) rfl⟩
  have noted : .call (.findEntities hit.entityIds)
      (failure (backend.watched.entities.findByIds ctx hit.entityIds t).1) ∈
        (backend.watched.entities.findByIds ctx hit.entityIds t).2.notes :=
    List.mem_append_right _ (List.mem_singleton_self _)
  rw [← searched.same] at sound held ⊢
  split
  · refine .bind (fun _ _ => remaining_of_eq ?_) fun _ _ => leaves_pure _
    exact congrArg Repository.committed (hindered.record (.hit key) _)
  · rename_i text missing
    rw [missing] at noted
    exact hindered.remaining_retry steady apart encodes outside distinct own consults sound held
      ⟨_, noted, rfl⟩
  · exact hindered.leaves_bypass remaining_persists (remaining_of_eq rfl) consults.later key

/-- What a query leaves that fails. -/
theorem remaining_queryMany :
    Leaves (Remaining backend.schema part may (part t.state).committed)
      (backend.watched.queryMany ctx key query) t := by
  have checked : Later part t (backend.watched.check ctx t).2 :=
    later_noted (hindered.check ctx t.state) _
  rw [← checked.same] at sound ⊢
  refine .bind (fun _ _ => remaining_of_eq rfl) fun _ _ => .attempt_bind ?_
  generalize (backend.watched.check ctx t).2 = u at sound ⊢
  have searched : Later part u (backend.watched.hits.findById ctx key u).2 :=
    ⟨List.prefix_append _ _, hindered.perform_of_reads (.findHit key) rfl⟩
  split
  · rename_i hit found
    obtain ⟨view, shown, isTold⟩ := hindered.told_of_findHit sound found
    rw [outside, seen_outside, Except.ok.injEq] at shown
    subst shown
    have held := exists_of_told_eq_some isTold
    rw [← searched.same] at sound held ⊢
    exact hindered.remaining_replay steady apart encodes outside distinct own consults sound held
  · rw [← searched.same] at sound ⊢
    exact hindered.remaining_ask steady apart encodes outside consults sound key
  · rw [← searched.same]
    exact hindered.leaves_bypass remaining_persists (remaining_of_eq rfl) consults.later key

end Failures

end Backend.Hindered

theorem consults_asking {part : σ → Repository} {query : Action σ (List ε)}
    (idle : ∀ s, part (query s).2 = part s) :
    Consults part (query.noted (asking : _ → List (Note ι ε))) :=
  fun t => ⟨rfl, idle t.state⟩

theorem consults_askingOne {part : σ → Repository} {query : Action σ (Option ε)}
    (idle : ∀ s, part (query s).2 = part s) :
    Consults part (do return (← query.noted (askingOne : _ → List (Note ι ε))).toList) := by
  intro t
  obtain ⟨_, noted, rfl, -⟩ := asking_askingOne query t
  exact ⟨noted, (congrArg (fun u => part u.state) (bind_pure_snd _ _ t)).trans (idle t.state)⟩

/-- The call of a cache that reads. -/
def Read.call : Read σ ι ε → CacheCall σ ι ε
  | .entity id => .findById id
  | .all => .findAll
  | .many key query => .queryMany key query
  | .one key query => .queryOne key query

section Reads

variable [DecidableEq ι] {backend : Backend σ ι ε} {part : σ → Repository}
  (hindered : backend.Hindered part) (steady : backend.Steady) (apart : backend.Apart part)
  (encodes : ∀ entity, Tolerable (backend.schema.encode entity))
  (distinct : backend.schema.Distinct) {ctx : Context} (outside : ctx.tx = none)
  {t : Noted σ ι ε} (sound : (part t.state).Sound backend.schema)
include hindered steady apart encodes distinct outside sound

/-- What a read leaves that fails. -/
theorem Read.remaining_run (read : Read σ ι ε) (idle : read.call.Idle part) :
    Leaves (Remaining backend.schema part (read.call.May backend.schema)
      (part t.state).committed) (read.watched.run backend.watched ctx) t := by
  have checked : Later part t (backend.watched.check ctx t).2 :=
    later_noted (hindered.check ctx t.state) _
  have untouched {u : Noted σ ι ε} (later : Later part t u) :
      Remaining backend.schema part (read.call.May backend.schema)
        (part t.state).committed u :=
    remaining_of_eq (congrArg Repository.committed later.same)
  cases read with
  | entity id =>
      have consults := consults_askingOne (ι := ι) (apart.findById ctx id)
      refine .bind ?_ fun _ _ => leaves_pure _
      refine .bind (fun _ _ => untouched checked) fun _ _ => .attempt_bind ?_
      generalize (backend.watched.check ctx t).2 = u at checked ⊢
      have searched : Later part u (backend.watched.entities.findById ctx id u).2 :=
        ⟨List.prefix_append _ _, hindered.perform_of_reads (.findEntity id) rfl⟩
      have searched : Later part t _ := IsTrans.trans _ _ _ checked searched
      rw [← searched.same] at sound
      split
      · exact leaves_pure _
      · refine .bind (fun _ _ => untouched searched) fun key named => ?_
        refine .bind ?_ fun _ _ => leaves_pure _
        rw [← searched.same]
        exact hindered.remaining_queryMany steady apart encodes outside distinct named consults
          sound
      · refine hindered.leaves_bypass remaining_persists (untouched searched) (fun u => ?_) _
        exact later_noted (apart.findById ctx id u.state) _
  | all =>
      refine .bind (fun _ _ => untouched checked) fun _ _ => ?_
      rw [backend.watched_findAll]
      cases offered : backend.source.findAll with
      | none => exact fun _ _ => untouched checked
      | some findAll =>
          have own : (Read.all : Read σ ι ε).call.May backend.schema QueryKey.findAll.encode := rfl
          rw [← checked.same]
          exact hindered.remaining_queryMany steady apart encodes outside distinct own
            (consults_asking (apart.findAll findAll offered ctx)) (checked.same ▸ sound)
  | many key query =>
      have own : (Read.many key query).call.May backend.schema key := rfl
      exact hindered.remaining_queryMany steady apart encodes outside distinct own
        (consults_asking idle) sound
  | one key query =>
      have own : (Read.one key query).call.May backend.schema key := rfl
      refine .bind (.bind ?_ fun _ _ => leaves_pure _) fun _ _ => leaves_pure _
      exact hindered.remaining_queryMany steady apart encodes outside distinct own
        (consults_askingOne idle) sound

end Reads

/-- Wherever it was stopped, a read outside of transactions that failed has recorded no hit. All
that it can have committed is that the broken hit of its query was removed, and that what the source
answered was copied. Where it did not ask the source, and where it found no copy to be missing and
stored none, everything that is committed is as it was. -/
theorem failed_read_commits_no_hit {σ ι ε : Type} [DecidableEq ι] (backend : Backend σ ι ε)
    (part : σ → Repository) (hindered : backend.Hindered part) (steady : backend.Steady)
    (apart : backend.Apart part) (distinct : backend.schema.Distinct)
    (encodes : ∀ entity, Tolerable (backend.schema.encode entity)) (ctx : Context)
    (outside : ctx.tx = none) (read : Read σ ι ε) (idle : read.call.Idle part) (s : σ)
    (reachable : (part s).Reachable backend.schema) (e : Error)
    (failed : (read.run backend ctx s).1 = .error e) :
    let notes := (read.watch backend ctx s).2.notes
    let before := (part s).committed
    let after := (part (read.run backend ctx s).2).committed
    after.hits.Sub before.hits ∧
      Remains backend.schema (read.call.May backend.schema) before notes after ∧
      ((∀ note ∈ notes, ¬ note.Asks) ∨ (∀ note ∈ notes, ¬ note.misses ∧ ¬ note.upserts) →
        after = before) := by
  intro notes before after
  obtain ⟨same, left⟩ := read.simulates_watched backend ctx ⟨s, []⟩ s rfl
  have remains : Remains backend.schema (read.call.May backend.schema) before notes
      (part (read.watch backend ctx s).2.state).committed :=
    read.remaining_run hindered steady apart encodes distinct outside reachable.sound idle e
      (same.trans failed)
  have last : (read.watch backend ctx s).2.state = (read.run backend ctx s).2 := left
  rw [last] at remains
  exact ⟨remains.sub, remains, remains.eq⟩

namespace Simulation

/-- A gate at which a context is cancelled around the storing of copies. -/
def cancelledUpserts (decision : Decision Bool) : Gate Unit Bool where
  decide call _ := (if call.method = .entitiesUpsert then decision else .pass, ())
  revivals _ := 0

theorem cancelledUpserts_hinders {decision : Decision Bool} (hinders : decision.Hinders) :
    (cancelledUpserts decision).Hinders := by
  intro call state
  change Decision.Hinders (if call.method = .entitiesUpsert then _ else _)
  split
  · exact hinders
  · trivial

/-- A cache of switches behind the gate. -/
def cancelledSetting (decision : Decision Bool) : Setting Unit Bool (Entry Bool) :=
  ⟨IdKind.switch.schema, cancelledUpserts decision, .plain, false⟩

/-- A query for all switches that are on. -/
def readOn : Read (World Unit (Entry Bool)) Bool (Entry Bool) :=
  .many "on" fun world => (.ok [⟨true, "on"⟩], world)

/-- A world with one switch, of which nothing is cached. -/
def uncachedWorld : World Unit (Entry Bool) :=
  World.initial () [⟨true, "on"⟩] 0

/-- The query is cancelled before its answer is copied, and nothing is committed. -/
theorem failed_read_commits_no_hit_uncachedWorld :
    let done := readOn.run (cancelledSetting .cancelBefore).backend .root uncachedWorld
    done.1 = .error .cancelled ∧
      done.2.repository.committed = uncachedWorld.repository.committed := by
  intro done
  have cancelled : done.1 = .error .cancelled := by decide +kernel
  obtain ⟨-, -, untouched⟩ := failed_read_commits_no_hit (cancelledSetting .cancelBefore).backend
    World.repository ((cancelledSetting .cancelBefore).hindered (cancelledUpserts_hinders trivial))
    (Setting.steady _) (Setting.apart _) names_switch.distinct (tolerable_encode IdKind.switch)
    .root rfl readOn (fun _ => rfl) uncachedWorld ⟨[], rfl⟩ .cancelled cancelled
  exact ⟨cancelled, untouched (.inr (by decide +kernel))⟩

/-- The query is cancelled after its answer was copied, and the copy stays. -/
theorem cancelled_read_commits_copy_uncachedWorld :
    let done := readOn.run (cancelledSetting .cancelAfter).backend .root uncachedWorld
    done.1 = .error .cancelled ∧
      Entities.contains IdKind.switch.schema uncachedWorld.repository.entities true = false ∧
      Entities.contains IdKind.switch.schema done.2.repository.entities true = true := by
  decide +kernel

end Simulation

end QueryCache
