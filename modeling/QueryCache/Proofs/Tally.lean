import QueryCache.Proofs.Depth

/-!
# What a removal logs

A backend may log keys while it works (`Backend.Logs`). Whatever else it does is not logged, and
where a hit is removed its query is, unless the removal fails. However the hits list the same
entities and whichever calls fail, a removal then logs no query twice, and only such whose hits were
seen when it began; if it succeeds, these are the queries whose hits are gone. The reason is that a
hit is removed before what it lists is, and a hit that is gone is not found again (`Tallies`). A
context that sees nothing gets no further than the first lookup.
-/

namespace QueryCache

open QueryCache.Action Repository

variable {σ ι ε α β : Type}

/-- A context of a place sees the hit of a query. -/
def Repository.SeesHit (repository : Repository) (place : Option TxId) (queryId : String) : Prop :=
  ∃ view, repository.seen place = .ok view ∧ view.hits[queryId]?.isSome

/-- A request is to remove a hit. -/
def Request.dropsHit : Request ι ε → Bool
  | .deleteHit _ => true
  | _ => false

/-- The hits of some queries are gone, and all others are as they were. -/
def View.Without (keys : List String) (earlier later : View) : Prop :=
  ∀ key : String, later.hits[key]? = if key ∈ keys then none else earlier.hits[key]?

namespace View.Without

variable {keys more : List String} {earlier between later : View}

theorem of_eq (same : later.hits = earlier.hits) : Without [] earlier later := by
  simp [Without, same]

theorem trans (first : Without keys earlier between) (second : Without more between later) :
    Without (keys ++ more) earlier later := by
  intro key
  rw [second key, first key]
  by_cases late : key ∈ more <;> simp [late]

theorem isSome_iff (without : Without keys earlier later) (key : String) :
    later.hits[key]?.isSome ↔ earlier.hits[key]?.isSome ∧ key ∉ keys := by
  rw [without key]
  by_cases gone : key ∈ keys <;> simp [gone]

end View.Without

namespace Backend

variable {backend : Backend σ ι ε} {part : σ → Repository} {ctx : Context} {view : View}
  {logged : List String → σ → σ → Prop}

/-- Between two states keys are logged in order: the query of each hit that is removed, once or, if
the removal fails, not at all. -/
structure Logs (backend : Backend σ ι ε) (logged : List String → σ → σ → Prop) : Prop where
  nothing : ∀ s, logged [] s s
  append : ∀ {keys more : List String} {s t u : σ}, logged keys s t → logged more t u →
    logged (keys ++ more) s u
  check : ∀ ctx, (backend.check ctx).Along (logged [])
  perform : ∀ ctx request, request.dropsHit = false →
    (backend.stores.perform ctx request).Along (logged [])
  dropped : ∀ ctx queryId s,
    let ended := (backend.hits.deleteById ctx queryId >>= fun () =>
      backend.record (.invalidation queryId)) s
    logged [queryId] s ended.2 ∨ logged [] s ended.2 ∧ ∃ e, ended.1 = .error e

/-- Where a context sees a view of a sound repository, an action logs queries whose hits are seen,
each at most once, and if it succeeds these hits are gone and no others. -/
def Tallies (backend : Backend σ ι ε) (part : σ → Repository)
    (logged : List String → σ → σ → Prop) (ctx : Context) (view : View) (action : Action σ α) :
    Prop :=
  ∀ s, (part s).Sound backend.schema → (part s).seen ctx.tx = .ok view →
    ∃ keys, logged keys s (action s).2 ∧ keys.Nodup ∧
      (∀ key ∈ keys, view.hits[key]?.isSome) ∧
      ∀ value, (action s).1 = .ok value →
        (part (action s).2).Sound backend.schema ∧
        ∃ later, (part (action s).2).seen ctx.tx = .ok later ∧ View.Without keys view later

namespace Logs

variable (logs : backend.Logs logged)
include logs

theorem isPreorder : IsPreorder σ (logged []) where
  refl := logs.nothing
  trans _ _ _ first second := logs.append first second

/-- What is logged after nothing is, and nothing after it, is logged in all. -/
theorem around {keys : List String} {s t u v : σ} (before : logged [] s t) (log : logged keys t u)
    (after : logged [] u v) : logged keys s v := by
  have whole := logs.append (logs.append before log) after
  rwa [List.nil_append, List.append_nil] at whole

theorem finish (ctx : Context) (outcome : Except Error Unit) :
    (backend.finish ctx outcome).Along (logged []) := by
  cases outcome with
  | ok _ => exact fun s => logs.perform ctx .commit rfl s
  | error e => exact fun s => logs.perform ctx .rollback rfl s

end Logs

section Rules

/-- An action that logs nothing and removes no hit tallies. -/
theorem Attains.tallies {action : Action σ α}
    (attains : backend.Attains part ctx view action fun _ later => later.hits = view.hits)
    (silent : action.Along (logged [])) : backend.Tallies part logged ctx view action := by
  intro s sound shown
  refine ⟨[], silent s, List.nodup_nil, nofun, fun value succeeds => ?_⟩
  obtain ⟨soundLater, later, shownLater, same⟩ := attains s value sound shown succeeds
  exact ⟨soundLater, later, shownLater, .of_eq same⟩

variable (logs : backend.Logs logged)
include logs

theorem Logs.tallies_pure (value : α) :
    backend.Tallies part logged ctx view (Pure.pure value) := by
  have attains : backend.Attains part ctx view (Pure.pure value) fun _ later =>
      later.hits = view.hits := attains_pure rfl
  exact attains.tallies logs.nothing

/-- What is logged later was there after what was logged before was gone. -/
theorem Logs.tallies_bind {first : Action σ α} {second : α → Action σ β}
    (atFirst : backend.Tallies part logged ctx view first)
    (atSecond : ∀ value between, backend.Tallies part logged ctx between (second value)) :
    backend.Tallies part logged ctx view (first >>= second) := by
  intro s sound shown
  obtain ⟨keys, loggedFirst, once, present, ends⟩ := atFirst s sound shown
  rw [bind_apply]
  generalize first s = ended at loggedFirst ends ⊢
  obtain ⟨e | value, next⟩ := ended
  · exact ⟨keys, loggedFirst, once, present, nofun⟩
  · obtain ⟨soundNext, between, shownNext, without⟩ := ends value rfl
    obtain ⟨more, loggedSecond, onceMore, presentMore, endsMore⟩ :=
      atSecond value between next soundNext shownNext
    have still key (late : key ∈ more) := (without.isSome_iff key).mp (presentMore key late)
    refine ⟨keys ++ more, logs.append loggedFirst loggedSecond, ?_, ?_, fun last succeeds => ?_⟩
    · rw [List.nodup_append]
      refine ⟨once, onceMore, ?_⟩
      rintro key early _ late rfl
      exact (still key late).2 early
    · rw [List.forall_mem_append]
      exact ⟨present, fun key late => (still key late).1⟩
    · obtain ⟨soundLast, later, shownLast, withoutMore⟩ := endsMore last succeeds
      exact ⟨soundLast, later, shownLast, without.trans withoutMore⟩

/-- What follows an action that only reads starts from the same view. -/
theorem Logs.tallies_read {first : Action σ α} {second : α → Action σ β} {told : α → Prop}
    (atFirst : backend.Attains part ctx view first fun value later => told value ∧ later = view)
    (silent : first.Along (logged []))
    (atSecond : ∀ value, told value → backend.Tallies part logged ctx view (second value)) :
    backend.Tallies part logged ctx view (first >>= second) := by
  intro s sound shown
  have leads := silent s
  have attained := fun value => atFirst s value sound shown
  rw [bind_apply]
  generalize first s = ended at leads attained ⊢
  obtain ⟨e | value, next⟩ := ended
  · exact ⟨[], leads, List.nodup_nil, nofun, nofun⟩
  · obtain ⟨soundNext, _, shownNext, isTold, rfl⟩ := attained value rfl
    obtain ⟨keys, loggedSecond, rest⟩ := atSecond value isTold next soundNext shownNext
    exact ⟨keys, logs.append leads loggedSecond, rest⟩

theorem Logs.tallies_each {action : α → Action σ Unit} {items : List α}
    (one : ∀ item middle, backend.Tallies part logged ctx middle (action item)) :
    backend.Tallies part logged ctx view (Action.each action items) := by
  induction items generalizing view with
  | nil => exact logs.tallies_pure ()
  | cons item items inductionHypothesis =>
      exact logs.tallies_bind (one item view) fun _ _ => inductionHypothesis

end Rules

namespace Hindered

variable (hindered : backend.Hindered part) (logs : backend.Logs logged)
include hindered logs

/-- A hit that is there is removed, and then its query is logged. -/
theorem tallies_deleteHit {queryId : String} (present : view.hits[queryId]?.isSome) :
    backend.Tallies part logged ctx view (do
      backend.hits.deleteById ctx queryId
      backend.record (.invalidation queryId)) := by
  intro s sound shown
  have attains : backend.Attains part ctx view (do
      backend.hits.deleteById ctx queryId
      backend.record (.invalidation queryId))
      fun _ later => later = { view with hits := view.hits.erase queryId } := by
    apply (hindered.attains_deleteHit queryId).bind
    rintro _ _ rfl
    exact (hindered.attains_record _).weaken fun _ _ => And.right
  rcases logs.dropped ctx queryId s with once | ⟨never, e, failed⟩
  · refine ⟨[queryId], once, List.pairwise_singleton _ queryId,
      List.forall_mem_singleton.mpr present, fun value succeeds => ?_⟩
    obtain ⟨soundLater, later, shownLater, rfl⟩ := attains s value sound shown succeeds
    refine ⟨soundLater, _, shownLater, fun key => ?_⟩
    rw [Rows.getElem?_erase]
    simp only [List.mem_singleton, eq_comm]
  · refine ⟨[], never, List.nodup_nil, nofun, fun value succeeds => ?_⟩
    cases succeeds.symm.trans failed

/-- A transaction tallies what the work in it does. -/
theorem tallies_transact {work : Context → Action σ Unit}
    (stays : ∀ inner, (work inner).Along (backend.Stays part False inner.tx))
    (inner : ∀ tx, backend.Tallies part logged (ctx.withTx tx) view (work (ctx.withTx tx))) :
    backend.Tallies part logged ctx view (backend.transact ctx work) := by
  intro s sound shown
  have begins : logged [] s (backend.begin ctx s).2 := logs.perform ctx .begin rfl s
  rcases hindered.transact_cases stays sound with
    ⟨e, -, failed, -⟩ | ⟨opened, began, -, soundOpened, -, applied⟩
  · rw [failed]
    exact ⟨[], begins, List.nodup_nil, nofun, nofun⟩
  · rw [began] at begins
    obtain ⟨-, -, sameSeen⟩ := hindered.seen_of_begin sound began
    obtain ⟨keys, worked, once, present, ends⟩ := inner _ opened soundOpened (sameSeen.trans shown)
    have whole : logged keys s (backend.transact ctx work s).2 := by
      rw [applied]
      exact logs.around begins worked (logs.finish _ _ _)
    refine ⟨keys, whole, once, present, ?_⟩
    rintro ⟨⟩ succeeds
    obtain ⟨_, beganAgain, -, -, done, published⟩ := hindered.seen_transact stays sound succeeds
    cases began.symm.trans beganAgain
    obtain ⟨soundDone, later, shownLater, without⟩ := ends () done
    obtain ⟨soundLater, seenLater⟩ := published later soundDone shownLater
    exact ⟨soundLater, later, seenLater, without⟩

section Removals

open Invalidation

theorem tallies_dropHit {removeEntity : Context → ι → Action σ Unit}
    (removes : ∀ middle id, backend.Tallies part logged ctx middle (removeEntity ctx id))
    (queryId : String) :
    backend.Tallies part logged ctx view (dropHit backend removeEntity queryId ctx) := by
  refine logs.tallies_read hindered.attains_check (logs.check ctx) fun _ _ => ?_
  refine logs.tallies_read (hindered.attains_findHit queryId)
    (fun s => logs.perform ctx (.findHit queryId) rfl s) fun found isTold => ?_
  cases found with
  | none => exact logs.tallies_pure ()
  | some hit =>
      obtain ⟨bytes, present, -⟩ := exists_of_told_eq_some isTold
      have rest middle : backend.Tallies part logged ctx middle
          (Action.each (fun id => do
            backend.check ctx
            removeEntity ctx id) hit.entityIds) :=
        logs.tallies_each fun id between =>
          logs.tallies_read hindered.attains_check (logs.check ctx) fun _ _ => removes between id
      have there : view.hits[queryId]?.isSome := present ▸ rfl
      have whole := logs.tallies_bind (hindered.tallies_deleteHit logs there) fun _ => rest
      rwa [bind_assoc] at whole

variable [DecidableEq ι]

theorem tallies_dropEntity {removeHit : Context → String → Action σ Unit}
    (removes : ∀ middle queryId, backend.Tallies part logged ctx middle (removeHit ctx queryId))
    (id : ι) : backend.Tallies part logged ctx view (dropEntity backend removeHit id ctx) := by
  have checked {α : Type} {view : View} {second : Unit → Action σ α}
      (next : backend.Tallies part logged ctx view (second ())) :
      backend.Tallies part logged ctx view (backend.check ctx >>= second) :=
    logs.tallies_read hindered.attains_check (logs.check ctx) fun _ _ => next
  refine checked (logs.tallies_read (attains_liftM _) logs.nothing fun key _ => ?_)
  refine logs.tallies_bind (removes view key) fun _ first => checked ?_
  refine logs.tallies_read hindered.attains_findHits
    (fun s => logs.perform ctx .findHits rfl s) fun hits _ => ?_
  refine logs.tallies_bind ?_ fun _ second => checked ?_
  · exact logs.tallies_each fun queryId middle => checked (removes middle queryId)
  refine logs.tallies_read (hindered.attains_findEntity id)
    (fun s => logs.perform ctx (.findEntity id) rfl s) fun found _ => ?_
  split
  · refine ((hindered.attains_deleteEntity id).weaken ?_).tallies fun s =>
      logs.perform ctx (.deleteEntity id) rfl s
    rintro _ _ ⟨key, -, rfl⟩
    rfl
  · exact logs.tallies_pure ()

theorem tallies_hitWithin (depth : Nat) (ctx : Context) (view : View) (queryId : String) :
    backend.Tallies part logged ctx view (hitWithin backend depth ctx queryId) := by
  induction depth generalizing ctx view queryId with
  | zero => exact fun s _ _ => ⟨[], logs.nothing s, List.nodup_nil, nofun, nofun⟩
  | succ depth inductionHypothesis =>
      apply hindered.tallies_transact logs
      · intro inner
        exact hindered.along_dropHit (hindered.along_entityWithin False.elim depth inner) queryId
      · intro tx
        apply hindered.tallies_dropHit logs
        intro middle id
        apply hindered.tallies_transact logs
        · intro inner
          exact hindered.along_dropEntity (hindered.along_hitWithin False.elim depth inner) id
        · intro innermost
          exact hindered.tallies_dropEntity logs (inductionHypothesis _) id

theorem tallies_invalidate (start : Node ι) :
    backend.Tallies part logged ctx view (backend.invalidate ctx start) := by
  intro s
  cases start with
  | hit queryId => exact hindered.tallies_hitWithin logs _ ctx view queryId s
  | entity id =>
      apply hindered.tallies_transact logs
      · intro inner
        exact hindered.along_dropEntity (hindered.along_hitWithin False.elim _ inner) id
      · intro tx
        exact hindered.tallies_dropEntity logs (hindered.tallies_hitWithin logs _ _) id

end Removals

end Hindered

section Blind

/-- Where a context sees nothing, two actions fail alike, and leave a related state. -/
def FailAlike (backend : Backend σ ι ε) (part : σ → Repository) (may : σ → σ → Prop)
    (ctx : Context) (left right : Action σ α) : Prop :=
  ∀ s, (part s).Sound backend.schema → (∀ view, (part s).seen ctx.tx ≠ .ok view) →
    left s = right s ∧ may s (left s).2 ∧ ∃ e, (left s).1 = .error e

/-- The calls that are made where nothing is seen lead to related states. -/
structure Harmless (backend : Backend σ ι ε) (may : σ → σ → Prop) : Prop where
  check : ∀ ctx, (backend.check ctx).Along may
  begin : ∀ ctx, (backend.begin ctx).Along may
  rollback : ∀ ctx, (backend.rollback ctx).Along may
  findHit : ∀ ctx queryId, (backend.hits.findById ctx queryId).Along may

variable {may : σ → σ → Prop} [IsPreorder σ may]

omit [IsPreorder σ may] in
/-- What follows a failure makes no difference. -/
theorem FailAlike.stops {first first' : Action σ α} {second second' : α → Action σ β}
    (fail : backend.FailAlike part may ctx first first') :
    backend.FailAlike part may ctx (first >>= second) (first' >>= second') := by
  intro s sound blind
  obtain ⟨same, leads, e, failed⟩ := fail s sound blind
  have ended : first s = (.error e, (first s).2) := Prod.ext failed rfl
  rw [bind_of_error ended, bind_of_error (same.symm.trans ended)]
  exact ⟨rfl, leads, e, rfl⟩

/-- What leaves the repository alone does not let a context see more. -/
theorem FailAlike.after {first : Action σ α} {second second' : α → Action σ β}
    (keeps : ∀ s, part (first s).2 = part s) (along : first.Along may)
    (fail : ∀ value, backend.FailAlike part may ctx (second value) (second' value)) :
    backend.FailAlike part may ctx (first >>= second) (first >>= second') := by
  intro s sound blind
  have same := keeps s
  have leads := along s
  rw [bind_apply, bind_apply]
  generalize first s = ended at same leads ⊢
  obtain ⟨e | value, next⟩ := ended
  · exact ⟨rfl, leads, e, rfl⟩
  · obtain ⟨alike, leadsOn, failed⟩ := fail value next (same ▸ sound) (same ▸ blind)
    exact ⟨alike, Trans.trans leads leadsOn, failed⟩

namespace Hindered

variable (hindered : backend.Hindered part) (harmless : backend.Harmless may)
include hindered harmless

omit [IsPreorder σ may] in
theorem failAlike_findHit (queryId : String) :
    backend.FailAlike part may ctx (backend.hits.findById ctx queryId)
      (backend.hits.findById ctx queryId) := by
  intro s sound blind
  refine ⟨rfl, harmless.findHit ctx queryId s, ?_⟩
  cases outcome : (backend.hits.findById ctx queryId s).1 with
  | error e => exact ⟨e, rfl⟩
  | ok found =>
      obtain ⟨view, shown, -⟩ := hindered.told_of_findHit sound outcome
      exact absurd shown (blind view)

theorem failAlike_transact {work work' : Context → Action σ Unit}
    (fail : ∀ inner, backend.FailAlike part may inner (work inner) (work' inner)) :
    backend.FailAlike part may ctx (backend.transact ctx work) (backend.transact ctx work') := by
  intro s sound blind
  have leads := harmless.begin ctx s
  cases began : backend.begin ctx s with
  | mk outcome opened =>
      rw [began] at leads
      cases outcome with
      | error e =>
          have failed (work : Context → Action σ Unit) :
              backend.transact ctx work s = (.error e, opened) := bind_of_error began
          rw [failed, failed]
          exact ⟨rfl, leads, e, rfl⟩
      | ok inner =>
          obtain ⟨-, soundOpened, sameSeen⟩ := hindered.seen_of_begin sound began
          obtain ⟨same, leadsOn, e, failed⟩ :=
            fail inner opened soundOpened fun view => sameSeen ▸ blind view
          have ends (work : Context → Action σ Unit) : backend.transact ctx work s =
              backend.finish inner (work inner opened).1 (work inner opened).2 :=
            bind_of_ok began
          rw [ends work, ends work', ← same, failed]
          refine ⟨rfl, ?_, e, rfl⟩
          exact Trans.trans (Trans.trans leads leadsOn) (harmless.rollback inner _)

section Removals

open Invalidation

theorem failAlike_dropHit (removeEntity removeEntity' : Context → ι → Action σ Unit)
    (queryId : String) :
    backend.FailAlike part may ctx (dropHit backend removeEntity queryId ctx)
      (dropHit backend removeEntity' queryId ctx) := by
  refine .after (hindered.check ctx) (harmless.check ctx) fun _ => ?_
  exact (hindered.failAlike_findHit harmless queryId).stops

variable [DecidableEq ι]

theorem failAlike_dropEntity {removeHit removeHit' : Context → String → Action σ Unit}
    (fail : ∀ queryId, backend.FailAlike part may ctx (removeHit ctx queryId)
      (removeHit' ctx queryId)) (id : ι) :
    backend.FailAlike part may ctx (dropEntity backend removeHit id ctx)
      (dropEntity backend removeHit' id ctx) := by
  refine .after (hindered.check ctx) (harmless.check ctx) fun _ => ?_
  exact .after (fun _ => rfl) (along_liftM _) fun key => (fail key).stops

/-- Where nothing is seen, a removal fails, and it makes no difference what stands below its first
steps. -/
theorem failAlike_nodeAbove (below below' : Context → String → Action σ Unit) (depth depth' : Nat)
    (start : Node ι) :
    backend.FailAlike part may ctx (nodeAbove backend below (depth + 1) ctx start)
      (nodeAbove backend below' (depth' + 1) ctx start) := by
  have fail (ctx : Context) (queryId : String) : backend.FailAlike part may ctx
      (hitAbove backend below (depth + 1) ctx queryId)
      (hitAbove backend below' (depth' + 1) ctx queryId) :=
    hindered.failAlike_transact harmless fun inner =>
      hindered.failAlike_dropHit harmless _ _ queryId
  cases start with
  | hit queryId => exact fail ctx queryId
  | entity id =>
      exact hindered.failAlike_transact harmless fun inner =>
        hindered.failAlike_dropEntity harmless (fail inner) id

end Removals

end Hindered

end Blind

section Whole

open Invalidation

variable [DecidableEq ι]

/-- A removal opens the recursion as often as its bound says. -/
theorem invalidate_eq_nodeAbove (backend : Backend σ ι ε) (ctx : Context) (start : Node ι) (s : σ) :
    backend.invalidate ctx start s =
      nodeAbove backend (fun _ _ => fail tooDeep) (backend.nesting s) ctx start s := by
  cases start with
  | hit queryId =>
      change hitWithin backend (backend.nesting s) ctx queryId s = _
      rw [hitWithin_eq_hitAbove]
      rfl
  | entity id =>
      change entityWithin backend (backend.nesting s) ctx id s = _
      rw [entityWithin, hitWithin_eq_hitAbove]
      rfl

/-- A removal that succeeds logs the queries whose hits are no longer seen, each once, and no
others. One that fails logs none twice, and only such whose hits were seen when it began. -/
theorem Hindered.exists_tally (hindered : backend.Hindered part) (logs : backend.Logs logged)
    (start : Node ι) {s : σ} (nests : 0 < backend.nesting s)
    (sound : (part s).Sound backend.schema) :
    let ended := backend.invalidate ctx start s
    ∃ keys, logged keys s ended.2 ∧ keys.Nodup ∧ (∀ key ∈ keys, (part s).SeesHit ctx.tx key) ∧
      (ended.1 = .ok () →
        ∀ key, key ∈ keys ↔ (part s).SeesHit ctx.tx key ∧ ¬ (part ended.2).SeesHit ctx.tx key) := by
  intro ended
  cases seen : (part s).seen ctx.tx with
  | ok view =>
      obtain ⟨keys, log, once, present, ends⟩ := hindered.tallies_invalidate logs start s sound seen
      refine ⟨keys, log, once, fun key member => ⟨view, seen, present key member⟩, ?_⟩
      intro succeeds key
      obtain ⟨-, later, seenLater, without⟩ := ends () succeeds
      have before : (part s).SeesHit ctx.tx key ↔ view.hits[key]?.isSome := by
        simp [SeesHit, seen]
      have after : (part ended.2).SeesHit ctx.tx key ↔ later.hits[key]?.isSome := by
        simp [SeesHit, seenLater, ended]
      rw [before, after, without.isSome_iff]
      have seenBefore := present key
      tauto
  | error e =>
      have blind : ∀ view, (part s).seen ctx.tx ≠ .ok view := seen ▸ nofun
      obtain ⟨bound, nesting⟩ :=
        Nat.exists_eq_add_one_of_ne_zero (Nat.ne_zero_of_lt nests)
      have harmless : backend.Harmless (logged []) :=
        ⟨logs.check, fun ctx s => logs.perform ctx .begin rfl s,
          fun ctx s => logs.perform ctx .rollback rfl s,
          fun ctx queryId s => logs.perform ctx (.findHit queryId) rfl s⟩
      have := logs.isPreorder
      obtain ⟨-, silent, failure, failed⟩ := hindered.failAlike_nodeAbove harmless
        (fun _ _ => fail tooDeep) (fun _ _ => fail tooDeep) bound bound start s sound blind
      have same : ended = nodeAbove backend (fun _ _ => fail tooDeep) (bound + 1) ctx start s := by
        rw [← nesting]
        exact backend.invalidate_eq_nodeAbove ctx start s
      rw [← same] at silent failed
      refine ⟨[], silent, List.nodup_nil, nofun, fun succeeds => ?_⟩
      cases failed.symm.trans succeeds

end Whole

end Backend

end QueryCache
