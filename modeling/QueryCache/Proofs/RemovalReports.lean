import QueryCache.Proofs.Pruning
import QueryCache.Proofs.Reports
import QueryCache.Proofs.Views

/-!
# What is reported of a removal

A removal of a hit is reported when the hit is deleted, which is before it is settled whether the
deletion is to last. So the reports of a removal name the hits that it deleted, each once, and only
such that the context saw. If the removal succeeds these are the hits that are gone; but if it fails
all is rolled back, and every hit that was reported is seen as before.
-/

namespace QueryCache

open QueryCache.Action Repository

variable {σ ι ε : Type}

/-- The hits that were deleted, in order: a call to delete one did not fail. -/
def deleted (notes : List (Note ι ε)) : List String :=
  notes.filterMap fun
    | .call (.deleteHit queryId) none => some queryId
    | _ => none

@[simp] theorem deleted_append (notes more : List (Note ι ε)) :
    deleted (notes ++ more) = deleted notes ++ deleted more :=
  List.filterMap_append

theorem removals_append (keys more : List String) :
    removals (keys ++ more) = removals keys ++ removals more :=
  List.map_append

/-- Between two states the hits of some queries were deleted, and for each a removal was heard. -/
def Tells (keys : List String) (t later : Noted (Overheard σ) ι ε) : Prop :=
  Noting deleted keys t later ∧ later.state.reports = t.state.reports ++ removals keys

namespace Backend

variable {backend : Backend σ ι ε} {part : σ → Repository}

/-- A backend that is overheard is hindered as it was. -/
theorem Hindered.overheard (hindered : backend.Hindered part) :
    backend.overheard.Hindered fun t => part t.state where
  request ctx request t := by
    have within : backend.overheard.stores.perform ctx request =
        Action.within Overheard.state Overheard.put (backend.stores.perform ctx request) :=
      backend.within_perform ctx request
    rw [Refuses, Acts, within]
    exact hindered.request ctx request t.state
  check ctx t := hindered.check ctx t.state
  record event t := hindered.record event t.state

/-- The removal of a hit is heard if the hit was deleted, and not if that failed. -/
theorem logs_overheard (backend : Backend σ ι ε) : backend.overheard.watched.Logs Tells where
  nothing _ := ⟨⟨[], (List.append_nil _).symm, rfl⟩, (List.append_nil _).symm⟩
  append first second := by
    refine ⟨first.1.append deleted_append second.1, ?_⟩
    rw [second.2, first.2, removals_append, List.append_assoc]
  check _ _ := ⟨⟨_, rfl, rfl⟩, (List.append_nil _).symm⟩
  perform ctx request keeps t := by
    have silent : (backend.overheard.stores.perform ctx request t.state).2.reports =
        t.state.reports := by cases request <;> rfl
    rw [backend.overheard.watched_perform]
    refine ⟨⟨_, rfl, ?_⟩, silent.trans (List.append_nil _).symm⟩
    cases request with
    | deleteHit queryId => cases keeps
    | _ => rfl
  dropped ctx queryId t := by
    intro ended
    let call := backend.hits.deleteById ctx queryId t.state.state
    have applied : backend.overheard.watched.hits.deleteById ctx queryId t =
        (call.1, ⟨⟨call.2, t.state.reports⟩, t.notes ++ calling (.deleteHit queryId) call.1⟩) := rfl
    cases outcome : call.1 with
    | error e =>
        rw [outcome] at applied
        have stopped : ended = (.error e, _) := bind_of_error applied
        rw [stopped]
        exact .inr ⟨⟨⟨_, rfl, rfl⟩, (List.append_nil _).symm⟩, e, rfl⟩
    | ok _ =>
        rw [outcome] at applied
        have went : ended = backend.overheard.watched.record (.invalidation queryId) _ :=
          bind_of_ok applied
        rw [went]
        exact .inl ⟨⟨_, List.append_nil _, rfl⟩, rfl⟩

end Backend

/-- Where nothing that was there was touched, everything is seen as before. -/
theorem Repository.Untouched.seen_eq {schema : Schema ι ε} {before after : Repository}
    (untouched : before.Untouched after) (sound : before.Sound schema)
    (soundAfter : after.Sound schema) {place : Option TxId} {view : View}
    (shown : before.seen place = .ok view) : after.seen place = .ok view := by
  obtain ⟨hits, copies⟩ := seen_eq_ok.mp shown
  apply seen_eq_ok.mpr
  constructor
  · exact Table.view_of_kept sound.ordered soundAfter.ordered untouched.hitRows
      untouched.hitOverlays hits
  · exact Table.view_of_kept sound.entitiesOrdered soundAfter.entitiesOrdered untouched.entityRows
      untouched.entityOverlays copies

namespace Simulation

variable {γ : Type} [DecidableEq ι] {setting : Setting γ ι ε} {ctx : Context} {start : Node ι}
  {world : World γ ε}

/-- After a removal that failed everything is seen as before. -/
theorem seen_of_invalidate_failed (hinders : setting.gate.Hinders)
    (sound : world.repository.Sound setting.schema) {e : Error}
    (failed : (setting.backend.invalidate ctx start world).1 = .error e) {view : View}
    (shown : world.repository.seen ctx.tx = .ok view) :
    (setting.backend.invalidate ctx start world).2.repository.seen ctx.tx = .ok view := by
  have settled : setting.backend.Settled World.repository False ctx.tx world
      (setting.backend.invalidate ctx start world) := by
    cases start with
    | entity id => exact (setting.hindered hinders).settled_remove False.elim ctx (.entity id) sound
    | hit key => exact (setting.hindered hinders).settled_remove False.elim ctx (.query key) sound
  obtain ⟨guided, untouched⟩ := settled
  exact (untouched e failed).seen_eq sound guided.sound shown

/-- What is heard of a removal are the removals of the hits that it deleted, each once, and the
context saw these hits when it began. If it succeeds they are the hits that the context does not see
any more, and no others. If it fails, the context sees everything as before, so that no hit is gone
of those that were reported. -/
theorem removals_are_reported (setting : Setting γ ι ε) (hinders : setting.gate.Hinders)
    (ctx : Context) (start : Node ι) (world : World γ ε)
    (reachable : world.repository.Reachable setting.schema) :
    let heard := setting.backend.overheard.watched.invalidate ctx start ⟨⟨world, []⟩, []⟩
    let later := heard.2.state.state
    let keys := deleted heard.2.notes
    (heard.1, later) = setting.backend.invalidate ctx start world ∧
      heard.2.state.reports = removals keys ∧ keys.Nodup ∧
      (∀ key ∈ keys, world.repository.SeesHit ctx.tx key) ∧
      (heard.1 = .ok () → ∀ key, key ∈ keys ↔
        world.repository.SeesHit ctx.tx key ∧ ¬ later.repository.SeesHit ctx.tx key) ∧
      ∀ e, heard.1 = .error e → ∀ view, world.repository.seen ctx.tx = .ok view →
        later.repository.seen ctx.tx = .ok view := by
  intro heard later keys
  have sound := reachable.sound
  have same : (heard.1, later) = setting.backend.invalidate ctx start world := by
    obtain ⟨outcome, state⟩ :=
      setting.backend.overheard.alike_watched.invalidate ctx start ⟨⟨world, []⟩, []⟩ _ rfl
    obtain ⟨outcome', state'⟩ :=
      setting.backend.alike_overheard.invalidate ctx start ⟨world, []⟩ world rfl
    exact Prod.ext (outcome.trans outcome') ((congrArg Overheard.state state).trans state')
  have nests := Nat.zero_lt_of_lt (setting.hitCount_lt_nesting world)
  obtain ⟨named, ⟨⟨new, notes, told⟩, reports⟩, once, present, gone⟩ :=
    (setting.hindered hinders).overheard.watched.exists_tally setting.backend.logs_overheard start
      (s := ⟨⟨world, []⟩, []⟩) nests sound
  have named_eq : named = keys := by
    rw [← told]
    exact congrArg deleted notes.symm
  subst named_eq
  refine ⟨same, reports, once, present, gone, fun e failed view shown => ?_⟩
  have outcome : heard.1 = (setting.backend.invalidate ctx start world).1 := congrArg Prod.fst same
  have state : later = (setting.backend.invalidate ctx start world).2 := congrArg Prod.snd same
  rw [state]
  exact seen_of_invalidate_failed hinders sound (outcome.symm.trans failed) shown

/-- Two hits are removed and are gone, and each removal is heard. -/
theorem removals_are_reported_knottedWorld :
    let heard := switchSetting.backend.overheard.watched.invalidate .root (.hit "x")
      ⟨⟨knottedWorld, []⟩, []⟩
    heard.1 = .ok () ∧ heard.2.state.reports = removals ["x", "y"] ∧
      ∀ key, key ∈ ["x", "y"] ↔ knottedWorld.repository.SeesHit none key ∧
        ¬ heard.2.state.state.repository.SeesHit none key := by
  intro heard
  obtain ⟨-, reports, -, -, gone, -⟩ := removals_are_reported switchSetting (fun _ _ => trivial)
    .root (.hit "x") knottedWorld ⟨_, rfl⟩
  have succeeds : heard.1 = .ok () := by decide +kernel
  have names : deleted heard.2.notes = ["x", "y"] := by decide +kernel
  rw [names] at reports gone
  exact ⟨succeeds, reports, gone succeeds⟩

/-- A gate at which no copy can be looked up. -/
def lostCopies : Gate Unit UInt64 where
  decide call _ := (if call.method = .entitiesFindById then .fail (.backend "lost") else .pass, ())
  revivals _ := 0

/-- The removal of a hit is heard though it is rolled back, and the hit is seen before and after. -/
theorem removal_is_heard_and_rolled_back :
    let setting : Setting Unit UInt64 (Entry UInt64) := { reportingSetting with gate := lostCopies }
    let heard := setting.backend.overheard.invalidate .root (.hit "q") ⟨hollowWorld, []⟩
    heard.1 = .error (.backend "lost") ∧ heard.2.reports = removals ["q"] ∧
      hollowWorld.repository.SeesHit none "q" ∧ heard.2.state.repository.SeesHit none "q" := by
  refine ⟨by decide +kernel, by decide +kernel, ⟨_, rfl, ?_⟩, ⟨_, rfl, ?_⟩⟩ <;> decide +kernel

end Simulation

end QueryCache
