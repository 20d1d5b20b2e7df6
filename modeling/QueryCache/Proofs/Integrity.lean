import QueryCache.Proofs.Revisions
import QueryCache.Proofs.Transparency

/-!
# What is listed is stored

A cache is used outside of transactions, in any way and by any number of callers, over a backend any
of whose calls may fail. Then every entity that a committed hit lists has a committed copy, after
every operation and however it ended.
-/

namespace QueryCache

open Wire

/-- What a caller asks of a cache. A query comes with its closure. -/
inductive CacheCall (σ ι ε : Type)
  | create (entity : ε)
  | update (entity : ε)
  | deleteById (id : ι)
  | deleteAll
  | findById (id : ι)
  | findAll
  | queryMany (key : String) (query : Action σ (List ε))
  | queryOne (key : String) (query : Action σ (Option ε))
  | remove (removal : Removal ι)

namespace CacheCall

variable {σ ι ε : Type} [DecidableEq ι]

/-- The state in which a call leaves off. -/
def after (backend : Backend σ ι ε) (ctx : Context) : CacheCall σ ι ε → σ → σ
  | .create entity, s => (backend.create ctx entity s).2
  | .update entity, s => (backend.update ctx entity s).2
  | .deleteById id, s => (backend.deleteById ctx id s).2
  | .deleteAll, s => (backend.deleteAll ctx s).2
  | .findById id, s => (backend.findById ctx id s).2
  | .findAll, s => (backend.findAll ctx s).2
  | .queryMany key query, s => (backend.queryMany ctx key query s).2
  | .queryOne key query, s => (backend.queryOne ctx key query s).2
  | .remove removal, s => (backend.remove ctx removal s).2

/-- The closure of a query may do and answer what it likes, so long as it leaves the repository to
the cache. -/
def Idle (part : σ → Repository) : CacheCall σ ι ε → Prop
  | .queryMany _ query => ∀ s, part (query s).2 = part s
  | .queryOne _ query => ∀ s, part (query s).2 = part s
  | _ => True

/-- The queries of which a call may record hits. -/
def May (schema : Schema ι ε) : CacheCall σ ι ε → String → Prop
  | .findById id, key => schema.findByIdKey id = .ok key
  | .findAll, key => key = QueryKey.findAll.encode
  | .queryMany own _, key => key = own
  | .queryOne own _, key => key = own
  | _, _ => False

/-- However it ends, a call outside of transactions revises what is committed. -/
theorem revises {backend : Backend σ ι ε} {part : σ → Repository}
    (hindered : backend.Hindered part) (apart : backend.Apart part)
    (distinct : backend.schema.Distinct) {ctx : Context} (outside : ctx.tx = none)
    {call : CacheCall σ ι ε} (idle : call.Idle part) (s : σ) :
    backend.Revises part (call.May backend.schema) s (call.after backend ctx s) := by
  cases call with
  | create entity => exact hindered.revises_create outside apart entity s
  | update entity => exact hindered.revises_update outside apart distinct entity s
  | deleteById id => exact hindered.revises_deleteById outside apart distinct id s
  | deleteAll => exact hindered.revises_deleteAll outside apart distinct s
  | findById id =>
      exact hindered.revises_findById outside apart distinct (fun _ named => named) s
  | findAll =>
      have own : (findAll : CacheCall σ ι ε).May backend.schema QueryKey.findAll.encode := rfl
      exact hindered.revises_findAll outside apart distinct own s
  | queryMany key query =>
      have own : (queryMany key query).May backend.schema key := rfl
      exact hindered.revises_queryMany outside apart distinct own idle s
  | queryOne key query =>
      have own : (queryOne key query).May backend.schema key := rfl
      exact hindered.revises_queryOne outside apart distinct own idle s
  | remove removal => exact hindered.revises_remove outside distinct removal s

end CacheCall

/-- The states that a cache comes through: it starts on an empty repository, every call is made
outside of transactions, and between calls anything may happen but to the repository. -/
inductive Backend.Ran {σ ι ε : Type} [DecidableEq ι] (backend : Backend σ ι ε)
    (part : σ → Repository) : σ → Prop
  | start {s : σ} (empty : part s = .empty) : Ran backend part s
  | call {s : σ} (earlier : Ran backend part s) {ctx : Context} (outside : ctx.tx = none)
      (call : CacheCall σ ι ε) (idle : call.Idle part) : Ran backend part (call.after backend ctx s)
  | between {s t : σ} (earlier : Ran backend part s) (same : part t = part s) : Ran backend part t

section Runs

variable {σ ι ε : Type} [DecidableEq ι] {backend : Backend σ ι ε} {part : σ → Repository}

/-- The repository of a cache stays sound, and every entity that is listed stays copied. -/
theorem Backend.Ran.intact (hindered : backend.Hindered part) (apart : backend.Apart part)
    (distinct : backend.schema.Distinct) (readsBack : backend.schema.ReadsBack) {s : σ}
    (ran : backend.Ran part s) :
    (part s).Sound backend.schema ∧ (part s).committed.Intact backend.schema := by
  induction ran with
  | start empty =>
      rw [empty]
      refine ⟨.empty, ?_⟩
      rintro key hit ⟨bytes, present, -⟩
      simp [Repository.committed, Repository.empty, Table.empty] at present
  | call _ outside _ idle inductionHypothesis =>
      obtain ⟨sound, intact⟩ := inductionHypothesis
      obtain ⟨soundLater, revised⟩ :=
        CacheCall.revises hindered apart distinct outside idle _ sound
      exact ⟨soundLater, revised.intact readsBack intact⟩
  | between _ same inductionHypothesis => rwa [same]

end Runs

namespace Simulation

variable {γ ι ε : Type}

theorem offered_eq_some {setting : Setting γ ι ε} {α : Type} {capability : Capability}
    {able offer : α} (offered : Setting.source.offered setting capability able = some offer) :
    offer = able := by
  unfold Setting.source.offered at offered
  split at offered
  · exact (Option.some.inj offered).symm
  · cases offered

variable [DecidableEq ι]

/-- In a world, the source and the clock leave the repository alone. -/
theorem Setting.apart (setting : Setting γ ι ε) : setting.backend.Apart World.repository where
  findById _ _ _ := rfl
  create create offered ctx entity world := by
    rw [offered_eq_some offered]
    change (setting.assigned entity world).2.repository = world.repository
    unfold Setting.assigned
    split <;> rfl
  update update offered ctx entity world := by
    rw [offered_eq_some offered]
    rfl
  deleteById delete offered ctx id world := by
    rw [offered_eq_some offered]
    rfl
  deleteAll delete offered ctx world := by
    rw [offered_eq_some offered]
    rfl
  findAll findAll offered ctx world := by
    rw [offered_eq_some offered]
    have idle : (World.onSource (fun signals => Source.findAll signals
      (setting.sourceContext signals ctx)) world).2.repository = world.repository := rfl
    rw [Setting.sourceFindAll, Action.bind_apply, Action.attempt_apply]
    generalize World.onSource (fun signals => Source.findAll signals
      (setting.sourceContext signals ctx)) world = found at idle ⊢
    obtain ⟨outcome, found⟩ := found
    rcases setting.outlet.cut with _ | ⟨_ | _, e⟩ <;> cases outcome <;> exact idle
  now _ := rfl

/-- A gate at which no transaction can be begun. -/
def stuckBegins : Gate Unit Bool where
  decide call _ := (if call.method = .begin then .fail (.backend "stuck") else .pass, ())
  revivals _ := 0

theorem stuckBegins_hinders : stuckBegins.Hinders := by
  intro call state
  change Decision.Hinders (if call.method = .begin then _ else _)
  split <;> trivial

/-- A cache of switches behind the gate. -/
def stuckSwitches : Setting Unit Bool (Entry Bool) :=
  ⟨IdKind.switch.schema, stuckBegins, .plain, false⟩

theorem readsBack_switch : IdKind.switch.schema.ReadsBack := by
  intro id bytes suffix found rest written reads
  cases id <;> cases written <;> cases reads <;> exact ⟨rfl, rfl⟩

/-- A world in which all switches were listed, and one of them was then deleted in the source only,
because it could not be invalidated. -/
def deletedInVain : World Unit (Entry Bool) :=
  (CacheCall.deleteById true).after stuckSwitches.backend .root
    (CacheCall.findAll.after stuckSwitches.backend .root (World.initial () [⟨true, "on"⟩] 0))

end Simulation

/-- Whatever a cache was asked for outside of transactions, and whatever failed meanwhile, every
entity that a committed hit lists has a committed row in the store of entities. -/
theorem contains_of_committed_hit {σ ι ε : Type} [DecidableEq ι] (backend : Backend σ ι ε)
    (part : σ → Repository) (hindered : backend.Hindered part) (apart : backend.Apart part)
    (distinct : backend.schema.Distinct) (readsBack : backend.schema.ReadsBack) (s : σ)
    (ran : backend.Ran part s) (key : String) (hit : Hit ι)
    (held : (part s).hits.rows.Hold backend.schema key hit) (id : ι)
    (lists : id ∈ hit.entityIds) :
    Entities.contains backend.schema (part s).entities id = true := by
  obtain ⟨-, intact⟩ := ran.intact hindered apart distinct readsBack
  obtain ⟨place, placed, present⟩ := intact key hit held id lists
  rw [Entities.contains, placed]
  exact (Std.ExtTreeMap.contains_eq_isSome_getElem?).trans present

theorem contains_of_committed_hit_deletedInVain :
    Simulation.deletedInVain.source.rows = [] ∧
    (∃ hit : Hit Bool, Simulation.deletedInVain.repository.hits.rows.Hold
      Simulation.IdKind.switch.schema QueryKey.findAll.encode hit ∧ hit.entityIds = [true]) ∧
    Entities.contains Simulation.IdKind.switch.schema Simulation.deletedInVain.repository.entities
      true = true := by
  have start : Simulation.stuckSwitches.backend.Ran Simulation.World.repository
      (Simulation.World.initial () [⟨true, "on"⟩] 0) := .start rfl
  have ran : Simulation.stuckSwitches.backend.Ran Simulation.World.repository
      Simulation.deletedInVain :=
    .call (.call start rfl .findAll trivial) rfl (.deleteById true) trivial
  have stored : (Simulation.deletedInVain.repository.hits.rows[QueryKey.findAll.encode]?.map
      fun bytes => ((Simulation.IdKind.switch.schema.decodeHit bytes).map
        Hit.entityIds).toOption) = some (some [true]) := by
    decide +kernel
  obtain ⟨bytes, present, listed⟩ := Option.map_eq_some_iff.mp stored
  cases decoded : Simulation.IdKind.switch.schema.decodeHit bytes with
  | error e => simp [decoded, Except.map, Except.toOption] at listed
  | ok hit =>
      have ids : hit.entityIds = [true] := by
        simpa [decoded, Except.map, Except.toOption] using listed
      have held : Simulation.deletedInVain.repository.hits.rows.Hold
          Simulation.IdKind.switch.schema QueryKey.findAll.encode hit := ⟨bytes, present, decoded⟩
      refine ⟨by decide +kernel, ⟨hit, held, ids⟩, ?_⟩
      exact contains_of_committed_hit Simulation.stuckSwitches.backend Simulation.World.repository
        (Simulation.stuckSwitches.hindered Simulation.stuckBegins_hinders)
        Simulation.stuckSwitches.apart Simulation.names_switch.distinct Simulation.readsBack_switch
        Simulation.deletedInVain ran QueryKey.findAll.encode hit held true (by simp [ids])

end QueryCache
