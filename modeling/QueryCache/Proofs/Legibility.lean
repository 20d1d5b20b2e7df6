import QueryCache.Proofs.Attainment
import QueryCache.Proofs.Transparency

/-!
# What stands in the way of an invalidation

Whether there is a copy to remove is found out by reading it, and who lists an entity by reading all
hits. So an invalidation of an entity succeeds exactly where all hits can be read, and the copies of
all entities that it reaches; a copy that cannot be read is not removed, and neither is what goes
together with it. Copies that are not reached may be in any state.
-/

namespace QueryCache

open Wire

variable {ι ε : Type}

/-- A view from which nothing was removed but what could be read, and with every hit what it
lists. -/
structure Deciphered (schema : Schema ι ε) (earlier later : View) : Prop where
  swept : Swept schema (fun _ => True) earlier later
  hits : ∀ (key : String) bytes, earlier.hits[key]? = some bytes → later.hits[key]? = none →
    ∃ hit, schema.decodeHit bytes = .ok hit
  copies : ∀ (key : String) bytes, earlier.copies[key]? = some bytes →
    later.copies[key]? = none → ∃ entity, schema.decode bytes = .ok entity

namespace Deciphered

variable {schema : Schema ι ε} {earlier later : View}

theorem removing : Removing schema (Deciphered schema) where
  refl view :=
    { swept := .refl view
      hits := fun key bytes present absent => by cases present.symm.trans absent
      copies := fun key bytes present absent => by cases present.symm.trans absent }
  trans first second third earlier later :=
    { swept := earlier.swept.trans later.swept
      hits := fun key bytes present absent => by
        by_cases kept : second.hits[key]? = none
        · exact earlier.hits key bytes present kept
        · exact later.hits key bytes (earlier.swept.sub.hits.present present kept) absent
      copies := fun key bytes present absent => by
        by_cases kept : second.copies[key]? = none
        · exact earlier.copies key bytes present kept
        · exact later.copies key bytes (earlier.swept.sub.copies.present present kept) absent }
  sub deciphered := deciphered.swept.sub
  eraseHit {view later queryId hit} held rest gone :=
    { swept := .eraseHit held trivial rest.swept gone
      hits := fun key bytes present absent => by
        by_cases same : queryId = key
        · obtain ⟨heldBytes, heldPresent, decoded⟩ := held
          subst same
          cases heldPresent.symm.trans present
          exact ⟨hit, decoded⟩
        · refine rest.hits key bytes ?_ absent
          rw [Rows.getElem?_erase, if_neg same, present]
      copies := rest.copies }
  eraseCopy {view id place bytes entity} placed present decoded _ :=
    { swept := .eraseCopy trivial placed
      hits := fun key bytes present absent => by cases present.symm.trans absent
      copies := fun key other otherPresent absent => by
        rw [Rows.getElem?_erase] at absent
        split at absent
        · rename_i same
          subst same
          cases present.symm.trans otherPresent
          exact ⟨entity, decoded⟩
        · cases otherPresent.symm.trans absent }

/-- Where a start is gone, and the hits that are left can be read, all could be read that is reached
from it. -/
theorem legible (deciphered : Deciphered schema earlier later) {start : Node ι}
    (gone : start.Gone schema later)
    (left : ∀ (key : String) bytes, later.hits[key]? = some bytes →
      ∃ hit, schema.decodeHit bytes = .ok hit) :
    Legible schema (Reached schema earlier.hits start) earlier where
  hits key bytes present := by
    by_cases kept : later.hits[key]? = none
    · exact deciphered.hits key bytes present kept
    · exact left key bytes (deciphered.swept.sub.hits.present present kept)
  copies id place bytes isReached placed present := by
    have goneToo : Gone schema id later := deciphered.swept.gone_of_reached gone isReached
    exact deciphered.copies place bytes present (goneToo.copy place placed)

end Deciphered

namespace Backend

open QueryCache.Action Invalidation

variable {σ α β : Type} {backend : Backend σ ι ε} {part : σ → Repository} {ctx : Context}

/-- An action succeeds only where its context sees something. -/
def Sighted (backend : Backend σ ι ε) (part : σ → Repository) (ctx : Context)
    (action : Action σ α) : Prop :=
  ∀ s value, (part s).Sound backend.schema → (action s).1 = .ok value →
    ∃ view, (part s).seen ctx.tx = .ok view

theorem Sighted.bind {first : Action σ α} (sighted : backend.Sighted part ctx first)
    (second : α → Action σ β) : backend.Sighted part ctx (first >>= second) := by
  intro s value sound succeeds
  obtain ⟨found, foundFirst, -⟩ := exists_of_bind_apply_eq_ok succeeds
  exact sighted s found sound foundFirst

/-- What comes after an action that leaves the repository alone finds what was there before. -/
theorem Sighted.after {first : Action σ α} {second : α → Action σ β}
    (leaves : ∀ s, part (first s).2 = part s)
    (sighted : ∀ value, backend.Sighted part ctx (second value)) :
    backend.Sighted part ctx (first >>= second) := by
  intro s value sound succeeds
  obtain ⟨found, -, succeedsSecond, -⟩ := exists_of_bind_apply_eq_ok succeeds
  rw [← leaves s] at sound ⊢
  exact sighted found _ value sound succeedsSecond

namespace Hindered

variable (hindered : backend.Hindered part)
include hindered

/-- A transaction shows what is seen around it. -/
theorem sighted_transact {work : Context → Action σ Unit}
    (stays : ∀ inner, (work inner).Along (backend.Stays part False inner.tx))
    (sighted : ∀ inner, backend.Sighted part inner (work inner)) :
    backend.Sighted part ctx (backend.transact ctx work) := by
  intro s _ sound succeeds
  obtain ⟨opened, -, soundOpened, sameSeen, worked, -⟩ :=
    hindered.seen_transact stays sound succeeds
  obtain ⟨view, shown⟩ := sighted _ opened () soundOpened worked
  exact ⟨view, sameSeen.symm.trans shown⟩

variable [DecidableEq ι]

theorem sighted_hitWithin (depth : Nat) (queryId : String) :
    backend.Sighted part ctx (hitWithin backend depth ctx queryId) := by
  cases depth with
  | zero => exact nofun
  | succ depth =>
      refine hindered.sighted_transact (fun inner => ?_) fun inner => ?_
      · exact hindered.along_dropHit (hindered.along_entityWithin False.elim depth inner) queryId
      · refine .after (hindered.check inner) fun _ => ?_
        have looks : backend.Sighted part inner (backend.hits.findById inner queryId) := by
          intro s found sound succeeds
          obtain ⟨view, shown, -⟩ := hindered.told_of_findHit sound succeeds
          exact ⟨view, shown⟩
        exact looks.bind _

/-- An entity is removed only where something is seen, as the hit of its own query is looked for. -/
theorem sighted_invalidateEntity (id : ι) :
    backend.Sighted part ctx (backend.invalidateEntity ctx id) := by
  intro s
  refine hindered.sighted_transact (fun inner => ?_) (fun inner => ?_) s
  · exact hindered.along_dropEntity (hindered.along_hitWithin False.elim _ inner) id
  · refine .after (hindered.check inner) fun _ => .after (fun _ => rfl) fun key => ?_
    exact (hindered.sighted_hitWithin _ key).bind _

end Hindered

end Backend

namespace Simulation

open QueryCache.Action

variable {γ : Type} [DecidableEq ι] {setting : Setting γ ι ε} {ctx : Context} {id : ι}
  {world : World γ ε}

/-- An invalidation that succeeded read all that it came across, and nothing is left of its
entity. -/
theorem exists_legible_of_invalidated (hinders : setting.gate.Hinders)
    (sound : world.repository.Sound setting.schema)
    (succeeds : (setting.backend.invalidateEntity ctx id world).1 = .ok ()) :
    ∃ before, world.repository.seen ctx.tx = .ok before ∧
      Legible setting.schema (Reached setting.schema before.hits (.entity id)) before ∧
      ∃ after, (setting.backend.invalidateEntity ctx id world).2.repository.seen ctx.tx =
        .ok after ∧ Gone setting.schema id after := by
  have hindered := setting.hindered hinders
  obtain ⟨before, shown⟩ := hindered.sighted_invalidateEntity id world () sound succeeds
  obtain ⟨-, after, shownAfter, deciphered, gone, left, -⟩ :=
    hindered.attains_entity Deciphered.removing id world () sound shown succeeds
  exact ⟨before, shown, deciphered.legible gone left, after, shownAfter, gone⟩

/-- A deletion by the source changes nothing but the source. -/
theorem exists_source_of_delete {delete : Context → ι → Action (World γ ε) Unit}
    (offers : setting.backend.source.deleteById = some delete) (ctx : Context) (id : ι)
    (world : World γ ε) : ∃ source, (delete ctx id world).2 = { world with source } := by
  change Setting.source.offered setting .deleteById _ = some delete at offers
  unfold Setting.source.offered at offers
  split at offers
  · cases offers
    exact ⟨_, rfl⟩
  · cases offers

/-- Where the source deleted an entity, the deletion ends as the invalidation that follows. -/
theorem deleteById_of_deleted (live : ctx.check world.signals = .ok ())
    {delete : Context → ι → Action (World γ ε) Unit}
    (offers : setting.backend.source.deleteById = some delete)
    (deleted : (delete ctx id world).1 = .ok ()) :
    setting.backend.deleteById ctx id world =
      setting.backend.invalidateEntity ctx id (delete ctx id world).2 := by
  have checked : setting.backend.check ctx world = (.ok (), world) := Prod.ext live rfl
  have required : Backend.require .deleteById setting.backend.source.deleteById = .ok delete := by
    rw [offers]
    rfl
  rw [Backend.deleteById, bind_of_ok checked, required, bind_of_ok (liftM_apply _ _)]
  exact bind_of_ok (Prod.ext deleted rfl)

/-- Only what is stored can stand in the way of an entity's invalidation: the context is live, no
failure is set, and there is a query for every entity that is reached. -/
structure Unobstructed (setting : Setting γ ι ε) (ctx : Context) (id : ι) (world : World γ ε) :
    Prop where
  reachable : world.repository.Reachable setting.schema
  live : ctx.check world.signals = .ok ()
  hitsHealthy : world.repository.hits.failure = none
  entitiesHealthy : world.repository.entities.failure = none
  named : ∀ view, world.repository.seen ctx.tx = .ok view →
    ∀ other, Reached setting.schema view.hits (.entity id) (.entity other) →
      ∃ key, setting.schema.findByIdKey other = .ok key

/-- An invalidation succeeds exactly where what it comes across can be read. -/
theorem invalidateEntity_ok_iff (passes : setting.gate.Passes)
    (unobstructed : Unobstructed setting ctx id world) :
    (setting.backend.invalidateEntity ctx id world).1 = .ok () ↔
      ∃ before, world.repository.seen ctx.tx = .ok before ∧
        Legible setting.schema (Reached setting.schema before.hits (.entity id)) before := by
  have sound : world.repository.Sound setting.schema := unobstructed.reachable.sound
  constructor
  · intro succeeds
    obtain ⟨before, seen, legible, -⟩ := exists_legible_of_invalidated passes.hinders sound succeeds
    exact ⟨before, seen, legible⟩
  · rintro ⟨before, seen, legible⟩
    have undisturbed : Undisturbed setting ctx before world :=
      ⟨unobstructed.reachable, unobstructed.live, unobstructed.hitsHealthy,
        unobstructed.entitiesHealthy, seen⟩
    have sees := undisturbed.sees
    obtain ⟨after, -, -, ⟨⟩, succeeds, -⟩ :=
      ensures_invalidate_of_legible passes legible (unobstructed.named before seen) world sees
    exact succeeds

end Simulation

/-- Where nothing fails, an invalidation of an entity succeeds in a live context exactly if the
context sees something, and all hits can be read there, and the copies of all entities that are
reached. Then nothing is left of the entity; else everything is left as it was. A deletion that the
source carried out succeeds in the same cases. -/
theorem invalidation_succeeds_iff_legible [DecidableEq ι] {γ : Type}
    (setting : Simulation.Setting γ ι ε) (passes : setting.gate.Passes) (ctx : Context) (id : ι)
    (world : Simulation.World γ ε)
    (unobstructed : Simulation.Unobstructed setting ctx id world) :
    let done := setting.backend.invalidateEntity ctx id world
    (done.1 = .ok () ↔ ∃ before, world.repository.seen ctx.tx = .ok before ∧
        Legible setting.schema (Reached setting.schema before.hits (.entity id)) before) ∧
      (done.1 = .ok () → ∃ after, done.2.repository.seen ctx.tx = .ok after ∧
        Gone setting.schema id after) ∧
      (∀ e, done.1 = .error e → world.repository.Untouched done.2.repository) ∧
      ∀ delete, setting.backend.source.deleteById = some delete →
        (delete ctx id world).1 = .ok () →
          ((setting.backend.deleteById ctx id world).1 = .ok () ↔ done.1 = .ok ()) := by
  have sound : world.repository.Sound setting.schema := unobstructed.reachable.sound
  have settled := (setting.hindered passes.hinders).settled_remove False.elim ctx (.entity id) sound
  have succeeds_iff := Simulation.invalidateEntity_ok_iff passes unobstructed
  refine ⟨succeeds_iff, fun succeeds => ?_, settled.2, fun delete offers deleted => ?_⟩
  · obtain ⟨-, -, -, gone⟩ :=
      Simulation.exists_legible_of_invalidated passes.hinders sound succeeds
    exact gone
  · obtain ⟨source, same⟩ := Simulation.exists_source_of_delete offers ctx id world
    have later : Simulation.Unobstructed setting ctx id { world with source } :=
      { unobstructed with }
    rw [Simulation.deleteById_of_deleted unobstructed.live offers deleted, same,
      Simulation.invalidateEntity_ok_iff passes later]
    exact succeeds_iff.symm

namespace Simulation

/-- A world with two switches and their copies, one of which was stored under a later version of the
record format. A hit lists the other one. -/
def mixedWorld : World Unit (Entry Bool) :=
  { World.initial () [⟨true, "!ver"⟩, ⟨false, "off"⟩] 0 with
    repository := Repository.after IdKind.switch.schema
      [.request .initial .root (.upsertEntities [⟨true, "!ver"⟩, ⟨false, "off"⟩]),
        .request .initial .root (.createHit ⟨"q", [false], ⟨0, 0⟩⟩)] .empty }

theorem listed_mixedWorld (key : String) (bytes : Bytes)
    (present : mixedWorld.repository.hits.rows[key]? = some bytes) :
    ∃ hit, switchSetting.schema.decodeHit bytes = .ok hit ∧ hit.entityIds = [false] := by
  let ids (row : String × Bytes) : Option (List Bool) :=
    ((switchSetting.schema.decodeHit row.2).map Hit.entityIds).toOption
  have stored : mixedWorld.repository.hits.rows.toList.map ids = [some [false]] := by
    decide +kernel
  have member := Std.ExtTreeMap.mem_toList_iff_getElem?_eq_some.mpr present
  have isListed : ids (key, bytes) ∈ [some [false]] := stored ▸ List.mem_map_of_mem member
  have isListed : ids (key, bytes) = some [false] := List.mem_singleton.mp isListed
  cases decoded : switchSetting.schema.decodeHit bytes with
  | error e => simp [ids, decoded, Except.map, Except.toOption] at isListed
  | ok hit => exact ⟨hit, rfl, by simpa [ids, decoded, Except.map, Except.toOption] using isListed⟩

theorem legible_mixedWorld :
    let view : View := ⟨mixedWorld.repository.hits.rows, mixedWorld.repository.entities.rows⟩
    Legible switchSetting.schema
      (Reached switchSetting.schema view.hits (.entity false)) view where
  hits key bytes present := (listed_mixedWorld key bytes present).imp fun _ => And.left
  copies := by
    intro other place bytes isReached placed present
    obtain rfl : other = false := by
      cases isReached with
      | start => rfl
      | listed _ held lists =>
          obtain ⟨hitBytes, hitPresent, decoded⟩ := held
          obtain ⟨hit, sameDecoded, ids⟩ := listed_mixedWorld _ hitBytes hitPresent
          cases decoded.symm.trans sameDecoded
          simpa [ids] using lists
    have named : switchSetting.schema.entityKey false = .ok "switch:false" := by decide +kernel
    cases named.symm.trans placed
    have stored : mixedWorld.repository.entities.rows["switch:false"]?.map
        switchSetting.schema.decode = some (.ok ⟨false, "off"⟩) := by
      decide +kernel
    rw [present] at stored
    exact ⟨_, Option.some.inj stored⟩

end Simulation

/-- The switch whose copy can be read is deleted and invalidated next to the other one. -/
theorem invalidation_succeeds_iff_legible_mixedWorld :
    (Simulation.switchSetting.backend.invalidateEntity .root false Simulation.mixedWorld).1 =
        .ok () ∧
      (Simulation.switchSetting.backend.deleteById .root false Simulation.mixedWorld).1 =
        .ok () := by
  have healthy : Simulation.mixedWorld.repository.hits.failure = none ∧
      Simulation.mixedWorld.repository.entities.failure = none := by
    decide +kernel
  have named (other : Bool) :
      ∃ key, Simulation.switchSetting.schema.findByIdKey other = .ok key :=
    Simulation.names_switch.exists_findByIdKey other
  obtain ⟨succeeds_iff, -, -, deletes⟩ :=
    invalidation_succeeds_iff_legible Simulation.switchSetting (fun _ _ => rfl) .root false
      Simulation.mixedWorld ⟨⟨_, rfl⟩, rfl, healthy.1, healthy.2, fun _ _ other _ => named other⟩
  have succeeds := succeeds_iff.mpr ⟨_, rfl, Simulation.legible_mixedWorld⟩
  exact ⟨succeeds, (deletes _ rfl (by decide +kernel)).mpr succeeds⟩

/-- The other switch cannot be invalidated, and when it is deleted its copy stays. -/
theorem unreadable_copy_not_invalidated :
    let setting := Simulation.switchSetting
    let invalidated := setting.backend.invalidateEntity .root true Simulation.mixedWorld
    let deleted := setting.backend.deleteById .root true Simulation.mixedWorld
    setting.schema.findByIdKey true = .ok "[\"FindByID\",\x7b\"ID\":true\x7d]" ∧
      invalidated.1 = .error (.versionMismatch 1 2) ∧
      invalidated.2.repository.entities.rows["switch:true"]?.isSome ∧
      deleted.1 = .error (.versionMismatch 1 2) ∧
      deleted.2.source.rows = [⟨false, "off"⟩] ∧
      deleted.2.repository.entities.rows["switch:true"]?.isSome := by
  decide +kernel

end QueryCache
