import QueryCache.Proofs.Repair

/-!
# What a write makes a cache forget

A deletion that succeeded left no cached query that lists its entity, and neither did a replacement
whose copy could not be replaced. The next query of such a text then asks the source, and remembers
what it answers. A replacement that did replace the copy is the exception: it leaves every cached
query as it is, so that one goes on listing an entity that it might no longer find.
-/

namespace QueryCache

open QueryCache.Action (attempt_apply bind_apply bind_of_ok exists_of_bind_apply_eq_ok)

variable {ι ε : Type}

/-- A hit that lists an entity is gone with the entity. -/
theorem Gone.absent_of_listing {schema : Schema ι ε} {id : ι} {earlier later : View}
    (gone : Gone schema id later) (sub : View.Sub later earlier) {key : String} {hit : Hit ι}
    (held : earlier.hits.Hold schema key hit) (lists : id ∈ hit.entityIds) :
    later.hits[key]? = none := by
  obtain ⟨bytes, present, decoded⟩ := held
  cases kept : later.hits[key]? with
  | none => rfl
  | some left =>
      have same := sub.hits key left kept
      rw [present] at same
      cases same
      exact absurd lists (gone.unlisted key hit ⟨bytes, kept, decoded⟩)

namespace Simulation

variable {γ : Type} [DecidableEq ι] {setting : Setting γ ι ε}

/-- A query that is not cached asks the source, and remembers the answer. -/
theorem queryMany_eq_ask_of_absent (passes : setting.gate.Passes) {scene : Scene ε}
    {ctx : Context} {view : View} {world : World γ ε}
    (sees : Sees setting.schema scene ctx view world) {key : String}
    (absent : view.hits[key]? = none) :
    ∃ gate, ∀ query, setting.backend.queryMany ctx key query world =
      setting.backend.ask ctx key query { world with gate } := by
  obtain ⟨gate, found⟩ := findHit_of_absent passes sees absent
  refine ⟨gate, fun query => ?_⟩
  unfold Backend.queryMany
  rw [bind_of_ok (check_apply sees), bind_apply, attempt_apply, found]

/-- A query of a text asks the source, whatever it asks for, and remembers the answer. -/
def Setting.Asks (setting : Setting γ ι ε) (ctx : Context) (key : String) (world : World γ ε) :
    Prop :=
  ∃ gate,
    (∀ query, setting.backend.queryMany ctx key query world =
      setting.backend.ask ctx key query { world with gate }) ∧
    ∀ query : Action (World γ ε) (Option ε), setting.backend.queryOne ctx key query world =
      (do return (← setting.backend.ask ctx key (do return (← query).toList)).head?)
        { world with gate }

/-- The copy of an entity is replaced after the entity was replaced in the source. -/
def Setting.Overwrites (setting : Setting γ ι ε) (ctx : Context) (world : World γ ε)
    (entity : ε) : Prop :=
  ((do
    setting.sourceUpdate ctx entity
    setting.backend.entities.update ctx entity : Action (World γ ε) Unit) world).1 = .ok ()

/-- No copy is replaced where there is none, so that a replacement of what is not copied forgets
it. -/
theorem not_overwrites_of_uncopied (hindered : setting.backend.Hindered World.repository)
    {ctx : Context} (outside : ctx.tx = none) {world : World γ ε}
    (sound : world.repository.Sound setting.schema) {entity : ε}
    (uncopied : ∀ key, setting.schema.entityKey (setting.schema.idOf entity) = .ok key →
      world.repository.committed.copies[key]? = none) : ¬ setting.Overwrites ctx world entity := by
  intro overwrites
  obtain ⟨_, -, replaced, -⟩ := exists_of_bind_apply_eq_ok overwrites
  have same : (setting.sourceUpdate ctx entity world).2.repository = world.repository := rfl
  obtain ⟨-, key, bytes, named, present, -⟩ :=
    (hindered.attains_updateEntity entity).outside outside (same ▸ sound) replaced
  rw [same] at present
  exact present (uncopied key named)

/-- A write that does away with every cached query that lists its entity, if it succeeds. -/
def Setting.Forgets (setting : Setting γ ι ε) (ctx : Context) (world : World γ ε) :
    Write ι ε → Prop
  | .create _ => False
  | .update entity => ¬ setting.Overwrites ctx world entity
  | .deleteById _ => True

/-- A write that forgets its entity left nothing of it, and nothing that was not there before. -/
theorem gone_write (hindered : setting.backend.Hindered World.repository)
    (distinct : setting.schema.Distinct) {ctx : Context} (outside : ctx.tx = none)
    {world done : World γ ε} (sound : world.repository.Sound setting.schema) {write : Write ι ε}
    {id : ι} (forgets : setting.Forgets ctx world write)
    (ends : setting.backend.write ctx write world = ((.ok (), id), done)) :
    done.repository.Sound setting.schema ∧
      Trims setting.schema world.repository.committed done.repository.committed ∧
      Gone setting.schema id done.repository.committed := by
  cases write with
  | create entity => exact forgets.elim
  | update entity =>
      simp only [Backend.write, Prod.mk.injEq] at ends
      obtain ⟨⟨succeeds, rfl⟩, rfl⟩ := ends
      obtain ⟨updated, changed, -, replaced | ⟨-, refused, untouched, invalidated⟩⟩ :=
        exists_of_update hindered (Prod.ext succeeds rfl)
      · refine absurd ?_ forgets
        rw [Setting.Overwrites, bind_of_ok changed, replaced]
      · have attained := (hindered.attains_invalidateEntity distinct _).outside outside
          (untouched ▸ sound) (congrArg Prod.fst invalidated)
        rwa [invalidated, untouched] at attained
  | deleteById id =>
      simp only [Backend.write, Prod.mk.injEq] at ends
      obtain ⟨⟨succeeds, rfl⟩, rfl⟩ := ends
      exact (hindered.attains_deleteById setting.apart distinct id).outside outside sound succeeds

/-- However many calls failed meanwhile, after a deletion that succeeded, and after a replacement
that succeeded without replacing the copy, no cached query lists the entity; and each query that
listed it asks the source the next time. -/
theorem no_hit_lists_written (setting : Setting γ ι ε) (hinders : setting.gate.Hinders)
    (distinct : setting.schema.Distinct) (ctx : Context) (outside : ctx.tx = none)
    (write : Write ι ε) (id : ι) (world done : World γ ε)
    (writes : setting.Writes ctx write id world done) (forgets : setting.Forgets ctx world write)
    (calm : Calm γ ι) (readerOutside : calm.reader.tx = none) :
    (∀ key hit, done.repository.hits.rows.Hold setting.schema key hit → id ∉ hit.entityIds) ∧
      ∀ key hit, world.repository.hits.rows.Hold setting.schema key hit → id ∈ hit.entityIds →
        (setting.during calm).Asks calm.reader key (done.during calm) := by
  obtain ⟨sound, trims, gone⟩ := gone_write (setting.hindered hinders) distinct outside
    writes.reachable.sound forgets writes.ends
  refine ⟨gone.unlisted, fun key hit held lists => ?_⟩
  have shown : done.repository.seen calm.reader.tx = .ok done.repository.committed := by
    rw [readerOutside, Repository.seen_outside]
  obtain ⟨asking, asks⟩ := queryMany_eq_ask_of_absent calm.passes (calm.sees sound shown)
    (gone.absent_of_listing trims.sub held lists)
  refine ⟨asking, asks, fun query => ?_⟩
  unfold Backend.queryOne
  rw [bind_apply, asks, bind_apply]

/-- A world in which a switch is copied, and listed by a cached query. -/
def shownWorld : World Unit (Entry Bool) :=
  (switchSetting.backend.queryMany .root "on" (pure [⟨true, "on"⟩])
    (World.initial () [⟨true, "on"⟩] 0)).2

theorem reachable_shownWorld : shownWorld.repository.Reachable IdKind.switch.schema :=
  ⟨[.request .initial .root (.upsertEntities [⟨true, "on"⟩]),
    .request .initial .root (.createHit ⟨"on", [true], ⟨0, 0⟩⟩)], rfl⟩

/-- The switch is replaced, but its copy cannot be, so that the query is asked again. -/
theorem no_hit_lists_written_shownWorld :
    let replaced := updatesSetting.backend.write .root (.update ⟨true, "off"⟩) shownWorld
    (∀ key hit, replaced.2.repository.hits.rows.Hold IdKind.switch.schema key hit →
      true ∉ hit.entityIds) ∧
      switchSetting.Asks .root "on" (replaced.2.during calmStart) := by
  intro replaced
  have written : replaced.1 = (.ok (), true) := by decide +kernel
  have forgets : ¬ updatesSetting.Overwrites .root shownWorld ⟨true, "off"⟩ := by
    unfold Setting.Overwrites
    decide +kernel
  have isListed : shownWorld.repository.hits.rows.listed IdKind.switch.schema "on" =
      some [true] := by
    decide +kernel
  obtain ⟨hit, held, ids⟩ := Rows.exists_hold_of_listed isListed
  obtain ⟨unlisted, asks⟩ := no_hit_lists_written updatesSetting stuckUpdates_hinders
    names_switch.distinct .root rfl (.update ⟨true, "off"⟩) true shownWorld _
    ⟨reachable_shownWorld, Prod.ext written rfl⟩ forgets calmStart rfl
  exact ⟨unlisted, asks "on" hit held (by simp [ids])⟩

/-- The switch is replaced together with its copy, and the query still lists it: the query is not
asked again, and answers what it would no more find. -/
theorem hit_lists_written_shownWorld :
    let replaced := switchSetting.backend.write .root (.update ⟨true, "off"⟩) shownWorld
    replaced.1 = (.ok (), true) ∧
      replaced.2.repository.hits.rows.listed IdKind.switch.schema "on" = some [true] ∧
      (switchSetting.backend.queryMany .root "on" (pure []) replaced.2).1 =
        .ok [⟨true, "off"⟩] := by
  decide +kernel

end Simulation

end QueryCache
