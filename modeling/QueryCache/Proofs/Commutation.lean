import QueryCache.Proofs.Attainment

/-!
# The order of invalidations

Invalidations leave the same behind in whatever order they are made, and however often each of them
is made; the order in which a store lists its hits is of no importance either.

What one invalidation removes is closed under going together (`Closed`). So whatever a later start
reached before, it still reaches, or it is gone already (`Closed.gone_or_reached`): together the
invalidations remove exactly what was reached from any of their starts in the beginning. This set
depends on the members of the list of starts only.
-/

namespace QueryCache

variable {ι ε : Type} {schema : Schema ι ε}

/-- A view from which nodes were taken: exactly their hits and their copies are missing. -/
structure Purged (schema : Schema ι ε) (gone : Node ι → Prop) (earlier later : View) : Prop where
  hits : ∀ (key : String) bytes, later.hits[key]? = some bytes ↔
    earlier.hits[key]? = some bytes ∧ ¬ gone (.hit key)
  copies : ∀ (key : String) bytes, later.copies[key]? = some bytes ↔
    earlier.copies[key]? = some bytes ∧ ¬ ∃ id, gone (.entity id) ∧ schema.entityKey id = .ok key

namespace Purged

variable {gone : Node ι → Prop} {earlier middle later : View}

theorem of_swept {start : Node ι}
    (swept : Swept schema (Reached schema earlier.hits start) earlier later)
    (startGone : start.Gone schema later) :
    Purged schema (Reached schema earlier.hits start) earlier later :=
  ⟨(swept.exact startGone).1, (swept.exact startGone).2⟩

theorem sub (purged : Purged schema gone earlier later) : View.Sub later earlier where
  hits key bytes kept := ((purged.hits key bytes).mp kept).1
  copies key bytes kept := ((purged.copies key bytes).mp kept).1

theorem refl (none : ∀ node, ¬ gone node) (view : View) : Purged schema gone view view where
  hits key bytes := (and_iff_left (none _)).symm
  copies key bytes := by
    refine (and_iff_left ?_).symm
    rintro ⟨id, isGone, -⟩
    exact none _ isGone

theorem trans {first second : Node ι → Prop} (purged : Purged schema first earlier middle)
    (purgedMore : Purged schema second middle later)
    (both : ∀ node, gone node ↔ first node ∨ second node) : Purged schema gone earlier later where
  hits key bytes := by
    rw [purgedMore.hits, purged.hits, both, not_or, and_assoc]
  copies key bytes := by
    rw [purgedMore.copies, purged.copies, and_assoc]
    simp only [both, or_and_right, exists_or, not_or]

/-- What is left where nodes were taken is determined by them. -/
theorem unique {other : View} (purged : Purged schema gone earlier later)
    (purgedOther : Purged schema gone earlier other) : later = other := by
  have hits : later.hits = other.hits := Overlay.rows_ext fun key =>
    Option.ext fun bytes => (purged.hits key bytes).trans (purgedOther.hits key bytes).symm
  have copies : later.copies = other.copies := Overlay.rows_ext fun key =>
    Option.ext fun bytes => (purged.copies key bytes).trans (purgedOther.copies key bytes).symm
  cases later
  cases other
  cases hits
  cases copies
  rfl

/-- A hit that was there and was not taken is still held. -/
theorem hold (purged : Purged schema gone earlier later) {key : String} {hit : Hit ι}
    (held : earlier.hits.Hold schema key hit) (kept : ¬ gone (.hit key)) :
    later.hits.Hold schema key hit := by
  obtain ⟨bytes, present, decoded⟩ := held
  exact ⟨bytes, (purged.hits key bytes).mpr ⟨present, kept⟩, decoded⟩

end Purged

theorem Reached.sub {earlier later : Rows} (sub : later.Sub earlier) {start node : Node ι}
    (isReached : Reached schema later start node) : Reached schema earlier start node := by
  induction isReached with
  | start => exact .start
  | own _ named stored inductionHypothesis =>
      exact .own inductionHypothesis named (sub.isSome stored)
  | listing _ held lists inductionHypothesis =>
      exact .listing inductionHypothesis (sub.hold held) lists
  | listed _ held lists inductionHypothesis =>
      exact .listed inductionHypothesis (sub.hold held) lists

/-- Where nodes were taken that go together only among themselves, another start still reaches what
it reached before, but for what was taken. -/
theorem Closed.gone_or_reached {gone : Node ι → Prop} {earlier later : View}
    (closed : Closed schema earlier.hits gone) (purged : Purged schema gone earlier later)
    {start node : Node ι} (isReached : Reached schema earlier.hits start node) :
    gone node ∨ Reached schema later.hits start node := by
  induction isReached with
  | start => exact .inr .start
  | @own id key _ named stored inductionHypothesis =>
      by_cases taken : gone (.hit key)
      · exact .inl taken
      · obtain ⟨bytes, present⟩ := Option.isSome_iff_exists.mp stored
        have still := (purged.hits key bytes).mpr ⟨present, taken⟩
        refine inductionHypothesis.imp (closed.own id key · named stored) fun reachedStill => ?_
        exact .own reachedStill named (Option.isSome_iff_exists.mpr ⟨bytes, still⟩)
  | @listing id key hit _ held lists inductionHypothesis =>
      by_cases taken : gone (.hit key)
      · exact .inl taken
      · exact inductionHypothesis.imp (closed.listing id key hit · held lists) fun reachedStill =>
          .listing reachedStill (purged.hold held taken) lists
  | @listed key hit id _ held lists inductionHypothesis =>
      by_cases taken : gone (.hit key)
      · exact .inl (closed.listed key hit id taken held lists)
      · exact inductionHypothesis.imp (closed.listed key hit id · held lists) fun reachedStill =>
          .listed reachedStill (purged.hold held taken) lists

/-- What goes together with any of some starts. -/
def ReachedFrom (schema : Schema ι ε) (rows : Rows) (starts : List (Node ι)) (node : Node ι) :
    Prop :=
  ∃ start ∈ starts, Reached schema rows start node

theorem reachedFrom_congr {rows : Rows} {starts others : List (Node ι)}
    (same : ∀ start, start ∈ starts ↔ start ∈ others) :
    ReachedFrom schema rows others = ReachedFrom schema rows starts := by
  funext node
  simp only [ReachedFrom, same]

/-- What is taken with the first start and then with the others is what all of them reached in the
beginning. -/
theorem reachedFrom_cons {earlier later : View} {start : Node ι}
    (purged : Purged schema (Reached schema earlier.hits start) earlier later)
    (starts : List (Node ι)) (node : Node ι) :
    ReachedFrom schema earlier.hits (start :: starts) node ↔
      Reached schema earlier.hits start node ∨ ReachedFrom schema later.hits starts node := by
  rw [ReachedFrom, List.exists_mem_cons_iff]
  constructor
  · rintro (isReached | ⟨other, member, isReached⟩)
    · exact .inl isReached
    · refine ((closed_reached _ start).gone_or_reached purged isReached).imp_right ?_
      exact fun reachedStill => ⟨other, member, reachedStill⟩
  · rintro (isReached | ⟨other, member, isReached⟩)
    · exact .inl isReached
    · exact .inr ⟨other, member, isReached.sub purged.sub.hits⟩

/-- Invalidations one after the other. -/
def Backend.invalidateAll {σ : Type} [DecidableEq ι] (backend : Backend σ ι ε) (ctx : Context)
    (starts : List (Node ι)) : Action σ Unit :=
  Action.each (backend.invalidate ctx) starts

namespace Backend

open QueryCache.Action Invalidation Repository

variable {σ α β : Type} {backend : Backend σ ι ε} {part : σ → Repository} {ctx : Context}

/-- Where its context sees nothing, an action fails, and opens and closes no transaction. -/
def Blind (backend : Backend σ ι ε) (part : σ → Repository) (ctx : Context)
    (action : Action σ α) : Prop :=
  ∀ s, (part s).Sound backend.schema → (∀ view, (part s).seen ctx.tx ≠ .ok view) →
    (∃ e, (action s).1 = .error e) ∧
      Guided backend.schema True ctx.tx (part s) (part (action s).2)

theorem Blind.bind {first : Action σ α} (blind : backend.Blind part ctx first)
    (second : α → Action σ β) : backend.Blind part ctx (first >>= second) := by
  intro s sound unseen
  obtain ⟨⟨e, failed⟩, guided⟩ := blind s sound unseen
  have ended : first s = (.error e, (first s).2) := Prod.ext failed rfl
  rw [bind_of_error ended]
  exact ⟨⟨e, rfl⟩, guided⟩

theorem Blind.after {first : Action σ α} {second : α → Action σ β}
    (leaves : ∀ s, part (first s).2 = part s)
    (blind : ∀ value, backend.Blind part ctx (second value)) :
    backend.Blind part ctx (first >>= second) := by
  intro s sound unseen
  have same := leaves s
  rw [bind_apply]
  generalize first s = ended at same ⊢
  obtain ⟨e | value, middle⟩ := ended
  · exact ⟨⟨e, rfl⟩, stays_of_eq same sound⟩
  · rw [← same] at sound unseen ⊢
    exact blind value middle sound unseen

namespace Hindered

variable (hindered : backend.Hindered part)
include hindered

theorem blind_findHit (queryId : String) :
    backend.Blind part ctx (backend.hits.findById ctx queryId) := by
  intro s sound unseen
  have same : part (backend.hits.findById ctx queryId s).2 = part s :=
    hindered.perform_of_reads (.findHit queryId) rfl
  refine ⟨?_, stays_of_eq same sound⟩
  cases found : (backend.hits.findById ctx queryId s).1 with
  | error e => exact ⟨e, rfl⟩
  | ok hit =>
      obtain ⟨view, shown, -⟩ := hindered.told_of_findHit sound found
      exact absurd shown (unseen view)

variable (ends : backend.EndsAct part)
include ends

/-- A transaction shows no more than is seen around it, and it is rolled back. -/
theorem blind_transact {work : Context → Action σ Unit}
    (blind : ∀ inner, backend.Blind part inner (work inner)) :
    backend.Blind part ctx (backend.transact ctx work) := by
  intro s sound unseen
  rw [transact]
  rcases hindered.begin_cases sound with ⟨e, failed, same⟩ | ⟨parentOpen, begun, same⟩
  · have ended : backend.begin ctx s = (.error e, (backend.begin ctx s).2) := Prod.ext failed rfl
    rw [bind_of_error ended]
    refine ⟨⟨e, rfl⟩, ?_⟩
    rcases same with same | same
    · exact stays_of_eq same sound
    · rw [same]
      exact ⟨sound.numbered, .numbered ctx.tx _, fun _ _ => rfl⟩
  · let inner := ctx.withTx ((part s).lastTx + 1)
    have began : backend.begin ctx s = (.ok inner, (backend.begin ctx s).2) := Prod.ext begun rfl
    rw [bind_of_ok began]
    generalize (backend.begin ctx s).2 = opened at same
    have soundOpened : (part opened).Sound backend.schema := same ▸ sound.opening parentOpen
    have unseenInner view : (part opened).seen inner.tx ≠ .ok view := by
      have shown := seen_opening sound (same ▸ soundOpened)
      rw [same]
      exact shown ▸ unseen view
    obtain ⟨⟨e, failed⟩, guided⟩ := blind inner opened soundOpened unseenInner
    rw [same] at guided
    have atEnd := AtEnd.of_guided sound parentOpen guided ctx
    rw [attempt_bind_of_eq failed]
    exact ⟨⟨e, rfl⟩, (atEnd.guided_rollback (ends inner _).2 ctx.tx).1⟩

variable [DecidableEq ι] (arrange : σ → List (Hit ι) → List (Hit ι))

theorem blind_hitWithin (depth : Nat) (queryId : String) :
    backend.Blind part ctx (hitWithin (backend.arranged arrange) depth ctx queryId) := by
  cases depth with
  | zero => exact fun s sound _ => ⟨⟨_, rfl⟩, .refl sound⟩
  | succ depth =>
      refine hindered.blind_transact ends fun inner => ?_
      exact .after (hindered.check inner) fun _ => (hindered.blind_findHit queryId).bind _

theorem blind_invalidate (start : Node ι) :
    backend.Blind part ctx ((backend.arranged arrange).invalidate ctx start) := by
  intro s
  cases start with
  | hit queryId => exact hindered.blind_hitWithin ends arrange _ queryId s
  | entity id =>
      refine hindered.blind_transact ends (fun inner => ?_) s
      refine .after (hindered.check inner) fun _ => .after (fun _ => rfl) fun key => ?_
      exact (hindered.blind_hitWithin ends arrange _ key).bind _

/-- Where nothing is seen, nothing is seen after invalidations either. -/
theorem unseen_invalidateAll (starts : List (Node ι)) {s : σ}
    (sound : (part s).Sound backend.schema)
    (unseen : ∀ view, (part s).seen ctx.tx ≠ .ok view) (view : View) :
    (part ((backend.arranged arrange).invalidateAll ctx starts s).2).seen ctx.tx ≠ .ok view := by
  cases starts with
  | nil => exact unseen view
  | cons start starts =>
      have blind : backend.Blind part ctx
          ((backend.arranged arrange).invalidateAll ctx (start :: starts)) :=
        (hindered.blind_invalidate ends arrange start).bind _
      have guided := (blind s sound unseen).2
      intro shown
      have isOpen := (exists_seen_iff guided.sound).mp ⟨view, shown⟩
      obtain ⟨before, shownBefore⟩ := (exists_seen_iff sound).mpr
        (isOpen.congr fun tx => (guided.opened trivial tx).symm)
      exact unseen before shownBefore

end Hindered

end Backend

namespace Simulation

variable {γ : Type} [DecidableEq ι] {setting : Setting γ ι ε} {scene : Scene ε} {ctx : Context}
  {view : View}

/-- Invalidations take what is reached from any of their starts. -/
theorem ensures_invalidateAll (passes : setting.gate.Passes)
    {arrange : World γ ε → List (Hit ι) → List (Hit ι)}
    (arranges : ∀ world hits, (arrange world hits).Perm hits)
    (readable : Readable setting.schema view) {starts : List (Node ι)}
    (named : ∀ id, .entity id ∈ starts → ∃ key, setting.schema.findByIdKey id = .ok key) :
    Ensures setting.schema scene ctx view
      ((setting.backend.arranged arrange).invalidateAll ctx starts) fun _ later =>
        Purged setting.schema (ReachedFrom setting.schema view.hits starts) view later := by
  induction starts generalizing view with
  | nil =>
      refine ensures_pure (.refl ?_ view)
      rintro node ⟨start, member, -⟩
      cases member
  | cons start starts inductionHypothesis =>
      have startNamed id (same : start = .entity id) :=
        named id (same ▸ List.mem_cons_self)
      have legible := readable.legible (Reached setting.schema view.hits start)
      refine Ensures.bind (ensures_invalidate_scanning passes (scans_arranged passes arranges)
        legible fun id => readable.named startNamed) ?_
      rintro _ middle ⟨swept, gone⟩
      have purged := Purged.of_swept swept gone
      -- The others start from what the first one left, where they may reach less than before.
      refine Ensures.weaken (inductionHypothesis (readable.sub purged.sub) fun id member => ?_) ?_
      · exact named id (List.mem_cons_of_mem _ member)
      · intro _ later purgedRest
        exact purged.trans purgedRest (reachedFrom_cons purged starts)

/-- A world with the copies of four entries, and with hits that list them crosswise. -/
def crossedWorld : World Unit (Entry UInt64) :=
  { World.initial () [] 0 with
    repository := Repository.after IdKind.natural.schema
      [.request .initial .root (.upsertEntities [⟨6, "w"⟩, ⟨7, "x"⟩, ⟨8, "y"⟩, ⟨9, "z"⟩]),
        .request .initial .root (.createHit ⟨"p", [7, 8], ⟨0, 0⟩⟩),
        .request .initial .root (.createHit ⟨"q", [8, 9], ⟨0, 0⟩⟩),
        .request .initial .root (.createHit ⟨"r", [6], ⟨0, 0⟩⟩)] .empty }

end Simulation

/-- Where nothing fails, invalidations with the same starts leave the same to be seen in a live
context, in whatever order they are made, however often each of them is made, and in whatever order
hits are listed at each scan. If the context is open they all succeed, and what they remove is what
was reached from any of the starts before the first of them. -/
theorem invalidations_commute [DecidableEq ι] {γ : Type} (setting : Simulation.Setting γ ι ε)
    (passes : setting.gate.Passes) (ctx : Context) (world : Simulation.World γ ε)
    (reachable : world.repository.Reachable setting.schema)
    (live : ctx.check world.signals = .ok ())
    (hitsHealthy : world.repository.hits.failure = none)
    (entitiesHealthy : world.repository.entities.failure = none)
    (readable : ∀ view, world.repository.seen ctx.tx = .ok view → Readable setting.schema view)
    (starts others : List (Node ι)) (same : ∀ start, start ∈ starts ↔ start ∈ others)
    (named : ∀ id, .entity id ∈ starts → ∃ key, setting.schema.findByIdKey id = .ok key)
    (arrange rearrange : Simulation.World γ ε → List (Hit ι) → List (Hit ι))
    (arranges : ∀ world hits, (arrange world hits).Perm hits)
    (rearranges : ∀ world hits, (rearrange world hits).Perm hits) :
    let done := (setting.backend.arranged arrange).invalidateAll ctx starts world
    let redone := (setting.backend.arranged rearrange).invalidateAll ctx others world
    (∀ view, done.2.repository.seen ctx.tx = .ok view ↔
      redone.2.repository.seen ctx.tx = .ok view) ∧
    ∀ before, world.repository.seen ctx.tx = .ok before →
      done.1 = .ok () ∧ redone.1 = .ok () ∧
      ∃ after, done.2.repository.seen ctx.tx = .ok after ∧
        Purged setting.schema (ReachedFrom setting.schema before.hits starts) before after := by
  have sound : world.repository.Sound setting.schema := reachable.sound
  by_cases unseen : ∀ view, world.repository.seen ctx.tx ≠ .ok view
  · have hindered := setting.hindered passes.hinders
    have ends : setting.backend.EndsAct Simulation.World.repository :=
      setting.endsAct passes.hinders fun call state e _ => by rw [passes]; nofun
    refine ⟨fun view => ?_, fun before seen => absurd seen (unseen before)⟩
    exact iff_of_false (hindered.unseen_invalidateAll ends arrange starts sound unseen view)
      (hindered.unseen_invalidateAll ends rearrange others sound unseen view)
  · obtain ⟨before, seen⟩ := not_forall_not.mp unseen
    have undisturbed : Simulation.Undisturbed setting ctx before world :=
      ⟨reachable, live, hitsHealthy, entitiesHealthy, seen⟩
    have sees := undisturbed.sees
    have namedOthers id (member : .entity id ∈ others) := named id ((same _).mpr member)
    -- Both runs leave the one view in which exactly what was reached from the starts is missing.
    obtain ⟨after, seesAfter, -, ⟨⟩, succeeds, purged⟩ :=
      Simulation.ensures_invalidateAll passes arranges (readable before seen) named world sees
    obtain ⟨other, seesOther, -, ⟨⟩, succeedsOther, purgedOther⟩ :=
      Simulation.ensures_invalidateAll passes rearranges (readable before seen) namedOthers world
        sees
    have sameAfter : after = other := purged.unique (reachedFrom_congr same ▸ purgedOther)
    have seenAfter := Repository.seen_eq_ok.mpr ⟨seesAfter.hits.view, seesAfter.copies.view⟩
    have seenOther := Repository.seen_eq_ok.mpr ⟨seesOther.hits.view, seesOther.copies.view⟩
    rw [← sameAfter] at seenOther
    refine ⟨fun view => by rw [seenAfter, seenOther], ?_⟩
    intro shown seenShown
    cases seen.symm.trans seenShown
    exact ⟨succeeds, succeedsOther, after, seenAfter, purged⟩

theorem invalidations_commute_crossedWorld :
    let backend := Simulation.openSetting.backend
    let reversed := backend.arranged fun _ hits => hits.reverse
    let starts : List (Node UInt64) := [.entity 7, .hit "r"]
    let others : List (Node UInt64) := [.hit "r", .entity 7, .hit "r"]
    let done := (backend.arranged fun _ hits => hits).invalidateAll .root starts
      Simulation.crossedWorld
    let redone := reversed.invalidateAll .root others Simulation.crossedWorld
    done.1 = .ok () ∧ redone.1 = .ok () ∧
      ∀ view, done.2.repository.seen none = .ok view ↔
        redone.2.repository.seen none = .ok view := by
  let before : View :=
    ⟨Simulation.crossedWorld.repository.hits.rows, Simulation.crossedWorld.repository.entities.rows⟩
  have readable : Readable Simulation.openSetting.schema before :=
    .of_isReadable (by decide +kernel)
  have healthy : Simulation.crossedWorld.repository.hits.failure = none ∧
      Simulation.crossedWorld.repository.entities.failure = none := by
    decide +kernel
  have named (id : UInt64)
      (member : Node.entity id ∈ [Node.entity 7, .hit "r"]) :
      ∃ key, Simulation.openSetting.schema.findByIdKey id = .ok key := by
    obtain rfl : id = 7 := by simpa using member
    exact ⟨_, rfl⟩
  obtain ⟨alike, succeed⟩ :=
    invalidations_commute Simulation.openSetting Simulation.openSetting_passes .root
      Simulation.crossedWorld ⟨_, rfl⟩ rfl healthy.1 healthy.2
      (fun view seen => by cases seen; exact readable)
      [.entity 7, .hit "r"] [.hit "r", .entity 7, .hit "r"] (by simp [or_comm])
      named (fun _ hits => hits) (fun _ hits => hits.reverse)
      (fun _ _ => .refl _) (fun _ hits => hits.reverse_perm)
  obtain ⟨succeeds, succeedsReversed, -⟩ := succeed before rfl
  exact ⟨succeeds, succeedsReversed, alike⟩

end QueryCache
