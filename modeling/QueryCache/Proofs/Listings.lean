import QueryCache.Proofs.Commutation
import QueryCache.Proofs.Reports
import QueryCache.Proofs.Surroundings

/-!
# The order in which hits are listed

A store promises nothing about the order in which it lists its hits, and that order may be another
one at each scan. Only removals scan. Where all that a context sees can be read, a removal takes
exactly what is reached from its start, whatever the orders are; so two contexts that see the same
still see the same after it, and everything else that is asked of a cache ends as it does where the
orders are the same.

What cannot be read is another matter: a removal fails at the first record of that kind it comes
to, and which one that is depends on the orders.
-/

namespace QueryCache

open QueryCache.Action Repository

variable {σ τ ρ ι ε : Type}

/-- Of the rest, only the signals. -/
def Layout.signaled (layout : Layout σ ρ) (signals : ρ → Signals) : Layout σ Signals :=
  { layout with rest := fun s => signals (layout.rest s) }

theorem Backend.Direct.signaled {backend : Backend σ ι ε} {layout : Layout σ ρ}
    {signals : ρ → Signals} (direct : backend.Direct layout signals) :
    backend.Direct (layout.signaled signals) id where
  request ctx request s := by
    obtain ⟨outcome, part, orders, rest⟩ := direct.request ctx request s
    exact ⟨outcome, part, orders, congrArg signals rest⟩
  check := direct.check
  record event s := by
    obtain ⟨succeeds, rest, kept⟩ := direct.record event s
    exact ⟨succeeds, congrArg signals rest, kept.part, kept.orders⟩
  nesting := direct.nesting

namespace Simulation

/-- A gate that does nothing. -/
def Gate.idle {γ : Type} : Gate γ ι := ⟨fun _ state => (.pass, state), fun _ => 0⟩

/-- A cache behind a gate that does nothing, in front of a plain source. -/
def Setting.bare (schema : Schema ι ε) : Setting Orders ι ε := ⟨schema, .idle, .plain, false⟩

/-- A world of a repository, the orders of the scans and the signals. -/
def World.bare (repository : Repository) (orders : Orders) (signals : Signals) : World Orders ε :=
  { World.initial orders [] 0 with repository, signals }

/-- In whatever order the next scan lists them, all hits that are held are listed. -/
theorem Setting.scans [DecidableEq ι] (setting : Setting Orders ι ε) (scene : Scene ε) :
    Scans setting scene setting.scan := by
  intro ctx view readable world sees
  obtain ⟨hits, read, listed⟩ := Hits.ofRowsIn_of_readable (world.gate 0) readable
  have ends : Ends setting.schema scene ctx view
      (World.onHits fun signals => Hits.findAllIn setting.schema signals (world.gate 0) ctx :
        Action (World Orders ε) (List (Hit ι)))
      (Hits.ofRowsIn setting.schema (world.gate 0) view.hits) view := by
    apply ends_onHits
    · exact Hits.along_findAllIn _ _ _ _
    · exact Hits.turns_findAllIn _ _
  obtain ⟨_, seesLater, frame, found, rfl⟩ := ends world sees
  refine ⟨_, ⟨seesLater.inScene, seesLater.sound, seesLater.hits, seesLater.copies⟩, frame, hits,
    found.trans read, rfl, listed⟩

end Simulation

/-- The rest of two states is the same. -/
def Layout.SameRest (layout : Layout σ ρ) (s u : σ) : Prop := layout.rest u = layout.rest s

instance (layout : Layout σ ρ) : IsPreorder σ layout.SameRest where
  refl _ := rfl
  trans _ _ _ first second := Eq.trans second first

namespace Backend.Direct

open Invalidation
open Simulation (Setting Sees World)

variable [DecidableEq ι] {backend : Backend σ ι ε} {layout : Layout σ ρ} {signals : ρ → Signals}
  (direct : backend.Direct layout signals) {ctx : Context} {s : σ} {base : Repository} {view : View}
  {start : Node ι}
include direct

theorem rest_invalidate (start : Node ι) :
    layout.rest (backend.invalidate ctx start s).2 = layout.rest s := by
  have advances : backend.Advances layout.SameRest := by
    constructor
    · exact fun ctx request u => (direct.request ctx request u).2.2.2
    · intro ctx u
      rw [Layout.SameRest, direct.check]
    · exact fun key u => (direct.record (.invalidation key) u).2.1
  cases start with
  | entity id => exact advances.along_invalidateEntity id s
  | hit queryId => exact advances.along_invalidateQuery queryId s

/-- Where its context has ended, a removal does nothing. -/
theorem invalidate_of_ended (start : Node ι)
    (stands : Stands backend.schema ctx base view (layout.part s)) {e : Error}
    (ended : ctx.check (signals (layout.rest s)) = .error e) :
    (backend.invalidate ctx start s).1 = .error e ∧
      layout.part (backend.invalidate ctx start s).2 = layout.part s := by
  obtain ⟨failed, same, -⟩ := direct.begin_of_ended ended
  have stopped (work : Context → Action σ Unit) :
      backend.transact ctx work s = (.error e, (backend.begin ctx s).2) :=
    bind_of_error (Prod.ext failed rfl)
  cases start with
  | entity id =>
      change (backend.transact ctx _ s).1 = _ ∧ layout.part (backend.transact ctx _ s).2 = _
      rw [stopped]
      exact ⟨rfl, same⟩
  | hit queryId =>
      have enough := direct.nesting s ctx.tx view stands.sound stands.seen
      change (hitWithin backend (backend.nesting s) ctx queryId s).1 = _ ∧
        layout.part (hitWithin backend (backend.nesting s) ctx queryId s).2 = _
      obtain ⟨depth, nests⟩ := Nat.exists_eq_succ_of_ne_zero (Nat.ne_zero_of_lt enough)
      rw [nests]
      change (backend.transact ctx _ s).1 = _ ∧ layout.part (backend.transact ctx _ s).2 = _
      rw [stopped]
      exact ⟨rfl, same⟩

/-- Where nothing fails and all that is seen can be read, a removal succeeds and takes exactly what
is reached from its start. -/
theorem invalidate_of_readable (stands : Stands backend.schema ctx base view (layout.part s))
    (live : ctx.check (signals (layout.rest s)) = .ok ())
    (hitsHealthy : base.hits.failure = none) (entitiesHealthy : base.entities.failure = none)
    (readable : Readable backend.schema view)
    (named : ∀ id, start = .entity id → ∃ key, backend.schema.findByIdKey id = .ok key) :
    (backend.invalidate ctx start s).1 = .ok () ∧
    ∃ later,
      Stands backend.schema ctx base later (layout.part (backend.invalidate ctx start s).2) ∧
      Purged backend.schema (Reached backend.schema view.hits start) view later := by
  -- The removal ends as it does in a world of the same repository, orders and signals.
  let setting : Setting Orders ι ε := .bare backend.schema
  let world : World Orders ε :=
    .bare (layout.part s) (layout.orders s) (signals (layout.rest s))
  let place : Tandem := ⟨ctx, ctx, base, base, .refl ctx, rfl, rfl⟩
  have worldDirect := (setting.smooth fun _ _ => rfl).toDirect.signaled
  have abreast : place.Abreast Eq backend.schema (layout.signaled signals)
      (World.layout.signaled Simulation.Surroundings.signals) s world :=
    ⟨⟨rfl, view, stands, stands⟩, rfl⟩
  have similar := direct.signaled.similar worldDirect rfl
  obtain ⟨outcome, ⟨-, later, here, there⟩, -⟩ :=
    similar.invalidate (k := place) start s world abreast
  have frame := stands.guided.frame
  have hitsShow : (layout.part s).hits.Shows world.signals ctx view.hits :=
    ⟨stands.sound.ordered, frame.hits.failure.trans hitsHealthy, live,
      (seen_eq_ok.mp stands.seen).1⟩
  have copiesShow : (layout.part s).entities.Shows world.signals ctx view.copies :=
    ⟨stands.sound.entitiesOrdered, frame.entities.failure.trans entitiesHealthy, live,
      (seen_eq_ok.mp stands.seen).2⟩
  have sees : Sees setting.schema world.scene ctx view world :=
    ⟨rfl, stands.sound, hitsShow, copiesShow⟩
  obtain ⟨after, seesAfter, -, ⟨⟩, succeeds, swept, gone⟩ :=
    Simulation.ensures_invalidate_scanning (fun _ _ => rfl) (setting.scans _)
      (readable.legible _) (fun id => readable.named named) world sees
  have seenAfter := seen_eq_ok.mpr ⟨seesAfter.hits.view, seesAfter.copies.view⟩
  obtain rfl : later = after := Except.ok.inj (there.seen.symm.trans seenAfter)
  exact ⟨outcome.trans succeeds, later, here, .of_swept swept gone⟩

end Backend.Direct

/-- At places that are level all that is seen can be read, whatever the orders of the scans are. -/
structure Tandem.Clear (k : Tandem) (schema : Schema ι ε) (left : Layout σ ρ) (right : Layout τ ρ)
    (s : σ) (t : τ) : Prop extends k.Abreast (fun _ _ => True) schema left right s t where
  readable : ∀ view, (right.part t).seen k.there.tx = .ok view → Readable schema view

namespace Backend.Direct

variable [DecidableEq ι] {backend : Backend σ ι ε} {other : Backend τ ι ε} {left : Layout σ ρ}
  {right : Layout τ ρ} {signals : ρ → Signals} {k : Tandem}
  (direct : backend.Direct left signals) (direct' : other.Direct right signals)
  (same : other.schema = backend.schema)
include direct direct' same

/-- Where all that is seen can be read, removals end alike at places that are level, and keep them
level. -/
theorem invalidate_of_clear (hitsHealthy : k.hereBase.hits.failure = none)
    (entitiesHealthy : k.hereBase.entities.failure = none) (start : Node ι) :
    TellAlike (k.Clear backend.schema left right)
      (k.Abreast (fun _ _ => True) backend.schema left right)
      (backend.invalidate k.here start) (other.invalidate k.there start) := by
  rintro s t ⟨abreast, readable⟩
  obtain ⟨⟨sameRest, view, here, there⟩, -⟩ := id abreast
  have restAfter : left.rest (backend.invalidate k.here start s).2 =
      right.rest (other.invalidate k.there start t).2 := by
    rw [direct.rest_invalidate, direct'.rest_invalidate, sameRest]
  have live' := k.peers.check (signals (left.rest s))
  cases live : k.here.check (signals (left.rest s)) with
  | error e =>
      rw [live, sameRest] at live'
      obtain ⟨failed, kept⟩ := direct.invalidate_of_ended start here live
      obtain ⟨failed', kept'⟩ := direct'.invalidate_of_ended start (same ▸ there) live'.symm
      refine ⟨failed.trans failed'.symm, ⟨restAfter, view, ?_, ?_⟩, trivial⟩
      · rw [kept]
        exact here
      · rw [kept']
        exact there
  | ok _ =>
      rw [live, sameRest] at live'
      by_cases named : ∀ id, start = .entity id → ∃ key, backend.schema.findByIdKey id = .ok key
      · have isReadable := readable view there.seen
        obtain ⟨succeeds, later, hereAfter, purged⟩ :=
          direct.invalidate_of_readable here live hitsHealthy entitiesHealthy isReadable named
        obtain ⟨succeeds', later', thereAfter, purged'⟩ :=
          direct'.invalidate_of_readable (same ▸ there) live'.symm (k.hitFailure ▸ hitsHealthy)
            (k.entityFailure ▸ entitiesHealthy) (same ▸ isReadable) (same ▸ named)
        rw [same] at thereAfter purged'
        obtain rfl := purged.unique purged'
        exact ⟨succeeds.trans succeeds'.symm, ⟨restAfter, later, hereAfter, thereAfter⟩, trivial⟩
      · -- Then the start is an entity for which there is no query, and nothing is scanned.
        obtain ⟨id, unnamed⟩ := not_forall.mp named
        obtain ⟨rfl, noKey⟩ := Classical.not_imp.mp unnamed
        cases key : backend.schema.findByIdKey id with
        | ok text => exact absurd ⟨text, key⟩ noKey
        | error e => exact (direct.matched direct' same).invalidateEntity_of_unnamed key s t abreast

end Backend.Direct

/-- Where all that is seen can be read, a smooth backend is kindred to itself at places that are
level, though scans list hits in other orders. -/
theorem Backend.Smooth.kindred_of_clear [DecidableEq ι] {backend : Backend σ ι ε}
    {layout : Layout σ ρ} {signals : ρ → Signals} (smooth : backend.Smooth layout signals)
    {k : Tandem} (hitsHealthy : k.hereBase.hits.failure = none)
    (entitiesHealthy : k.hereBase.entities.failure = none) :
    backend.Kindred (k.Clear backend.schema layout layout)
      (k.Abreast (fun _ _ => True) backend.schema layout layout) k.here k.there backend := by
  have direct := smooth.toDirect
  have matched : backend.Matched (fun k : Tandem =>
      k.Abreast (fun _ _ => True) backend.schema layout layout) Tandem.here Tandem.there backend :=
    direct.matched direct rfl
  have stillClear {s t u v : σ} (clear : k.Clear backend.schema layout layout s t)
      (abreast : k.Abreast (fun _ _ => True) backend.schema layout layout u v)
      (kept : layout.part v = layout.part t) : k.Clear backend.schema layout layout u v :=
    ⟨abreast, kept ▸ clear.readable⟩
  have invalidates := direct.invalidate_of_clear direct rfl hitsHealthy entitiesHealthy
  exact
    { schema := rfl
      loosens := fun s t clear => clear.toAbreast
      read := fun request reads unlisting s t clear => by
        obtain ⟨outcome, abreast⟩ := matched.perform k request (request.isCall_of_reads reads)
          unlisting s t clear.toAbreast
        exact ⟨outcome, stillClear clear abreast (direct.hindered.perform_of_reads request reads)⟩
      perform := matched.perform k
      refused := fun entity s t e clear failed => by
        obtain ⟨outcome, abreast⟩ :=
          matched.perform k (.updateEntity entity) rfl rfl s t clear.toAbreast
        have failedThere : (backend.stores.perform k.there (.updateEntity entity) t).1 = .error e :=
          outcome.symm.trans (map_eq_error_iff.mpr failed)
        exact stillClear clear abreast
          (direct.hindered.perform_of_error (fun _ _ => failsClean_perform rfl rfl) failedThere)
      check := fun s t clear => by
        obtain ⟨outcome, abreast⟩ := matched.check k s t clear.toAbreast
        exact ⟨outcome, stillClear clear abreast (direct.hindered.check k.there t)⟩
      record := fun event s t clear => by
        obtain ⟨outcome, abreast⟩ := matched.record k event s t clear.toAbreast
        exact ⟨outcome, stillClear clear abreast (direct.record event t).2.2.part⟩
      recordLate := matched.record k
      now := smooth.now.abreast backend.schema
      invalidateQuery := fun queryId => invalidates (.hit queryId)
      invalidateEntity := fun id => invalidates (.entity id)
      dropAll := fun s t clear => matched.dropAll s t clear.toAbreast }

/-- If scans list hits in the same orders, a smooth backend is kindred to itself at places that are
abreast, whatever can be read. -/
theorem Backend.Smooth.kindred [DecidableEq ι] {backend : Backend σ ι ε} {layout : Layout σ ρ}
    {signals : ρ → Signals} (smooth : backend.Smooth layout signals) (k : Tandem) :
    backend.Kindred (k.Abreast Eq backend.schema layout layout)
      (k.Abreast Eq backend.schema layout layout) k.here k.there backend :=
  (smooth.toDirect.similar smooth.toDirect rfl).kindred (smooth.now.abreast backend.schema)

end QueryCache
