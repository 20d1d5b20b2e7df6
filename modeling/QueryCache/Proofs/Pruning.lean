import QueryCache.Proofs.Notes
import QueryCache.Proofs.Tally
import QueryCache.Proofs.Transparency

/-!
# Removals end, and remove each hit once

However the hits list the same entities, and whichever calls fail, a removal ends, and no hit is to
be removed twice. Both have one reason: a hit is removed before what it lists is, and a hit that is
gone is not found again. So what a removal goes on to do it does where fewer hits are seen, and of
the calls that were noted no two are to remove the same hit.
-/

namespace QueryCache

open QueryCache.Action Repository

variable {σ ι ε : Type}

/-- The hits that were to be removed, in order. -/
def dropped (notes : List (Note ι ε)) : List String :=
  notes.filterMap fun
    | .call (.deleteHit queryId) _ => some queryId
    | _ => none

@[simp] theorem dropped_append (notes more : List (Note ι ε)) :
    dropped (notes ++ more) = dropped notes ++ dropped more :=
  List.filterMap_append

/-- Between two states notes were taken that tell of some queries, in order. -/
def Noting (told : List (Note ι ε) → List String) (keys : List String) (t later : Noted σ ι ε) :
    Prop :=
  ∃ new, later.notes = t.notes ++ new ∧ told new = keys

theorem Noting.append {told : List (Note ι ε) → List String}
    (told_append : ∀ notes more, told (notes ++ more) = told notes ++ told more)
    {keys more : List String} {s t u : Noted σ ι ε} (first : Noting told keys s t)
    (second : Noting told more t u) : Noting told (keys ++ more) s u := by
  obtain ⟨new, notes, rfl⟩ := first
  obtain ⟨newer, notesLater, rfl⟩ := second
  refine ⟨new ++ newer, ?_, told_append new newer⟩
  rw [notesLater, notes, List.append_assoc]

namespace Backend

variable {backend : Backend σ ι ε} {part : σ → Repository}

/-- A backend that is watched is hindered as it was. -/
theorem Hindered.watched (hindered : backend.Hindered part) :
    backend.watched.Hindered fun t => part t.state where
  request ctx request t := by
    rw [Refuses, Acts, backend.watched_perform]
    exact hindered.request ctx request t.state
  check ctx t := hindered.check ctx t.state
  record event t := hindered.record event t.state

/-- Being watched, a backend has each hit noted that is to be removed. -/
theorem logs_watched (backend : Backend σ ι ε) : backend.watched.Logs (Noting dropped) where
  nothing _ := ⟨[], (List.append_nil _).symm, rfl⟩
  append := .append dropped_append
  check _ _ := ⟨_, rfl, rfl⟩
  perform ctx request keeps t := by
    rw [backend.watched_perform]
    refine ⟨_, rfl, ?_⟩
    cases request with
    | deleteHit queryId => cases keeps
    | _ => rfl
  dropped ctx queryId t := by
    left
    refine ⟨calling (.deleteHit queryId) (backend.hits.deleteById ctx queryId t.state).1, ?_, rfl⟩
    exact read_bind Noted.notes (fun _ _ => List.append_nil _) t

end Backend

namespace Simulation

open Invalidation

variable {γ : Type} [DecidableEq ι]

variable {setting : Setting γ ι ε} {ctx : Context} {start : Node ι} {world : World γ ε}

/-- A removal never comes to a bound above the number of hits that are seen. -/
theorem nodeAbove_eq_invalidate (hinders : setting.gate.Hinders)
    (sound : world.repository.Sound setting.schema) (below : Context → String → Action _ Unit)
    {depth : Nat} (positive : 0 < depth)
    (enough : ∀ view, world.repository.seen ctx.tx = .ok view → view.hits.size < depth) :
    nodeAbove setting.backend below depth ctx start world =
      setting.backend.invalidate ctx start world := by
  have hindered := setting.hindered hinders
  have nests := setting.hitCount_lt_nesting world
  cases seen : world.repository.seen ctx.tx with
  | ok view =>
      have few := World.size_le_hitCount sound.ordered (Repository.seen_eq_ok.mp seen).1
      have room := Nat.lt_of_le_of_lt few nests
      cases start with
      | hit queryId =>
          exact ((hindered.coincides_hitWithin room (enough view seen) below ctx queryId
            (Nat.le_refl _)).same world sound seen).symm
      | entity id =>
          exact ((hindered.coincides_entityWithin room (enough view seen) below id
            (Nat.le_refl _)).same world sound seen).symm
  | error e =>
      have blind : ∀ view, world.repository.seen ctx.tx ≠ .ok view := seen ▸ nofun
      obtain ⟨depth, rfl⟩ := Nat.exists_eq_succ_of_ne_zero (Nat.ne_of_gt positive)
      obtain ⟨bound, nesting⟩ := Nat.exists_eq_succ_of_ne_zero (Nat.ne_zero_of_lt nests)
      have any : IsPreorder (World γ ε) fun _ _ => True :=
        { refl := fun _ => trivial, trans := fun _ _ _ _ _ => trivial }
      have harmless : setting.backend.Harmless fun _ _ => True :=
        ⟨fun _ _ => trivial, fun _ _ => trivial, fun _ _ => trivial, fun _ _ _ => trivial⟩
      rw [setting.backend.invalidate_eq_nodeAbove, nesting]
      exact (hindered.failAlike_nodeAbove harmless below _ depth bound start world sound blind).1

/-- The hits that are to be removed are seen at the beginning, and none is to be removed twice. -/
theorem dropped_invalidate (hinders : setting.gate.Hinders)
    (sound : world.repository.Sound setting.schema) :
    let noted := setting.backend.watched.invalidate ctx start ⟨world, []⟩
    (dropped noted.2.notes).Nodup ∧
      ∀ queryId ∈ dropped noted.2.notes, world.repository.SeesHit ctx.tx queryId := by
  intro noted
  have nests := Nat.zero_lt_of_lt (setting.hitCount_lt_nesting world)
  obtain ⟨keys, ⟨new, notes, rfl⟩, once, present, -⟩ :=
    (setting.hindered hinders).watched.exists_tally setting.backend.logs_watched start
      (s := ⟨world, []⟩) nests sound
  rw [List.nil_append] at notes
  rw [notes]
  exact ⟨once, present⟩

/-- Whatever the hits list and whichever calls fail, a removal ends: the recursion is opened no more
often than there are hits to be seen, and it makes no difference what would stand below that. Its
calls are to remove only hits that the context saw when it began, each at most once. -/
theorem invalidate_ends_and_drops_once (setting : Setting γ ι ε) (hinders : setting.gate.Hinders)
    (ctx : Context) (start : Node ι) (world : World γ ε)
    (reachable : world.repository.Reachable setting.schema) :
    (∀ below depth, 0 < depth →
      (∀ view, world.repository.seen ctx.tx = .ok view → view.hits.size < depth) →
      nodeAbove setting.backend below depth ctx start world =
        setting.backend.invalidate ctx start world) ∧
    let noted := setting.backend.watched.invalidate ctx start ⟨world, []⟩
    (noted.1, noted.2.state) = setting.backend.invalidate ctx start world ∧
      (dropped noted.2.notes).Nodup ∧
      ∀ queryId ∈ dropped noted.2.notes, ∃ view, world.repository.seen ctx.tx = .ok view ∧
        view.hits[queryId]?.isSome := by
  refine ⟨fun below depth positive enough => ?_, ?_, dropped_invalidate hinders reachable.sound⟩
  · exact nodeAbove_eq_invalidate hinders reachable.sound below positive enough
  · obtain ⟨outcome, state⟩ :=
      setting.backend.alike_watched.invalidate ctx start ⟨world, []⟩ world rfl
    exact Prod.ext outcome state

/-- A world with two hits, each of which lists the same two switches. -/
def knottedWorld : World Unit (Entry Bool) :=
  { World.initial () [] 0 with
    repository := Repository.after IdKind.switch.schema
      [.request .initial .root (.createHit ⟨"x", [true, false], ⟨0, 0⟩⟩),
        .request .initial .root (.createHit ⟨"y", [false, true], ⟨0, 0⟩⟩)] .empty }

/-- Each of the two hits is removed once, though either leads to the other twice. -/
theorem invalidate_ends_and_drops_once_knottedWorld :
    let noted := switchSetting.backend.watched.invalidate .root (.hit "x") ⟨knottedWorld, []⟩
    (∀ below, nodeAbove switchSetting.backend below 3 .root (.hit "x") knottedWorld =
        (noted.1, noted.2.state)) ∧
      noted.1 = .ok () ∧ dropped noted.2.notes = ["x", "y"] ∧ ["x", "y"].Nodup := by
  intro noted
  have hinders : switchSetting.gate.Hinders := fun _ _ => trivial
  obtain ⟨ends, watched, once, -⟩ := invalidate_ends_and_drops_once switchSetting hinders .root
    (.hit "x") knottedWorld ⟨_, rfl⟩
  have succeeds : noted.1 = .ok () := by decide +kernel
  have names : dropped noted.2.notes = ["x", "y"] := by decide +kernel
  refine ⟨fun below => ?_, succeeds, names, names ▸ once⟩
  rw [watched]
  refine ends below 3 (by decide) ?_
  rintro view ⟨⟩
  decide +kernel

end Simulation

end QueryCache
