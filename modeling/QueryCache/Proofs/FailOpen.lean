import QueryCache.Proofs.Attainment
import QueryCache.Proofs.Integrity
import QueryCache.Proofs.Served

/-!
# Reads fail open

A read that is kept from using the stores asks the source instead, so that no failure of a store is
ever the answer. Only a call that failed for its context ends the read, which then fails as the call
did and asks the source no more. Of a read that was watched the notes show all of this, and being
watched changes nothing.
-/

namespace QueryCache

open QueryCache.Action

variable {σ ι ε : Type}

/-- What is read through a cache. A query comes with its closure. -/
inductive Read (σ ι ε : Type)
  | entity (id : ι)
  | all
  | many (key : String) (query : Action σ (List ε))
  | one (key : String) (query : Action σ (Option ε))

namespace Read

/-- Reads, and answers with a list in any case. -/
def run [DecidableEq ι] (backend : Backend σ ι ε) (ctx : Context) : Read σ ι ε → Action σ (List ε)
  | .entity id => do return (← backend.findById ctx id).toList
  | .all => backend.findAll ctx
  | .many key query => backend.queryMany ctx key query
  | .one key query => do return (← backend.queryOne ctx key query).toList

/-- A read whose closure is watched. -/
def watched : Read σ ι ε → Read (Noted σ ι ε) ι ε
  | .entity id => .entity id
  | .all => .all
  | .many key query => .many key (query.noted asking)
  | .one key query => .one key (query.noted askingOne)

/-- The source offers what is read, and there is a query for it. -/
def Offered (backend : Backend σ ι ε) : Read σ ι ε → Prop
  | .entity id => ∃ key, backend.schema.findByIdKey id = .ok key
  | .all => ∃ findAll, backend.source.findAll = some findAll
  | _ => True

/-- A read ends as it does without being watched. -/
theorem simulates_watched [DecidableEq ι] (backend : Backend σ ι ε) (ctx : Context)
    (read : Read σ ι ε) :
    Simulates Bears (read.watched.run backend.watched ctx) (read.run backend ctx) := by
  have alike := backend.alike_watched
  cases read with
  | entity id => exact (alike.cachedFindById id).bind fun _ => simulates_pure _
  | all => exact alike.cachedFindAll
  | many key query => exact alike.queryMany (simulates_noted _ _) key
  | one key query =>
      exact (alike.queryOne (simulates_noted _ _) key).bind fun _ => simulates_pure _

end Read

/-- The copies of what a hit of a query lists, in its order. -/
def Replays (schema : Schema ι ε) (view : View) (key : String) (answer : List ε) : Prop :=
  ∃ hit, view.hits.Hold schema key hit ∧
    Entities.gathered schema view.copies hit.entityIds = .ok answer

/-- What the stores answer to a read: the copy of the entity, or the copies of what the hit of the
query lists. -/
def Read.Stored (schema : Schema ι ε) (view : View) : Read σ ι ε → List ε → Prop
  | .entity id, answer =>
      (∃ place bytes entity, schema.entityKey id = .ok place ∧
        view.copies[place]? = some bytes ∧ schema.decode bytes = .ok entity ∧ answer = [entity]) ∨
      ∃ key all, schema.findByIdKey id = .ok key ∧ Replays schema view key all ∧
        answer = all.take 1
  | .all, answer => Replays schema view QueryKey.findAll.encode answer
  | .many key _, answer => Replays schema view key answer
  | .one key _, answer => ∃ all, Replays schema view key all ∧ answer = all.take 1

section Serving

variable {stored answers : List ε → Prop} {notes : List (Note ι ε)} {e : Error} {α β : Type}
  {backend : Backend σ ι ε} {ctx : Context} {t : Noted σ ι ε}
  {post : Except Error α → List (Note ι ε) → Prop}

/-- A query asks the source, and does nothing else. -/
def Asking (answers : List ε → Prop) (query : Action (Noted σ ι ε) (List ε)) : Prop :=
  ∀ t, Adds query (fun outcome new => new = [.source outcome] ∧
    ∀ answer, outcome = .ok answer → answers answer) t

theorem Asking.serves {query : Action (Noted σ ι ε) (List ε)} (asking : Asking answers query)
    (t : Noted σ ι ε) : Adds query (Served stored answers) t := by
  refine (asking t).weaken ?_
  rintro outcome _ ⟨rfl, holds⟩
  exact served_source holds

theorem asking_asking (query : Action σ (List ε)) :
    Asking (fun _ => True) (query.noted (asking : _ → List (Note ι ε))) :=
  fun _ => adds_noted ⟨rfl, fun _ _ => trivial⟩

theorem asking_askingOne (query : Action σ (Option ε)) :
    Asking (fun answer => answer.take 1 = answer) (do
      return (← query.noted (askingOne : _ → List (Note ι ε))).toList) := by
  refine fun t => Adds.bind (adds_noted ⟨?_, ?_⟩)
  · intro e failed
    rw [failed]
    exact ⟨rfl, nofun⟩
  · intro found answered
    rw [answered]
    refine adds_pure ⟨rfl, ?_⟩
    rintro _ ⟨⟩
    cases found <;> rfl

/-- Where the check of a context does not fail, the context was live. -/
theorem adds_check_bind {second : Unit → Action (Noted σ ι ε) α}
    (form : Except Error α → Except Error (List ε))
    (serves : Adds (second ()) (fun outcome new => Served stored answers (form outcome) new)
      (backend.watched.check ctx t).2) :
    Adds (backend.watched.check ctx >>= second)
      (fun outcome new => Served stored answers (form outcome) new) t := by
  refine Adds.bind ⟨[.check (failure (backend.check ctx t.state).1)], rfl, ?_, ?_⟩
  · intro e failed live
    rw [show (backend.check ctx t.state).1 = .error e from failed] at live
    exact (List.forall_mem_singleton.mp live).elim
  · rintro ⟨⟩ succeeded
    rw [show (backend.check ctx t.state).1 = .ok () from succeeded]
    refine serves.weaken fun last more served => ?_
    exact served.append (List.forall_mem_singleton.mpr id) (List.forall_mem_singleton.mpr ⟨id, id⟩)

/-- A read that goes on after an attempt of work that heeds its calls is served as it is alone, if
it passes on what failed for its context. -/
theorem adds_attempt_bind {first : Action (Noted σ ι ε) α} (heeds : Heeds first)
    {second : Except Error α → Action (Noted σ ι ε) β}
    (form : Except Error β → Except Error (List ε))
    (stops : ∀ e, (first t).1 = .error e → e.isContext = true →
      second (.error e) = Action.fail e ∧ form (.error e) = .error e)
    (serves : Tolerable (first t).1 →
      Adds (second (first t).1) (fun outcome new => Served stored answers (form outcome) new)
        (first t).2) :
    Adds (first.attempt >>= second)
      (fun outcome new => Served stored answers (form outcome) new) t := by
  obtain ⟨new, notes, heeded, quiet⟩ := heeds t
  refine Adds.attempt_bind ⟨new, notes, ?_⟩
  by_cases tolerable : Tolerable (first t).1
  · refine (serves tolerable).weaken fun outcome more served => ?_
    exact served.after heeded tolerable quiet
  · obtain ⟨e, failed, context⟩ : ∃ e, (first t).1 = .error e ∧ e.isContext = true := by
      simpa [Tolerable] using tolerable
    obtain ⟨passed, same⟩ := stops e failed context
    rw [failed] at heeded ⊢
    rw [passed]
    refine adds_fail ?_
    rw [same, List.append_nil]
    exact served_of_context heeded quiet context

theorem Backend.bypass_of_context (backend : Backend σ ι ε) {query : Action σ α}
    (context : e.isContext = true) (label : String) :
    backend.bypass label e query = Action.fail e := by
  unfold Backend.bypass Backend.tolerate
  rw [if_pos context]
  rfl

namespace Backend.Steady

variable (steady : backend.Steady)
include steady

/-- What is recorded is not noted. -/
theorem adds_record_bind {event : Event} {second : Unit → Action (Noted σ ι ε) α}
    (adds : ∀ t, Adds (second ()) post t) :
    Adds (backend.watched.record event >>= second) post t := by
  refine Adds.bind (adds_noted ?_)
  rw [steady.record]
  exact ⟨nofun, fun _ _ => adds _⟩

/-- After a failure that is tolerated, the source is asked. -/
theorem adds_bypass {query : Action (Noted σ ι ε) α} (tolerable : e.isContext = false)
    (asks : ∀ t, Adds query post t) (label : String) :
    Adds (backend.watched.bypass label e query) post t := by
  unfold Backend.bypass Backend.tolerate
  rw [tolerable]
  exact steady.adds_record_bind asks

/-- The clock is read without a note. -/
theorem adds_now_bind {second : Time.Timestamp → Action (Noted σ ι ε) α}
    (adds : ∀ timestamp t, Adds (second timestamp) post t) :
    Adds (backend.watched.now >>= second) post t := by
  refine Adds.bind (adds_noted ?_)
  obtain ⟨timestamp, read⟩ := steady.now t.state
  rw [read]
  exact ⟨nofun, fun _ _ => adds _ _⟩

/-- After an attempt to store something, its failure is worked around or passed on, and its success
goes on to what else is to be stored. -/
theorem remembers_attempt_bind (request : Request ι ε) (notRollback : request.isRollback = false)
    {store : Action σ Unit} {second : Except Error Unit → Action (Noted σ ι ε) Unit}
    {label : String}
    (passes : ∀ e, second (.error e) = backend.watched.tolerate label e)
    (remembers : ∀ t, Adds (second (.ok ())) Remembered t) :
    Adds ((store.noted (calling request)).attempt >>= second) Remembered t := by
  refine Adds.attempt_bind (adds_noted ?_)
  have heeded := heeded_calling request notRollback (store t.state).1
  have unasked : ∀ note ∈ calling request (store t.state).1, ¬ note.Asks :=
    List.forall_mem_singleton.mpr id
  generalize (store t.state).1 = stored at heeded unasked ⊢
  cases stored with
  | ok _ =>
      refine (remembers _).weaken fun outcome more remembered => ?_
      exact remembered.append heeded unasked
  | error e =>
      rw [passes, Backend.tolerate]
      cases context : e.isContext with
      | true =>
          refine adds_fail ?_
          rw [List.append_nil]
          refine ⟨heeded, unasked, ?_⟩
          rintro _ ⟨⟩
          exact context
      | false =>
          refine adds_noted ?_
          rw [steady.record, silent, List.append_nil]
          refine ⟨heeded.tolerated (tolerable_error context) (tolerable_ok ()), unasked, ?_⟩
          intro e impossible
          cases impossible

theorem adds_remember (key : String) (entities : List ε) :
    Adds (backend.watched.remember ctx key entities) Remembered t := by
  refine steady.remembers_attempt_bind (.upsertEntities entities) rfl (fun _ => rfl) fun t => ?_
  refine steady.adds_now_bind fun timestamp t => ?_
  refine steady.remembers_attempt_bind (.createHit _) rfl (fun _ => rfl) fun t => ?_
  exact adds_pure ⟨heeded_nil (tolerable_ok ()), List.forall_mem_nil _, nofun⟩

theorem serves_ask {query : Action (Noted σ ι ε) (List ε)} (asking : Asking answers query)
    (key : String) (t : Noted σ ι ε) :
    Adds (backend.watched.ask ctx key query) (Served stored answers) t := by
  refine Adds.bind ((asking t).weaken ?_)
  rintro outcome _ ⟨rfl, holds⟩
  refine ⟨fun _ failed => ?_, fun entities answered => ?_⟩
  · rw [← failed]
    exact served_source holds
  · subst answered
    refine steady.adds_record_bind fun t => ?_
    refine Adds.bind ((steady.adds_remember key entities).weaken ?_)
    intro outcome new remembered
    have served : Served stored answers _ _ := remembered.served (holds entities rfl)
    constructor
    · rintro e rfl
      exact served
    · rintro ⟨⟩ rfl
      refine adds_pure ?_
      rw [List.append_nil]
      exact served

section Queries

variable [DecidableEq ι] {part : σ → Repository} {key : String}
  {query : Action (Noted σ ι ε) (List ε)}

/-- A query whose hit is known is served by the copies of what the hit lists. -/
theorem serves_replay (asking : Asking answers query) (key : String) {hit : Hit ι}
    (recalls : ∀ entities, (backend.entities.findByIds ctx hit.entityIds t.state).1 = .ok entities →
      stored entities) :
    Adds (backend.watched.replay ctx key hit query) (Served stored answers) t := by
  have finds : Heeds (backend.watched.entities.findByIds ctx hit.entityIds) :=
    heeds_call (.findEntities hit.entityIds) rfl rfl _
  refine adds_attempt_bind finds id (fun e _ context => ⟨?_, rfl⟩) fun tolerable => ?_
  · cases e with
    | notFound _ => cases context
    | _ => exact Backend.bypass_of_context _ context key
  · split
    · rename_i entities found
      exact steady.adds_record_bind fun t => adds_pure (served_recalled (recalls entities found))
    · refine adds_attempt_bind (heeds_invalidateQuery steady key) id ?_ fun tolerable => ?_
      · exact fun e _ context => ⟨Backend.bypass_of_context _ context key, rfl⟩
      · split
        · exact steady.serves_ask asking key _
        · rename_i failed
          exact steady.adds_bypass (tolerable _ failed) asking.serves key
    · rename_i failed
      exact steady.adds_bypass (tolerable _ failed) asking.serves key

variable (hindered : backend.Hindered part)
include hindered

/-- A query is served by the copies of what its hit lists, or by the source. -/
theorem serves_queryMany (sound : (part t.state).Sound backend.schema)
    (asking : Asking answers query) (key : String)
    (recalls : ∀ view answer, (part t.state).seen ctx.tx = .ok view →
      Replays backend.schema view key answer → stored answer) :
    Adds (backend.watched.queryMany ctx key query) (Served stored answers) t := by
  have find : Heeds (backend.watched.hits.findById ctx key) :=
    heeds_call (.findHit key) rfl rfl _
  refine adds_check_bind id ?_
  refine adds_attempt_bind find id (fun e _ context => ?_) fun tolerable => ?_
  · exact ⟨Backend.bypass_of_context _ context key, rfl⟩
  · split
    · rename_i hit found
      refine steady.serves_replay asking key fun entities all => ?_
      -- Neither the check nor the search changed anything that the context sees.
      have checked : part (backend.check ctx t.state).2 = part t.state := hindered.check ctx t.state
      have searched : part (backend.hits.findById ctx key (backend.check ctx t.state).2).2 =
          part (backend.check ctx t.state).2 := hindered.perform_of_reads (.findHit key) rfl
      obtain ⟨view, shown, isTold⟩ := hindered.told_of_findHit (checked ▸ sound) found
      have gathered := hindered.gathered_of_findEntities (searched ▸ checked ▸ sound)
        (searched ▸ shown) all
      exact recalls view entities (checked ▸ shown) ⟨hit, exists_of_told_eq_some isTold, gathered⟩
    · exact steady.serves_ask asking key _
    · rename_i failed
      exact steady.adds_bypass (tolerable _ failed) asking.serves key

/-- A query for at most one entity is served by the first copy of what its hit lists, or by the
source. -/
theorem serves_queryOne (sound : (part t.state).Sound backend.schema)
    (query : Action σ (Option ε)) (key : String)
    (recalls : ∀ view all, (part t.state).seen ctx.tx = .ok view →
      Replays backend.schema view key all → stored (all.take 1)) :
    Adds (backend.watched.queryOne ctx key (query.noted askingOne))
      (fun outcome new => Served stored (fun _ => True) (outcome.map Option.toList) new) t := by
  have many : Adds (backend.watched.queryMany ctx key
      (do return (← query.noted (askingOne : _ → List (Note ι ε))).toList))
      (Served (fun all => stored (all.take 1)) fun answer => answer.take 1 = answer) t :=
    steady.serves_queryMany hindered sound (asking_askingOne query) key recalls
  refine Adds.bind (many.weaken fun outcome new served => ?_)
  have first : Served stored (fun _ => True) (outcome.map (List.take 1)) new :=
    served.map (fun _ recalled => recalled) fun _ same => same
  constructor
  · rintro e rfl
    exact first
  · rintro all rfl
    refine adds_pure ?_
    rw [List.append_nil]
    change Served stored _ (.ok all.head?.toList) new
    rw [← List.take_one]
    exact first

/-- A lookup is served by the copy, by what the hit of its query lists, or by the source. -/
theorem serves_findById (sound : (part t.state).Sound backend.schema) {id : ι} {key : String}
    (named : backend.schema.findByIdKey id = .ok key)
    (found : ∀ view answer, (part t.state).seen ctx.tx = .ok view →
      (Read.entity id : Read σ ι ε).Stored backend.schema view answer → stored answer) :
    Adds (backend.watched.findById ctx id)
      (fun outcome new => Served stored (fun _ => True) (outcome.map Option.toList) new) t := by
  have find : Heeds (backend.watched.entities.findById ctx id) :=
    heeds_call (.findEntity id) rfl rfl _
  have checked : part (backend.check ctx t.state).2 = part t.state := hindered.check ctx t.state
  have searched : part (backend.entities.findById ctx id (backend.check ctx t.state).2).2 =
      part (backend.check ctx t.state).2 := hindered.perform_of_reads (.findEntity id) rfl
  refine adds_check_bind _ ?_
  refine adds_attempt_bind find _ (fun e _ context => ?_) fun tolerable => ?_
  · exact ⟨Backend.bypass_of_context _ context _, rfl⟩
  · split
    · rename_i entity succeeded
      obtain ⟨view, place, shown, placed, isTold⟩ :=
        hindered.told_of_findEntity (checked ▸ sound) succeeded
      obtain ⟨bytes, present, decoded⟩ := exists_of_told_eq_some isTold
      refine adds_pure (served_recalled (found view [entity] (checked ▸ shown) (.inl ?_)))
      exact ⟨place, bytes, entity, placed, present, decoded, rfl⟩
    · change Adds (liftM (backend.schema.findByIdKey id) >>= _) _ _
      rw [named]
      refine steady.serves_queryOne hindered (searched ▸ checked ▸ sound) _ key ?_
      intro view all shown replays
      refine found view _ (checked ▸ searched ▸ shown) (.inr ⟨key, all, named, replays, rfl⟩)
    · rename_i failed
      refine steady.adds_bypass (tolerable _ failed) (fun t => adds_noted ?_) _
      exact served_source fun _ _ => trivial

/-- Every read is served by what the stores answered at its start, or by the source. -/
theorem serves_read (sound : (part t.state).Sound backend.schema) (read : Read σ ι ε)
    (offered : read.Offered backend) :
    Adds (read.watched.run backend.watched ctx)
      (Served (fun answer => ∃ view, (part t.state).seen ctx.tx = .ok view ∧
        read.Stored backend.schema view answer) fun _ => True) t := by
  -- An answer of at most one entity is put in the form of a list.
  have listed {action : Action (Noted σ ι ε) (Option ε)} {stored : List ε → Prop}
      (serves : Adds action
        (fun outcome new => Served stored (fun _ => True) (outcome.map Option.toList) new) t) :
      Adds (do return (← action).toList) (Served stored fun _ => True) t := by
    refine Adds.bind (serves.weaken fun outcome new served => ?_)
    constructor
    · rintro e rfl
      exact served
    · rintro found rfl
      refine adds_pure ?_
      rw [List.append_nil]
      exact served
  cases read with
  | entity id =>
      obtain ⟨key, named⟩ := offered
      exact listed (steady.serves_findById hindered sound named fun view _ shown isStored =>
        ⟨view, shown, isStored⟩)
  | all =>
      obtain ⟨findAll, offers⟩ := offered
      unfold Read.watched Read.run Backend.findAll
      rw [backend.watched_findAll, offers]
      have checked : part (backend.check ctx t.state).2 = part t.state := hindered.check ctx t.state
      refine adds_check_bind id ?_
      exact steady.serves_queryMany hindered (checked ▸ sound) (asking_asking (findAll ctx)) _
        fun view _ shown replays => ⟨view, checked ▸ shown, replays⟩
  | many key query =>
      exact steady.serves_queryMany hindered sound (asking_asking query) key
        fun view _ shown replays => ⟨view, shown, replays⟩
  | one key query =>
      exact listed (steady.serves_queryOne hindered sound query key fun view all shown replays =>
        ⟨view, shown, all, replays, rfl⟩)

end Queries

end Backend.Steady

end Serving

/-- A read that is watched from its start. -/
def Read.watch [DecidableEq ι] (backend : Backend σ ι ε) (ctx : Context) (read : Read σ ι ε)
    (s : σ) : Except Error (List ε) × Noted σ ι ε :=
  read.watched.run backend.watched ctx ⟨s, []⟩

namespace Simulation

theorem Setting.steady {γ : Type} [DecidableEq ι] (setting : Setting γ ι ε) :
    setting.backend.Steady where
  record _ _ := rfl
  now world := ⟨world.clock, rfl⟩

/-- A world in which the hit of all switches lists one that is not copied. -/
def uncopiedWorld : World Unit (Entry Bool) :=
  { World.initial () [⟨true, "on"⟩] 0 with
    repository := Repository.after IdKind.switch.schema
      [.request .initial .root (.createHit ⟨QueryKey.findAll.encode, [true], ⟨0, 0⟩⟩)] .empty }

end Simulation

/-- However its calls fail, a read in a live context is answered from the stores or by the source. A
call that fails for its context ends it, except where something is rolled back; and if the source
fails, the read fails as the source and stores nothing. -/
theorem read_fails_open {σ ι ε : Type} [DecidableEq ι] (backend : Backend σ ι ε)
    (part : σ → Repository) (hindered : backend.Hindered part) (steady : backend.Steady)
    (ctx : Context) (read : Read σ ι ε) (offered : read.Offered backend) (s : σ)
    (reachable : (part s).Reachable backend.schema)
    (live : ∀ note ∈ (read.watch backend ctx s).2.notes, note.Live) :
    let notes := (read.watch backend ctx s).2.notes
    let answer := (read.run backend ctx s).1
    ((read.watch backend ctx s).1 = answer ∧
      (read.watch backend ctx s).2.state = (read.run backend ctx s).2) ∧
    (∀ before request e after, notes = before ++ .call request (some e) :: after →
      (Note.call request (some e) : Note ι ε).Stops →
        answer = .error e ∧ ∀ note ∈ after, ¬ note.Asks) ∧
    ((∀ note ∈ notes, ¬ note.Stops) →
      (∃ stored, (∃ view, (part s).seen ctx.tx = .ok view ∧
        read.Stored backend.schema view stored) ∧ answer = .ok stored ∧
          ∀ note ∈ notes, ¬ note.Asks) ∨
      ∃ before after, notes = before ++ .source answer :: after ∧
        ∀ note ∈ before ++ after, ¬ note.Asks) ∧
    ∀ e, .source (.error e) ∈ notes → answer = .error e ∧ ∀ note ∈ notes, ¬ note.Writes := by
  intro notes answer
  obtain ⟨same, left⟩ := read.simulates_watched backend ctx ⟨s, []⟩ s rfl
  refine ⟨⟨same, left⟩, ?_⟩
  have serves : Adds (read.watched.run backend.watched ctx) _ ⟨s, []⟩ :=
    steady.serves_read hindered reachable.sound read offered
  obtain ⟨_, noted, served⟩ := serves
  rw [List.nil_append] at noted
  subst noted
  have served := same ▸ served
  exact ⟨served.ends_at_stop live, served.recalled_or_asked live, served.fails_as_source live⟩

/-- The copy of a listed switch is gone, and its hit cannot be removed: the source is asked. -/
theorem read_fails_open_uncopiedWorld :
    let read : Read (Simulation.World Unit (Simulation.Entry Bool)) Bool (Simulation.Entry Bool) :=
      .all
    (read.run Simulation.stuckSwitches.backend .root Simulation.uncopiedWorld).1 =
        .ok [⟨true, "on"⟩] ∧
      ∃ before after,
        (read.watch Simulation.stuckSwitches.backend .root Simulation.uncopiedWorld).2.notes =
            before ++ .source (.ok [⟨true, "on"⟩]) :: after ∧
          ∀ note ∈ before ++ after, ¬ note.Asks := by
  intro read
  have answered : (read.run Simulation.stuckSwitches.backend .root Simulation.uncopiedWorld).1 =
      .ok [⟨true, "on"⟩] := by
    decide +kernel
  have failsOpen := read_fails_open Simulation.stuckSwitches.backend Simulation.World.repository
    (Simulation.stuckSwitches.hindered Simulation.stuckBegins_hinders)
    Simulation.stuckSwitches.steady .root read ⟨_, rfl⟩ Simulation.uncopiedWorld ⟨_, rfl⟩
    (by decide +kernel)
  rw [answered] at failsOpen
  obtain ⟨-, -, recalledOrAsked, -⟩ := failsOpen
  refine ⟨answered, (recalledOrAsked (by decide +kernel)).resolve_left ?_⟩
  rintro ⟨_, -, -, unasked⟩
  have asked : ∃ note ∈ (read.watch Simulation.stuckSwitches.backend .root
      Simulation.uncopiedWorld).2.notes, note.Asks := by
    decide +kernel
  obtain ⟨note, member, asks⟩ := asked
  exact unasked note member asks

end QueryCache
