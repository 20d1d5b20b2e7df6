import Mathlib.Data.List.Count
import QueryCache.Proofs.Atomicity
import QueryCache.Proofs.Likeness
import QueryCache.Simulation.Entry
import QueryCache.Simulation.World

/-!
# What is reported of a query

A backend can be overheard: what it is told to record is written down in order, together with the
question to the source. Being overheard changes nothing. What is heard of a query that was answered
is told by its course. A hit is reported where the source was not asked, and a miss where it was;
but where a store failed on the way, the failure is reported instead of a miss. Of an invalidation
the removals of hits are heard and nothing else, at every depth.
-/

namespace QueryCache

open QueryCache.Action Invalidation

/-- What is heard of a query: the recorder is told something, or the source is asked. -/
inductive Report
  | event (event : Event)
  | asked
  deriving DecidableEq, Repr

/-- A state, with what was heard. -/
structure Overheard (σ : Type) where
  state : σ
  reports : List Report

section Overheard

variable {σ ι ε α : Type}

/-- The same that was heard, with another state. -/
def Overheard.put (s : σ) (t : Overheard σ) : Overheard σ := { t with state := s }

/-- An action that is heard. -/
def Action.reporting (report : Report) (action : Action σ α) : Action (Overheard σ) α := fun t =>
  ((action t.state).1, ⟨(action t.state).2, t.reports ++ [report]⟩)

/-- A backend whose recorder is overheard. -/
def Backend.overheard (backend : Backend σ ι ε) : Backend (Overheard σ) ι ε :=
  { backend.within Overheard.state Overheard.put with
    record := fun event => (backend.record event).reporting (.event event) }

/-- A state with what was heard, and the state. -/
def Overhears (t : Overheard σ) (s : σ) : Prop := t.state = s

theorem simulates_reporting (report : Report) (action : Action σ α) :
    Simulates Overhears (action.reporting report) action := by
  rintro t _ rfl
  exact ⟨rfl, rfl⟩

/-- A backend acts alike when it is overheard. -/
theorem Backend.alike_overheard (backend : Backend σ ι ε) :
    Backend.Alike Overhears backend.overheard backend :=
  have alike : Backend.Alike Overhears (backend.within Overheard.state Overheard.put) backend :=
    backend.alike_within fun _ _ => rfl
  { alike with record := fun _ => simulates_reporting _ _ }

/-- What is heard of a removal of the hits of some queries. -/
def removals (keys : List String) : List Report :=
  keys.map fun key => .event (.invalidation key)

/-- Between two states only removals of hits were heard. -/
def Removes (t u : Overheard σ) : Prop :=
  ∃ keys, u.reports = t.reports ++ removals keys

theorem removes_of_eq {t u : Overheard σ} (same : u.reports = t.reports) : Removes t u :=
  ⟨[], by rw [same]; exact (List.append_nil _).symm⟩

instance : IsPreorder (Overheard σ) Removes where
  refl _ := removes_of_eq rfl
  trans := by
    rintro t u v ⟨keys, heard⟩ ⟨more, heardMore⟩
    refine ⟨keys ++ more, ?_⟩
    rw [heardMore, heard, removals, removals, removals, List.map_append, List.append_assoc]

end Overheard

/-! ### What every removal leads along -/

section Along

variable {σ ι ε : Type} {backend : Backend σ ι ε} {relation : σ → σ → Prop}
  [IsPreorder σ relation] {ctx : Context}

/-- All that an invalidation does leads along a relation. -/
structure Backend.Advances (backend : Backend σ ι ε) (relation : σ → σ → Prop) : Prop where
  perform : ∀ ctx request, (backend.stores.perform ctx request).Along relation
  check : ∀ ctx, (backend.check ctx).Along relation
  record : ∀ key, (backend.record (.invalidation key)).Along relation

namespace Backend.Advances

variable (advances : backend.Advances relation)
include advances

theorem along_transact {work : Context → Action σ Unit}
    (works : ∀ inner, (work inner).Along relation) :
    (backend.transact ctx work).Along relation := by
  have begins : (backend.begin ctx).Along relation := fun s => advances.perform ctx .begin s
  refine begins.bind fun inner => (works inner).attempt.bind fun outcome => ?_
  cases outcome with
  | ok _ => exact fun s => advances.perform inner .commit s
  | error e =>
      have ends : (backend.rollback inner).Along relation :=
        fun s => advances.perform inner .rollback s
      exact ends.attempt.bind fun _ => along_fail e

omit [IsPreorder σ relation] in
theorem leads : backend.Leads relation ctx :=
  ⟨advances.check ctx, fun request _ => advances.perform ctx request, advances.record⟩

variable [DecidableEq ι]

/-- However deeply invalidations nest, they lead along what their calls lead along. -/
theorem along_hitWithin (depth : Nat) (ctx : Context) (queryId : String) :
    (hitWithin backend depth ctx queryId).Along relation := by
  induction depth generalizing ctx queryId with
  | zero => exact along_fail _
  | succ depth inductionHypothesis =>
      refine advances.along_transact fun inner => ?_
      refine advances.leads.along_dropHit (fun id => ?_) queryId
      refine advances.along_transact fun innermost => ?_
      refine advances.leads.along_dropEntity (fun key => ?_) id
      exact inductionHypothesis innermost key

theorem along_invalidateQuery (queryId : String) :
    (backend.invalidateQuery ctx queryId).Along relation :=
  fun s => advances.along_hitWithin (backend.nesting s) ctx queryId s

theorem along_invalidateEntity (id : ι) : (backend.invalidateEntity ctx id).Along relation :=
  fun s => advances.along_transact (fun inner => advances.leads.along_dropEntity
    (fun key => advances.along_hitWithin (backend.nesting s) inner key) id) s

end Backend.Advances

end Along

section Queries

variable {σ ι ε α β : Type} {backend : Backend σ ι ε} {ctx : Context} {t : Overheard σ}

/-- Of what was overheard from a state on, something holds, if it succeeded. -/
def Hears (action : Action (Overheard σ) α) (t : Overheard σ) (post : List Report → Prop) : Prop :=
  ∀ value, (action t).1 = .ok value → ∃ new, (action t).2.reports = t.reports ++ new ∧ post new

section Rules

variable {post : List Report → Prop}

theorem Hears.weaken {action : Action (Overheard σ) α} {weaker : List Report → Prop}
    (hears : Hears action t post) (weaken : ∀ new, post new → weaker new) :
    Hears action t weaker := by
  intro value succeeds
  obtain ⟨new, heard, holds⟩ := hears value succeeds
  exact ⟨new, heard, weaken new holds⟩

theorem hears_silent {action : Action (Overheard σ) α}
    (silent : (action t).2.reports = t.reports) (holds : post []) : Hears action t post :=
  fun _ _ => ⟨[], by rw [silent, List.append_nil], holds⟩

theorem hears_reporting {report : Report} {action : Action σ α} (holds : post [report]) :
    Hears (action.reporting report) t post :=
  fun _ _ => ⟨[report], rfl, holds⟩

/-- What is heard of two actions in a row is heard of the first, and then of the second. -/
theorem Hears.bind {first : Action (Overheard σ) α} {second : α → Action (Overheard σ) β}
    (hears : Hears first t fun new =>
      ∀ value, Hears (second value) (first t).2 fun more => post (new ++ more)) :
    Hears (first >>= second) t post := by
  intro value succeeds
  obtain ⟨found, ok, okSecond, same⟩ := exists_of_bind_apply_eq_ok succeeds
  obtain ⟨new, heard, next⟩ := hears found ok
  obtain ⟨more, heardMore, holds⟩ := next found value okSecond
  refine ⟨new ++ more, ?_, holds⟩
  rw [same, heardMore, heard, List.append_assoc]

/-- What follows an action that is attempted goes on with how it ended. -/
theorem Hears.attempt_bind {first : Action (Overheard σ) α}
    {second : Except Error α → Action (Overheard σ) β} {new : List Report}
    (heard : (first t).2.reports = t.reports ++ new)
    (hears : Hears (second (first t).1) (first t).2 fun more => post (new ++ more)) :
    Hears (first.attempt >>= second) t post := by
  intro value succeeds
  obtain ⟨more, heardMore, holds⟩ := hears value succeeds
  refine ⟨new ++ more, ?_, holds⟩
  rw [← List.append_assoc, ← heard]
  exact heardMore

/-- Likewise if nothing was heard of the attempt. -/
theorem Hears.silent_attempt_bind {first : Action (Overheard σ) α}
    {second : Except Error α → Action (Overheard σ) β}
    (silent : (first t).2.reports = t.reports)
    (hears : Hears (second (first t).1) (first t).2 post) :
    Hears (first.attempt >>= second) t post :=
  .attempt_bind (silent.trans (List.append_nil _).symm) hears

end Rules

theorem hears_tolerate (label : String) (e : Error) :
    Hears (backend.overheard.tolerate label e) t
      fun new => new = [.event (.error label e.message)] := by
  unfold Backend.tolerate
  split
  · exact nofun
  · exact hears_reporting rfl

/-- A failure that was worked around, if there was one. -/
def Degraded (key : String) (reports : List Report) : Prop :=
  reports = [] ∨ ∃ text, reports = [.event (.error key text)]

theorem hears_remember (key : String) (entities : List ε) :
    Hears (backend.overheard.remember ctx key entities) t (Degraded key) := by
  have tolerates (e : Error) (t : Overheard σ) :
      Hears (backend.overheard.tolerate key e) t (Degraded key) :=
    (hears_tolerate key e).weaken fun _ heard => .inr ⟨_, heard⟩
  refine .silent_attempt_bind rfl ?_
  split
  · exact tolerates _ _
  · refine Hears.bind (hears_silent rfl fun timestamp => .silent_attempt_bind rfl ?_)
    split
    · exact tolerates _ _
    · exact hears_silent rfl (.inl rfl)

/-- What is heard of a query that reached the source as there was no answer to be found. -/
theorem hears_ask (key : String) (query : Action σ (List ε)) :
    Hears (backend.overheard.ask ctx key (query.reporting .asked)) t fun new =>
      ∃ rest, Degraded key rest ∧ new = .asked :: .event (.miss key) :: rest := by
  refine Hears.bind (hears_reporting fun entities => Hears.bind (hears_reporting fun _ => ?_))
  refine Hears.bind ((hears_remember key entities).weaken fun rest degraded _ => ?_)
  exact hears_silent rfl ⟨rest, degraded, by simp⟩

/-- What is heard of a query that is answered by the source since a store failed. -/
theorem hears_bypass (key : String) (e : Error) (query : Action σ α) :
    Hears (backend.overheard.bypass key e (query.reporting .asked)) t
      fun new => new = [.event (.error key e.message), .asked] := by
  refine Hears.bind ((hears_tolerate key e).weaken ?_)
  rintro _ rfl _
  exact hears_reporting rfl

/-- How a query is answered: from its hit, by the source, or by the source since a store failed. -/
inductive Course
  | replayed
  | asked
  | bypassed (e : Error)
  deriving DecidableEq

/-- What is heard of a query on its course. The removals of hits come before all else. -/
def Accounted (key : String) : Course → List Report → Prop
  | .replayed, reports => reports = [.event (.hit key)]
  | .asked, reports => ∃ dropped rest, Degraded key rest ∧
      reports = removals dropped ++ .asked :: .event (.miss key) :: rest
  | .bypassed e, reports => ∃ dropped,
      reports = removals dropped ++ [.event (.error key e.message), .asked]

variable [DecidableEq ι]

/-- The course of a query whose hit is to be invalidated first. -/
def Backend.courseAgain (backend : Backend σ ι ε) (ctx : Context) (key : String) (s : σ) : Course :=
  match (backend.invalidateQuery ctx key s).1 with
  | .ok () => .asked
  | .error e => .bypassed e

/-- The course of a query whose hit was found. -/
def Backend.courseOf (backend : Backend σ ι ε) (ctx : Context) (key : String) (hit : Hit ι)
    (s : σ) : Course :=
  let copies := backend.entities.findByIds ctx hit.entityIds s
  match copies.1 with
  | .ok _ => .replayed
  | .error (.notFound _) => backend.courseAgain ctx key copies.2
  | .error e => .bypassed e

/-- The course of a query in a live context. -/
def Backend.course (backend : Backend σ ι ε) (ctx : Context) (key : String) (s : σ) : Course :=
  let looked := backend.hits.findById ctx key (backend.check ctx s).2
  match looked.1 with
  | .ok (some hit) => backend.courseOf ctx key hit looked.2
  | .ok none => .asked
  | .error e => .bypassed e

/-- Of an invalidation nothing is heard but the removals of hits. -/
theorem removes_invalidateQuery (backend : Backend σ ι ε) (ctx : Context) (key : String)
    (t : Overheard σ) : Removes t (backend.overheard.invalidateQuery ctx key t).2 := by
  have advances : backend.overheard.Advances Removes :=
    { perform := fun ctx request t => removes_of_eq (by cases request <;> rfl)
      check := fun ctx t => removes_of_eq rfl
      record := fun key t => ⟨[key], rfl⟩ }
  exact advances.along_invalidateQuery key t

theorem hears_again (key : String) (query : Action σ (List ε)) :
    Hears
      (do
        match ← Action.attempt (backend.overheard.invalidateQuery ctx key) with
        | .ok () => backend.overheard.ask ctx key (query.reporting .asked)
        | .error e => backend.overheard.bypass key e (query.reporting .asked)) t
      (Accounted key (backend.courseAgain ctx key t.state)) := by
  obtain ⟨dropped, heard⟩ := removes_invalidateQuery backend ctx key t
  have same : (backend.overheard.invalidateQuery ctx key t).1 =
      (backend.invalidateQuery ctx key t.state).1 :=
    (backend.alike_overheard.invalidateQuery key _ _ rfl).1
  refine .attempt_bind heard ?_
  rw [same, Backend.courseAgain]
  cases (backend.invalidateQuery ctx key t.state).1 with
  | ok _ =>
      refine (hears_ask key query).weaken ?_
      rintro _ ⟨rest, degraded, rfl⟩
      exact ⟨dropped, rest, degraded, rfl⟩
  | error e =>
      refine (hears_bypass key e query).weaken ?_
      rintro _ rfl
      exact ⟨dropped, rfl⟩

omit [DecidableEq ι] in
theorem accounted_bypass (key : String) (e : Error) (query : Action σ (List ε)) :
    Hears (backend.overheard.bypass key e (query.reporting .asked)) t
      (Accounted key (.bypassed e)) :=
  (hears_bypass key e query).weaken fun _ heard => ⟨[], heard⟩

theorem hears_replay (key : String) (hit : Hit ι) (query : Action σ (List ε)) :
    Hears (backend.overheard.replay ctx key hit (query.reporting .asked)) t
      (Accounted key (backend.courseOf ctx key hit t.state)) := by
  let copies := backend.entities.findByIds ctx hit.entityIds t.state
  refine .silent_attempt_bind rfl ?_
  rw [Backend.courseOf]
  split
  · rename_i entities found
    have found : copies.1 = .ok entities := found
    rw [found]
    exact Hears.bind (hears_reporting fun _ => hears_silent rfl rfl)
  · rename_i missing found
    have found : copies.1 = .error (.notFound missing) := found
    rw [found]
    exact hears_again key query
  · rename_i e unlike found
    have found : copies.1 = .error e := found
    rw [found]
    cases e with
    | notFound missing => exact absurd rfl (unlike missing)
    | _ => exact accounted_bypass key _ query

/-- What is heard of a query that was answered is what its course tells. -/
theorem hears_queryMany (key : String) (query : Action σ (List ε)) :
    Hears (backend.overheard.queryMany ctx key (query.reporting .asked)) t
      (Accounted key (backend.course ctx key t.state)) := by
  let looked := backend.hits.findById ctx key (backend.check ctx t.state).2
  refine Hears.bind (hears_silent rfl fun _ => .silent_attempt_bind rfl ?_)
  rw [Backend.course]
  split
  · rename_i hit found
    have found : looked.1 = .ok (some hit) := found
    rw [found]
    exact hears_replay key hit query
  · rename_i found
    have found : looked.1 = .ok none := found
    rw [found]
    refine (hears_ask key query).weaken ?_
    rintro _ ⟨rest, degraded, rfl⟩
    exact ⟨[], rest, degraded, rfl⟩
  · rename_i e found
    have found : looked.1 = .error e := found
    rw [found]
    exact accounted_bypass key e query

end Queries

theorem count_removals {report : Report} (other : ∀ key, report ≠ .event (.invalidation key))
    (keys : List String) : (removals keys).count report = 0 := by
  refine List.count_eq_zero.mpr fun member => ?_
  obtain ⟨key, -, same⟩ := List.mem_map.mp member
  exact other key same.symm

/-- A hit is reported where the source was not asked, and nothing is counted twice; a miss is
reported where the source was asked as no answer was to be found. -/
theorem Accounted.counts {key : String} {course : Course} {reports : List Report}
    (accounted : Accounted key course reports) :
    reports.count (.event (.hit key)) + reports.count .asked = 1 ∧
      reports.count (.event (.miss key)) = if course = .asked then 1 else 0 := by
  cases course with
  | replayed =>
      cases accounted
      simp
  | asked =>
      obtain ⟨dropped, rest, rfl | ⟨text, rfl⟩, rfl⟩ := accounted <;>
        simp [List.count_append, count_removals]
  | bypassed e =>
      obtain ⟨dropped, rfl⟩ := accounted
      simp [List.count_append, count_removals]

namespace Simulation

/-- A cache of numbered entries that reports what it does. -/
def reportingSetting : Setting Unit UInt64 (Entry UInt64) :=
  ⟨IdKind.natural.schema, .opened, ⟨[], none, none, false⟩, true⟩

/-- A world with a hit that lists an entry of which there is no copy. -/
def hollowWorld : World Unit (Entry UInt64) :=
  { World.initial () [] 0 with
    repository := Repository.after IdKind.natural.schema
      [.request .initial .root (.createHit ⟨"q", [7], ⟨0, 0⟩⟩)] .empty }

/-- A gate at which no hit can be looked up. -/
def lostHits : Gate Unit UInt64 where
  decide call _ := (if call.method = .hitsFindById then .fail (.backend "lost") else .pass, ())
  revivals _ := 0

/-- The cache behind the gate. -/
def lostSetting : Setting Unit UInt64 (Entry UInt64) :=
  { reportingSetting with gate := lostHits }

/-- A query that is answered with an entry. -/
def askEntry : Action (World Unit (Entry UInt64)) (List (Entry UInt64)) :=
  return [⟨7, "x"⟩]

end Simulation

/-- A query that is answered is heard as its course tells, and being heard changes nothing. A hit is
reported once where the source was not asked, and not at all where it was; it is asked at most once.
A miss is reported once where the source was asked for want of an answer, and nowhere else: not
where the source was asked since a store failed, of which only the failure is reported. -/
theorem queries_are_accounted {σ ι ε : Type} [DecidableEq ι] (backend : Backend σ ι ε)
    (ctx : Context) (key : String) (query : Action σ (List ε)) (s : σ) (answer : List ε)
    (answered : (backend.queryMany ctx key query s).1 = .ok answer) :
    let heard := backend.overheard.queryMany ctx key (query.reporting .asked) ⟨s, []⟩
    let reports := heard.2.reports
    let course := backend.course ctx key s
    (heard.1 = .ok answer ∧ heard.2.state = (backend.queryMany ctx key query s).2) ∧
      Accounted key course reports ∧
      reports.count (.event (.hit key)) + reports.count .asked = 1 ∧
      reports.count (.event (.miss key)) = if course = .asked then 1 else 0 := by
  intro heard reports course
  obtain ⟨same, left⟩ :=
    backend.alike_overheard.queryMany (simulates_reporting .asked query) key ⟨s, []⟩ s rfl
  obtain ⟨new, heardNew, accounted⟩ := hears_queryMany key query answer (same.trans answered)
  rw [List.nil_append] at heardNew
  rw [← heardNew] at accounted
  exact ⟨⟨same.trans answered, left⟩, accounted, accounted.counts⟩

/-- The hit is removed, and the source is asked in its stead. -/
theorem queries_are_accounted_hollowWorld :
    let heard := Simulation.reportingSetting.backend.overheard.queryMany .root "q"
      (Simulation.askEntry.reporting .asked) ⟨Simulation.hollowWorld, []⟩
    heard.1 = .ok [⟨7, "x"⟩] ∧ heard.2.reports.count (.event (.miss "q")) = 1 := by
  have course : Simulation.reportingSetting.backend.course .root "q" Simulation.hollowWorld =
      .asked := by
    decide +kernel
  obtain ⟨⟨same, -⟩, -, -, miss⟩ := queries_are_accounted Simulation.reportingSetting.backend .root
    "q" Simulation.askEntry Simulation.hollowWorld [⟨7, "x"⟩] (by decide +kernel)
  exact ⟨same, miss.trans (if_pos course)⟩

/-- Where the hit cannot be looked up the source is asked, and neither a hit nor a miss is
reported. -/
theorem bypassed_query_is_no_miss :
    let heard := Simulation.lostSetting.backend.overheard.queryMany .root "q"
      (Simulation.askEntry.reporting .asked) ⟨Simulation.World.initial () [] 0, []⟩
    heard.1 = .ok [⟨7, "x"⟩] ∧
      heard.2.reports = [.event (.error "q" "Backend error: lost"), .asked] := by
  decide +kernel

end QueryCache
