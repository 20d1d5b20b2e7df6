import QueryCache.Proofs.Attainment

/-!
# How deeply invalidations nest

Every step down into an invalidation removes a hit. An invalidation therefore never comes to the
bound on its depth, as long as the bound is above the number of hits that its context sees; and
between any two such bounds it makes no difference which one is set. `Coincides` says of two actions
that they are the same where a context sees a view, and what they attain there: this is what the
bounds of the steps further down are judged by.

Nor does it make a difference what a removal does that has come to the bound. `hitAbove` leaves that
open: it opens the recursion of removals so many times, and goes on in any given way below.
-/

namespace QueryCache

namespace Invalidation

variable {σ ι ε : Type} [DecidableEq ι] (backend : Backend σ ι ε)
  (below : Context → String → Action σ Unit)

/-- Removes a hit and what goes with it, nesting as deeply as given and then going on as given. -/
def hitAbove : Nat → Context → String → Action σ Unit
  | 0 => below
  | depth + 1 => fun ctx queryId =>
      backend.transact ctx
        (dropHit backend
          (fun ctx id => backend.transact ctx (dropEntity backend (hitAbove depth) id))
          queryId)

/-- Removes an entity, or a hit, and what goes with it, nesting as deeply as given and then going on
as given. -/
def nodeAbove (depth : Nat) (ctx : Context) : Node ι → Action σ Unit
  | .entity id => backend.transact ctx (dropEntity backend (hitAbove backend below depth) id)
  | .hit queryId => hitAbove backend below depth ctx queryId

/-- A removal with a bound fails below it. -/
theorem hitWithin_eq_hitAbove (depth : Nat) :
    hitWithin backend depth = hitAbove backend (fun _ _ => Action.fail tooDeep) depth := by
  induction depth with
  | zero => rfl
  | succ depth inductionHypothesis =>
      funext ctx queryId
      rw [hitWithin, hitAbove, inductionHypothesis]

end Invalidation

namespace Backend

open QueryCache.Action Repository

variable {σ ι ε α β : Type} {backend : Backend σ ι ε} {part : σ → Repository}
  {ctx : Context} {view : View}

/-- Where a context sees a view of a sound repository, two actions end alike in the same state, and
if they succeed they have led to a view as stated. -/
structure Coincides (backend : Backend σ ι ε) (part : σ → Repository) (ctx : Context) (view : View)
    (left right : Action σ α) (post : α → View → Prop) : Prop where
  attains : backend.Attains part ctx view left post
  same : ∀ s, (part s).Sound backend.schema → (part s).seen ctx.tx = .ok view → left s = right s

/-- Transactions are the same if what is done in them is, from where they begin. -/
theorem transact_congr {work work' : Context → Action σ Unit} {s : σ}
    (same : ∀ {inner} opened, backend.begin ctx s = (.ok inner, opened) →
      work inner opened = work' inner opened) :
    backend.transact ctx work s = backend.transact ctx work' s := by
  rw [transact, transact, bind_apply, bind_apply]
  generalize began : backend.begin ctx s = ended at same
  obtain ⟨e | inner, opened⟩ := ended
  · rfl
  · simp only [bind_apply, attempt_apply, same opened rfl]

section Rules

theorem Attains.coincides {action : Action σ α} {post : α → View → Prop}
    (attains : backend.Attains part ctx view action post) :
    backend.Coincides part ctx view action action post :=
  ⟨attains, fun _ _ _ => rfl⟩

theorem Coincides.weaken {left right : Action σ α} {post weaker : α → View → Prop}
    (coincides : backend.Coincides part ctx view left right post)
    (weaken : ∀ value later, post value later → weaker value later) :
    backend.Coincides part ctx view left right weaker :=
  ⟨coincides.attains.weaken weaken, coincides.same⟩

theorem Coincides.bind {first first' : Action σ α} {second second' : α → Action σ β}
    {middle : α → View → Prop} {post : β → View → Prop}
    (atFirst : backend.Coincides part ctx view first first' middle)
    (atSecond : ∀ value between, middle value between →
      backend.Coincides part ctx between (second value) (second' value) post) :
    backend.Coincides part ctx view (first >>= second) (first' >>= second') post where
  attains := atFirst.attains.bind fun value between holds => (atSecond value between holds).attains
  same s sound shown := by
    have attained := atFirst.attains s
    rw [bind_apply, bind_apply, ← atFirst.same s sound shown]
    generalize first s = ended at attained
    obtain ⟨e | value, next⟩ := ended
    · rfl
    · obtain ⟨soundNext, between, shownNext, holds⟩ := attained value sound shown rfl
      exact (atSecond value between holds).same next soundNext shownNext

/-- What follows an action that only reads starts from the same view. -/
theorem Coincides.read {first : Action σ α} {second second' : α → Action σ β} {told : α → Prop}
    {post : β → View → Prop}
    (atFirst : backend.Attains part ctx view first fun value later => told value ∧ later = view)
    (atSecond : ∀ value, told value →
      backend.Coincides part ctx view (second value) (second' value) post) :
    backend.Coincides part ctx view (first >>= second) (first >>= second') post := by
  apply atFirst.coincides.bind
  rintro value _ ⟨isTold, rfl⟩
  exact atSecond value isTold

theorem coincides_each {left right : α → Action σ Unit} {items : List α} (kept : View → Prop)
    (one : ∀ item middle, kept middle →
      backend.Coincides part ctx middle (left item) (right item) fun _ later => kept later)
    (holds : kept view) :
    backend.Coincides part ctx view (Action.each left items) (Action.each right items)
      fun _ later => kept later := by
  induction items generalizing view with
  | nil => exact (attains_pure holds).coincides
  | cons item items inductionHypothesis =>
      exact (one item view holds).bind fun _ _ onward => inductionHypothesis onward

end Rules

namespace Hindered

variable (hindered : backend.Hindered part)
include hindered

/-- Transactions coincide if what is done in them does. -/
theorem coincides_transact {work work' : Context → Action σ Unit} {post : View → Prop}
    (stays : ∀ inner, (work inner).Along (backend.Stays part False inner.tx))
    (inner : ∀ tx, backend.Coincides part (ctx.withTx tx) view (work (ctx.withTx tx))
      (work' (ctx.withTx tx)) fun _ later => post later) :
    backend.Coincides part ctx view (backend.transact ctx work) (backend.transact ctx work')
      fun _ later => post later where
  attains := hindered.attains_transact stays fun tx => (inner tx).attains
  same s sound shown := by
    refine transact_congr fun opened began => ?_
    obtain ⟨⟨tx, rfl⟩, soundOpened, sameSeen⟩ := hindered.seen_of_begin sound began
    exact (inner tx).same opened soundOpened (sameSeen.trans shown)

section Removals

open Invalidation

variable {count : Nat}

/-- Removals of a hit coincide if the removals of entities do where there are fewer hits. -/
theorem coincides_dropHit {removeEntity removeEntity' : Context → ι → Action σ Unit}
    (removes : ∀ view id, view.hits.size < count →
      backend.Coincides part ctx view (removeEntity ctx id) (removeEntity' ctx id)
        fun _ later => later.hits.size < count)
    (queryId : String) (few : view.hits.size ≤ count) :
    backend.Coincides part ctx view (dropHit backend removeEntity queryId ctx)
      (dropHit backend removeEntity' queryId ctx) fun _ later => later.hits.size ≤ count := by
  refine .read hindered.attains_check fun _ _ => ?_
  refine .read (hindered.attains_findHit queryId) fun found isTold => ?_
  cases found with
  | none => exact (attains_pure few).coincides
  | some hit =>
      obtain ⟨bytes, present, -⟩ := exists_of_told_eq_some isTold
      have fewer := Rows.size_erase_lt present
      apply (hindered.attains_deleteHit queryId).coincides.bind
      rintro _ _ rfl
      refine .read (hindered.attains_record _) fun _ _ => ?_
      have left : (view.hits.erase queryId).size < count := by omega
      refine Coincides.weaken ?_ fun _ _ => Nat.le_of_lt
      refine coincides_each (·.hits.size < count) (fun id middle holds => ?_) left
      exact .read hindered.attains_check fun _ _ => removes middle id holds

variable [DecidableEq ι]

/-- Removals of an entity coincide if the removals of hits do. -/
theorem coincides_dropEntity {removeHit removeHit' : Context → String → Action σ Unit}
    (removes : ∀ view queryId, view.hits.size ≤ count →
      backend.Coincides part ctx view (removeHit ctx queryId) (removeHit' ctx queryId)
        fun _ later => later.hits.size ≤ count)
    (id : ι) (few : view.hits.size ≤ count) :
    backend.Coincides part ctx view (dropEntity backend removeHit id ctx)
      (dropEntity backend removeHit' id ctx) fun _ later => later.hits.size ≤ count := by
  refine .read hindered.attains_check fun _ _ => .read (attains_liftM _) fun key _ => ?_
  refine (removes view key few).bind fun _ first fewFirst => ?_
  refine .read hindered.attains_check fun _ _ => .read hindered.attains_findHits fun hits _ => ?_
  refine (coincides_each (·.hits.size ≤ count) (fun queryId middle holds => ?_) fewFirst).bind
    fun _ second fewSecond => ?_
  · exact .read hindered.attains_check fun _ _ => removes middle queryId holds
  refine .read hindered.attains_check fun _ _ => .read (hindered.attains_findEntity id) ?_
  intro found _
  split
  · refine ((hindered.attains_deleteEntity id).weaken ?_).coincides
    rintro _ _ ⟨_, -, rfl⟩
    exact fewSecond
  · exact (attains_pure fewSecond).coincides

/-- A removal with a bound does what it does with any other, and whatever stands below that. -/
theorem coincides_hitWithin {depth depth' : Nat} (enough : count < depth) (enough' : count < depth')
    (below : Context → String → Action σ Unit) (ctx : Context) (queryId : String)
    (few : view.hits.size ≤ count) :
    backend.Coincides part ctx view (hitWithin backend depth ctx queryId)
      (hitAbove backend below depth' ctx queryId) fun _ later => later.hits.size ≤ count := by
  induction depth generalizing depth' count ctx view queryId with
  | zero => exact absurd enough (Nat.not_lt_zero _)
  | succ depth inductionHypothesis =>
      obtain ⟨depth', rfl⟩ := Nat.exists_eq_succ_of_ne_zero (Nat.ne_zero_of_lt enough')
      refine hindered.coincides_transact (fun inner => ?_) fun tx => ?_
      · exact hindered.along_dropHit (hindered.along_entityWithin False.elim depth inner) queryId
      refine hindered.coincides_dropHit (fun middle id fewer => ?_) queryId few
      refine hindered.coincides_transact (fun inner => ?_) fun innermost => ?_
      · exact hindered.along_dropEntity (hindered.along_hitWithin False.elim depth inner) id
      have below : middle.hits.size ≤ count - 1 := by omega
      refine (hindered.coincides_dropEntity (fun last key holds => ?_) id below).weaken ?_
      · exact inductionHypothesis (by omega) (by omega) _ key holds
      · intro _ later holds
        omega

theorem coincides_entityWithin {depth depth' : Nat} (enough : count < depth)
    (enough' : count < depth') (below : Context → String → Action σ Unit) (id : ι)
    (few : view.hits.size ≤ count) :
    backend.Coincides part ctx view (entityWithin backend depth ctx id)
      (nodeAbove backend below depth' ctx (.entity id)) fun _ later => later.hits.size ≤ count := by
  refine hindered.coincides_transact (fun inner => ?_) fun tx => ?_
  · exact hindered.along_dropEntity (hindered.along_hitWithin False.elim depth inner) id
  · refine hindered.coincides_dropEntity (fun middle key few => ?_) id few
    exact hindered.coincides_hitWithin enough enough' below _ key few

variable {s : σ} {depth depth' : Nat} (sound : (part s).Sound backend.schema)
  (shown : (part s).seen ctx.tx = .ok view) (enough : view.hits.size < depth)
  (enough' : view.hits.size < depth')
include sound shown enough enough'

/-- Between bounds above the number of hits that are seen, it makes no difference for the removal of
a hit which one is set. -/
theorem hitWithin_eq (queryId : String) :
    hitWithin backend depth ctx queryId s = hitWithin backend depth' ctx queryId s := by
  rw [hitWithin_eq_hitAbove backend depth']
  exact (hindered.coincides_hitWithin enough enough' _ ctx queryId (Nat.le_refl _)).same s sound
    shown

/-- Nor does it for the removal of an entity. -/
theorem entityWithin_eq (id : ι) :
    entityWithin backend depth ctx id s = entityWithin backend depth' ctx id s := by
  have coincides : backend.Coincides part ctx view (entityWithin backend depth ctx id) _ _ :=
    hindered.coincides_entityWithin enough enough' (fun _ _ => fail tooDeep) id
      (Nat.le_refl view.hits.size)
  rw [nodeAbove, ← hitWithin_eq_hitAbove] at coincides
  exact coincides.same s sound shown

end Removals

end Hindered

end Backend

end QueryCache
