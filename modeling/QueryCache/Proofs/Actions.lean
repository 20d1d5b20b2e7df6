import Mathlib.Order.Defs.Unbundled
import QueryCache.Action

/-!
# Reasoning about actions

Three judgements on actions. `Along` follows one action: from every state it leads to a related
one, whether it succeeds or fails. `FailsClean` says of one action that it leaves the state as it
was if it fails. `Simulates` compares two actions on states of different kinds: from related states
both end alike, in related states again. Each judgement has rules for the ways of building actions,
so that a derivation has the shape of the action.
-/

namespace QueryCache.Action

variable {σ τ α β : Type}

@[simp] theorem liftM_apply (result : Except Error α) (s : σ) :
    (liftM result : Action σ α) s = (result, s) := rfl

/-- An action on a part of a state ends as it ends on that part alone. -/
@[simp] theorem within_apply (part : τ → σ) (put : σ → τ → τ) (action : Action σ α) (t : τ) :
    within part put action t = ((action (part t)).1, put (action (part t)).2 t) := rfl

/-- An action with its value put in another form. -/
def map (form : α → β) (action : Action σ α) : Action σ β := fun s =>
  ((action s).1.map form, (action s).2)

@[simp] theorem map_apply (form : α → β) (action : Action σ α) (s : σ) :
    action.map form s = ((action s).1.map form, (action s).2) := rfl

theorem map_eq_error_iff {form : α → β} {result : Except Error α} {e : Error} :
    result.map form = .error e ↔ result = .error e := by
  cases result <;> simp [Except.map]

theorem bind_assoc {γ : Type} (first : Action σ α) (second : α → Action σ β)
    (third : β → Action σ γ) :
    first >>= second >>= third = first >>= fun value => second value >>= third := by
  funext s
  simp only [bind_apply]
  rcases first s with ⟨e | value, middle⟩ <;> rfl

/-- What the second of two actions leaves alone is as the first left it. -/
theorem read_bind {γ : Type} (read : σ → γ) {first : Action σ α} {second : α → Action σ β}
    (keeps : ∀ value s, read (second value s).2 = read s) (s : σ) :
    read ((first >>= second) s).2 = read (first s).2 := by
  rw [bind_apply]
  rcases first s with ⟨e | value, middle⟩
  · rfl
  · exact keeps value middle

/-- Where two actions in a row succeed, so did the first, and then the second. -/
theorem exists_of_bind_apply_eq_ok {first : Action σ α} {second : α → Action σ β} {s : σ}
    {value : β} (succeeds : ((first >>= second) s).1 = .ok value) :
    ∃ found, (first s).1 = .ok found ∧ (second found (first s).2).1 = .ok value ∧
      ((first >>= second) s).2 = (second found (first s).2).2 := by
  rw [bind_apply] at succeeds ⊢
  generalize first s = ended at succeeds ⊢
  obtain ⟨found | e, middle⟩ := ended
  · cases succeeds
  · exact ⟨_, rfl, succeeds, rfl⟩

theorem exists_of_bind_apply_eq {first : Action σ α} {second : α → Action σ β} {s t : σ} {value : β}
    (ends : (first >>= second) s = (.ok value, t)) :
    ∃ found middle, first s = (.ok found, middle) ∧ second found middle = (.ok value, t) := by
  rw [bind_apply] at ends
  generalize first s = ended at ends
  obtain ⟨_ | found, middle⟩ := ended
  · cases ends
  · exact ⟨found, middle, rfl, ends⟩

/-- Putting a value in another form leaves the state to the action. -/
theorem bind_pure_snd (action : Action σ α) (form : α → β) (s : σ) :
    ((do return form (← action) : Action σ β) s).2 = (action s).2 := by
  rw [bind_apply]
  rcases action s with ⟨e | value, done⟩ <;> rfl

theorem eq_of_attempt_eq {action : Action σ α} {s t : σ} {outcome : Except Error α}
    (ends : action.attempt s = (.ok outcome, t)) : action s = (outcome, t) := by
  rw [attempt_apply, Prod.mk.injEq, Except.ok.injEq] at ends
  exact Prod.ext ends.1 ends.2

/-- What follows an attempt goes on with how it ended. -/
theorem attempt_bind_of_eq {action : Action σ α} {second : Except Error α → Action σ β} {s : σ}
    {outcome : Except Error α} (ended : (action s).1 = outcome) :
    (action.attempt >>= second) s = second outcome (action s).2 := by
  rw [bind_apply, attempt_apply, ended]

theorem exists_of_bind_eq_ok {ε : Type} {first : Except ε α} {second : α → Except ε β}
    {value : β} (ends : (first >>= second) = .ok value) :
    ∃ middle, first = .ok middle ∧ second middle = .ok value := by
  cases first with
  | error e => cases ends
  | ok middle => exact ⟨middle, rfl, ends⟩

theorem eq_of_map_eq {form : α → β}
    (injective : ∀ left right, form left = form right → left = right)
    {first second : Except Error α} (same : first.map form = second.map form) : first = second := by
  cases first <;> cases second <;> simp only [Except.map, reduceCtorEq, Except.ok.injEq,
    Except.error.injEq] at same ⊢
  · exact same
  · exact injective _ _ same

/-- From every state the action leads to a related one, however it ends. -/
def Along (relation : σ → σ → Prop) (action : Action σ α) : Prop :=
  ∀ s, relation s (action s).2

section Along

variable {relation : σ → σ → Prop}

theorem Along.attempt {action : Action σ α} (along : Along relation action) :
    Along relation action.attempt :=
  fun s => along s

theorem Along.map {action : Action σ α} (along : Along relation action) (form : α → β) :
    Along relation (action.map form) :=
  fun s => along s

variable [IsPreorder σ relation]

theorem along_pure (value : α) : Along relation (Pure.pure value : Action σ α) :=
  fun s => refl s

theorem along_fail (e : Error) : Along relation (fail e : Action σ α) :=
  fun s => refl s

theorem along_liftM (result : Except Error α) : Along relation (liftM result : Action σ α) :=
  fun s => refl s

theorem along_state : Along relation (state : Action σ σ) :=
  fun s => refl s

/-- In a row, the second action has to lead on only from where the first one ended. -/
theorem related_bind {first : Action σ α} {second : α → Action σ β} {s : σ}
    (step : relation s (first s).2)
    (next : ∀ value, (first s).1 = .ok value →
      relation (first s).2 (second value (first s).2).2) :
    relation s ((first >>= second) s).2 := by
  rw [bind_apply]
  revert step next
  rcases first s with ⟨e | value, middle⟩ <;> intro step next
  · exact step
  · exact IsTrans.trans _ _ _ step (next value rfl)

theorem Along.bind {first : Action σ α} {second : α → Action σ β}
    (atFirst : Along relation first) (atSecond : ∀ value, Along relation (second value)) :
    Along relation (first >>= second) :=
  fun s => related_bind (atFirst s) fun value _ => atSecond value _

theorem Along.bind_liftM {result : Except Error α} {second : α → Action σ β}
    (atSecond : ∀ value, result = .ok value → Along relation (second value)) :
    Along relation ((liftM result : Action σ α) >>= second) := by
  intro s
  rw [bind_apply, liftM_apply]
  cases result with
  | error e => exact refl s
  | ok value => exact atSecond value rfl s

theorem Along.each {action : α → Action σ Unit} {items : List α}
    (along : ∀ item ∈ items, Along relation (action item)) :
    Along relation (Action.each action items) := by
  induction items with
  | nil => exact along_pure ()
  | cons item items inductionHypothesis =>
      refine Along.bind (along item List.mem_cons_self) fun _ => ?_
      exact inductionHypothesis fun other member => along other (List.mem_cons_of_mem _ member)

end Along

/-- A result that is no failure of a context. -/
def Tolerable (result : Except Error α) : Prop :=
  ∀ e, result = .error e → e.isContext = false

theorem tolerable_ok (value : α) : Tolerable (.ok value : Except Error α) := nofun

theorem tolerable_error {e : Error} (tolerable : e.isContext = false) :
    Tolerable (.error e : Except Error α) := by
  rintro _ ⟨⟩
  exact tolerable

theorem Tolerable.bind {first : Action σ α} {second : α → Action σ β} {s : σ}
    (atFirst : Tolerable (first s).1)
    (atSecond : ∀ value, Tolerable (second value (first s).2).1) :
    Tolerable ((first >>= second) s).1 := by
  rw [bind_apply]
  generalize first s = ended at atFirst atSecond
  obtain ⟨e | value, middle⟩ := ended
  · exact tolerable_error (atFirst e rfl)
  · exact atSecond value

theorem tolerable_each {action : α → Action σ Unit}
    (tolerable : ∀ item s, Tolerable (action item s).1) (items : List α) (s : σ) :
    Tolerable (Action.each action items s).1 := by
  induction items generalizing s with
  | nil => exact tolerable_ok ()
  | cons item items inductionHypothesis =>
      exact .bind (tolerable item s) fun _ => inductionHypothesis _

/-- An action that changes nothing if it fails. -/
def FailsClean (action : Action σ α) : Prop :=
  ∀ s e, (action s).1 = .error e → (action s).2 = s

section FailsClean

theorem failsClean_fail (e : Error) : FailsClean (fail e : Action σ α) :=
  fun _ _ _ => rfl

/-- What reads first changes nothing if what comes next changes nothing. -/
theorem FailsClean.bind {first : Action σ α} {second : α → Action σ β}
    (reads : Along Eq first) (clean : ∀ value, FailsClean (second value)) :
    FailsClean (first >>= second) := by
  intro s e failed
  have same := reads s
  rw [bind_apply] at failed ⊢
  generalize first s = ended at same failed ⊢
  obtain ⟨_ | value, middle⟩ := ended
  · exact same.symm
  · exact (clean value middle e failed).trans same.symm

theorem FailsClean.map {action : Action σ α} (clean : FailsClean action) (form : α → β) :
    FailsClean (action.map form) :=
  fun s e failed => clean s e (map_eq_error_iff.mp failed)

/-- What holds of an action on a part of a state holds of it on the whole. -/
theorem FailsClean.within {part : τ → σ} {put : σ → τ → τ} (same : ∀ t, put (part t) t = t)
    {action : Action σ α} (clean : FailsClean action) : FailsClean (within part put action) := by
  intro t e failed
  rw [within_apply, clean (part t) e failed]
  exact same t

end FailsClean

/-- From related states both actions end alike and leave related states. -/
def Simulates (related : σ → τ → Prop) (left : Action σ α) (right : Action τ α) : Prop :=
  ∀ s t, related s t → (left s).1 = (right t).1 ∧ related (left s).2 (right t).2

section Simulates

variable {related : σ → τ → Prop}

theorem simulates_pure (value : α) :
    Simulates related (Pure.pure value) (Pure.pure value) :=
  fun _ _ relation => ⟨rfl, relation⟩

theorem simulates_fail (e : Error) :
    Simulates related (fail e : Action σ α) (fail e : Action τ α) :=
  fun _ _ relation => ⟨rfl, relation⟩

theorem simulates_liftM (result : Except Error α) :
    Simulates related (liftM result : Action σ α) (liftM result : Action τ α) :=
  fun _ _ relation => ⟨rfl, relation⟩

theorem Simulates.bind {first : Action σ α} {second : α → Action σ β} {first' : Action τ α}
    {second' : α → Action τ β} (atFirst : Simulates related first first')
    (atSecond : ∀ value, Simulates related (second value) (second' value)) :
    Simulates related (first >>= second) (first' >>= second') := by
  intro s t relation
  have step := atFirst s t relation
  rw [bind_apply, bind_apply]
  revert step
  rcases first s with ⟨value | e, s'⟩ <;> rcases first' t with ⟨value' | e', t'⟩ <;>
    rintro ⟨same, relation'⟩ <;> cases same
  · exact ⟨rfl, relation'⟩
  · exact atSecond _ s' t' relation'

theorem Simulates.attempt {action : Action σ α} {action' : Action τ α}
    (simulates : Simulates related action action') :
    Simulates related action.attempt action'.attempt := by
  intro s t relation
  obtain ⟨same, relation'⟩ := simulates s t relation
  exact ⟨congrArg Except.ok same, relation'⟩

theorem Simulates.map {action : Action σ α} {action' : Action τ α}
    (simulates : Simulates related action action') (form : α → β) :
    Simulates related (action.map form) (action'.map form) := by
  intro s t relation
  obtain ⟨same, relation'⟩ := simulates s t relation
  exact ⟨congrArg (Except.map form) same, relation'⟩

theorem Simulates.of_map {action : Action σ α} {action' : Action τ α} {form : α → β}
    (simulates : Simulates related (action.map form) (action'.map form))
    (injective : ∀ first second, form first = form second → first = second) :
    Simulates related action action' := by
  intro s t relation
  obtain ⟨same, relation'⟩ := simulates s t relation
  exact ⟨eq_of_map_eq injective same, relation'⟩

theorem Simulates.each {action : α → Action σ Unit} {action' : α → Action τ Unit}
    (simulates : ∀ item, Simulates related (action item) (action' item)) (items : List α) :
    Simulates related (each action items) (each action' items) := by
  induction items with
  | nil => exact simulates_pure ()
  | cons item items inductionHypothesis =>
      exact (simulates item).bind fun _ => inductionHypothesis

end Simulates

end QueryCache.Action
