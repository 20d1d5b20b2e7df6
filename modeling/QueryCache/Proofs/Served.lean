import QueryCache.Proofs.Notes

/-!
# How a read was served

In a live context a read ends in one of three ways: it is stopped by a call that failed for the
context, it is answered from the stores, or it is answered by the source. Which one it was can be
told from the notes of the read; what came before it does not matter, as long as it stopped nothing,
asked nothing and stored nothing.
-/

namespace QueryCache

open QueryCache.Action

variable {ι ε : Type}

/-- A read was stopped by a call that failed for its context, and failed as the call did. -/
structure Stopped (outcome : Except Error (List ε)) (notes : List (Note ι ε)) : Prop where
  halted : ∃ e, Halted e notes ∧ outcome = .error e
  answered : ∀ e, .source (.error e) ∉ notes

/-- A read was answered from the stores. -/
structure Recalled (stored : List ε → Prop) (outcome : Except Error (List ε))
    (notes : List (Note ι ε)) : Prop where
  clear : ∀ note ∈ notes, ¬ note.Stops
  unasked : ∀ note ∈ notes, ¬ note.Asks
  stored : ∃ answer, outcome = .ok answer ∧ stored answer

/-- A read was answered by the source, which was asked once. If it failed, nothing was to be
stored. -/
structure Consulted (answers : List ε → Prop) (outcome : Except Error (List ε))
    (notes : List (Note ι ε)) : Prop where
  clear : ∀ note ∈ notes, ¬ note.Stops
  asked : ∃ before after, notes = before ++ .source outcome :: after ∧
    (∀ note ∈ before, ¬ note.Asks) ∧ ∀ note ∈ after, ¬ note.Asks
  answers : ∀ answer, outcome = .ok answer → answers answer
  unwritten : ∀ e, outcome = .error e → ∀ note ∈ notes, ¬ note.Writes

/-- While its context was found to be live, a read was stopped, or it was answered from the stores
or by the source. -/
def Served (stored answers : List ε → Prop) (outcome : Except Error (List ε))
    (notes : List (Note ι ε)) : Prop :=
  (∀ note ∈ notes, note.Live) →
    Stopped outcome notes ∨ Recalled stored outcome notes ∨ Consulted answers outcome notes

variable {stored answers : List ε → Prop} {outcome : Except Error (List ε)}
  {notes more : List (Note ι ε)} {e : Error} {α : Type}

/-- A read is served as well after calls that stopped nothing, asked nothing and stored nothing. -/
theorem Served.append (served : Served stored answers outcome more)
    (clear : ∀ note ∈ notes, ¬ note.Stops) (quiet : Quiet notes) :
    Served stored answers outcome (notes ++ more) := by
  have unasked : ∀ note ∈ notes, ¬ note.Asks := fun note member => (quiet note member).1
  have unwritten : ∀ note ∈ notes, ¬ note.Writes := fun note member => (quiet note member).2
  intro live
  rcases served (List.forall_mem_append.mp live).2 with stopped | recalled | consulted
  · obtain ⟨⟨e, halted, failed⟩, answered⟩ := stopped
    refine .inl ⟨⟨e, halted.append_left clear, failed⟩, fun e member => ?_⟩
    rcases List.mem_append.mp member with member | member
    · exact unasked _ member trivial
    · exact answered e member
  · obtain ⟨clearMore, unaskedMore, held⟩ := recalled
    refine .inr (.inl ⟨?_, ?_, held⟩)
    · exact List.forall_mem_append.mpr ⟨clear, clearMore⟩
    · exact List.forall_mem_append.mpr ⟨unasked, unaskedMore⟩
  · obtain ⟨clearMore, ⟨before, after, rfl, unaskedBefore, unaskedAfter⟩, holds, unwrittenMore⟩ :=
      consulted
    refine .inr (.inr ⟨?_, ⟨notes ++ before, after, by simp, ?_, unaskedAfter⟩, holds, ?_⟩)
    · exact List.forall_mem_append.mpr ⟨clear, clearMore⟩
    · exact List.forall_mem_append.mpr ⟨unasked, unaskedBefore⟩
    · exact fun e failed => List.forall_mem_append.mpr ⟨unwritten, unwrittenMore e failed⟩

/-- How an attempt ended does not matter for how a read is served that goes on after it, unless it
failed for its context. -/
theorem Served.after {attempted : Except Error α} (heeded : Heeded attempted notes)
    (tolerable : Tolerable attempted) (quiet : Quiet notes)
    (served : Served stored answers outcome more) :
    Served stored answers outcome (notes ++ more) := by
  intro live
  have clear := heeded.clear tolerable (List.forall_mem_append.mp live).1
  exact served.append clear quiet live

theorem served_of_context (heeded : Heeded (.error e : Except Error α) notes) (quiet : Quiet notes)
    (context : e.isContext = true) :
    Served stored answers (.error e : Except Error (List ε)) notes := by
  intro live
  rcases heeded live with ⟨-, tolerable⟩ | ⟨_, halted, ⟨⟩⟩
  · cases context.symm.trans (tolerable e rfl)
  · exact .inl ⟨⟨e, halted, rfl⟩, fun _ member => (quiet _ member).1 trivial⟩

theorem served_recalled {answer : List ε} (holds : stored answer) :
    Served stored answers (.ok answer) ([] : List (Note ι ε)) :=
  fun _ => .inr (.inl ⟨List.forall_mem_nil _, List.forall_mem_nil _, answer, rfl, holds⟩)

theorem served_source (holds : ∀ answer, outcome = .ok answer → answers answer) :
    Served stored answers outcome ([.source outcome] : List (Note ι ε)) := by
  refine fun _ => .inr (.inr ⟨?_, ⟨[], [], rfl, ?_, ?_⟩, holds, fun _ _ => ?_⟩)
  · exact List.forall_mem_singleton.mpr id
  · exact List.forall_mem_nil _
  · exact List.forall_mem_nil _
  · exact List.forall_mem_singleton.mpr id

/-- An answer can be put in another form, if the form is that of the answers of the source. -/
theorem Served.map {held : List ε → Prop} {form : List ε → List ε}
    (served : Served stored answers outcome notes)
    (recalls : ∀ answer, stored answer → held (form answer))
    (same : ∀ answer, answers answer → form answer = answer) :
    Served held (fun _ => True) (outcome.map form) notes := by
  intro live
  rcases served live with stopped | recalled | ⟨clear, asked, holds, unwritten⟩
  · obtain ⟨⟨e, halted, rfl⟩, answered⟩ := stopped
    exact .inl ⟨⟨e, halted, rfl⟩, answered⟩
  · obtain ⟨clear, unasked, answer, rfl, isStored⟩ := recalled
    exact .inr (.inl ⟨clear, unasked, form answer, rfl, recalls answer isStored⟩)
  · have fixed : outcome.map form = outcome := by
      cases outcome with
      | error e => rfl
      | ok answer => exact congrArg Except.ok (same answer (holds answer rfl))
    rw [fixed]
    exact .inr (.inr ⟨clear, asked, fun _ _ => trivial, unwritten⟩)

section Ends

variable (served : Served stored answers outcome notes) (live : ∀ note ∈ notes, note.Live)
include served live

/-- A call that fails for its context ends a read. -/
theorem Served.ends_at_stop : ∀ before request e after,
    notes = before ++ .call request (some e) :: after →
      (Note.call request (some e) : Note ι ε).Stops →
        outcome = .error e ∧ ∀ note ∈ after, ¬ note.Asks := by
  intro before request e after split stops
  have noted : .call request (some e) ∈ notes := by simp [split]
  rcases served live with ⟨⟨first, halted, failed⟩, -⟩ | ⟨clear, -, -⟩ | ⟨clear, -, -, -⟩
  · obtain ⟨rfl, rollbacks⟩ := halted.eq_of_stops split stops
    exact ⟨failed, fun note member => (rollbacks note member).not_asks⟩
  · exact absurd stops (clear _ noted)
  · exact absurd stops (clear _ noted)

/-- A read that no call ended was answered from the stores, or by the source. -/
theorem Served.recalled_or_asked (clear : ∀ note ∈ notes, ¬ note.Stops) :
    (∃ answer, stored answer ∧ outcome = .ok answer ∧ ∀ note ∈ notes, ¬ note.Asks) ∨
      ∃ before after, notes = before ++ .source outcome :: after ∧
        ∀ note ∈ before ++ after, ¬ note.Asks := by
  rcases served live with ⟨⟨e, halted, -⟩, -⟩ | ⟨-, unasked, answer, found, isStored⟩ | consulted
  · obtain ⟨before, request, after, split, stops, -, -⟩ := halted
    exact absurd stops (clear _ (by simp [split]))
  · exact .inl ⟨answer, isStored, found, unasked⟩
  · obtain ⟨before, after, split, unaskedBefore, unaskedAfter⟩ := consulted.asked
    exact .inr ⟨before, after, split, List.forall_mem_append.mpr ⟨unaskedBefore, unaskedAfter⟩⟩

/-- A read whose source fails, fails so too, and stores nothing. -/
theorem Served.fails_as_source : ∀ e, .source (.error e) ∈ notes →
    outcome = .error e ∧ ∀ note ∈ notes, ¬ note.Writes := by
  intro e asked
  rcases served live with ⟨-, answered⟩ | ⟨-, unasked, -⟩ | ⟨-, consulted, -, unwritten⟩
  · exact absurd asked (answered e)
  · exact absurd trivial (unasked _ asked)
  · obtain ⟨before, after, split, unaskedBefore, unaskedAfter⟩ := consulted
    have failed : outcome = .error e := by
      rw [split] at asked
      rcases List.mem_append.mp asked with member | member
      · exact absurd trivial (unaskedBefore _ member)
      · rcases List.mem_cons.mp member with same | member
        · exact (Note.source.inj same).symm
        · exact absurd trivial (unaskedAfter _ member)
    exact ⟨failed, unwritten e failed⟩

end Ends

/-- What was done to remember an answer: it was heeded, no source was asked, and it failed only for
its context. -/
structure Remembered (outcome : Except Error Unit) (notes : List (Note ι ε)) : Prop where
  heeded : Heeded outcome notes
  unasked : ∀ note ∈ notes, ¬ note.Asks
  failed : ∀ e, outcome = .error e → e.isContext = true

theorem Remembered.append {outcome : Except Error Unit} {value : α}
    (remembered : Remembered outcome more) (heeded : Heeded (.ok value : Except Error α) notes)
    (unasked : ∀ note ∈ notes, ¬ note.Asks) : Remembered outcome (notes ++ more) where
  heeded := heeded.append_of_ok remembered.heeded
  unasked := List.forall_mem_append.mpr ⟨unasked, remembered.unasked⟩
  failed := remembered.failed

/-- An answer of the source that is remembered is the answer, unless the read was stopped. -/
theorem Remembered.served {outcome : Except Error Unit} (remembered : Remembered outcome notes)
    {entities : List ε} (holds : answers entities) :
    Served stored answers (outcome.map fun _ => entities) (.source (.ok entities) :: notes) := by
  intro live
  rcases remembered.heeded (List.forall_mem_cons.mp live).2 with
    ⟨clear, tolerable⟩ | ⟨e, halted, rfl⟩
  · cases outcome with
    | error e => cases (remembered.failed e rfl).symm.trans (tolerable e rfl)
    | ok _ =>
        refine .inr (.inr ⟨List.forall_mem_cons.mpr ⟨id, clear⟩, ?_, ?_, nofun⟩)
        · exact ⟨[], notes, rfl, List.forall_mem_nil _, remembered.unasked⟩
        · rintro _ ⟨⟩
          exact holds
  · have clear : ∀ note ∈ ([.source (.ok entities)] : List (Note ι ε)), ¬ note.Stops :=
      List.forall_mem_singleton.mpr id
    refine .inl ⟨⟨e, halted.append_left clear, rfl⟩, fun _ member => ?_⟩
    rcases List.mem_cons.mp member with impossible | member
    · cases impossible
    · exact remembered.unasked _ member trivial

end QueryCache
