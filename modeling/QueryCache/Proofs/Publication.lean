import QueryCache.Proofs.Isolation
import QueryCache.Proofs.Lockstep
import QueryCache.Simulation.Entry

/-!
# When staged writes are published

Two runs of the same turns are compared, from repositories that differ within one transaction only.
They go on to differ within that transaction only, until a commit lays its changes over what is
around it. So a write that was staged can be told from outside only after its transaction and all
those around it were committed, each of them in time.
-/

namespace QueryCache

open QueryCache.Action Wire

namespace Table

variable {table left right : Table} {tx top : TxId} {place : Option TxId}

/-- A commit of the transaction lays its changes over what is around it: the transaction is open,
and so is the one that it stands in, if any. -/
def Publishes (table : Table) (tx : TxId) : Prop :=
  ∃ parent, table.opened tx = some parent ∧
    ∀ outer, parent = some outer → (table.opened outer).isSome

theorem Publishes.congr {other : Table} (same : ∀ tx, other.opened tx = table.opened tx)
    (publishes : table.Publishes tx) : other.Publishes tx := by
  obtain ⟨parent, isOpen, parentOpen⟩ := publishes
  refine ⟨parent, (same tx).trans isOpen, fun outer inside => ?_⟩
  rw [same]
  exact parentOpen outer inside

/-- A commit that publishes nothing drops the changes as a rollback does. -/
theorem commit_of_not_publishes (lost : ¬ table.Publishes tx) :
    (commit tx table).2 = table.closing tx := by
  cases present : table.overlays[tx]? with
  | none =>
      have closed := opened_eq_none_iff.mpr present
      rw [commit_of_closed closed, closing_of_closed closed]
  | some overlay =>
      cases nested : overlay.parent with
      | none => exact absurd ⟨none, opened_eq_some_iff.mpr ⟨overlay, present, nested⟩, nofun⟩ lost
      | some parent =>
          have isOpen := opened_eq_some_iff.mpr ⟨overlay, present, nested⟩
          have closed : table.opened parent = none := by
            rw [← Option.not_isSome_iff_eq_none]
            intro stillOpen
            refine lost ⟨some parent, isOpen, fun outer same => ?_⟩
            cases same
            exact stillOpen
          have absent : (table.closing tx).overlays[parent]? = none := by
            rw [← opened_eq_none_iff, opened_closing, closed, ite_self]
          rw [commit_of_nested present nested, changeOverlay_of_closed absent]

/-- Two tables differ within a transaction only, and the same transactions are open in both. -/
structure DifferWithin (top : TxId) (left right : Table) : Prop where
  agree : AgreeOutside (left.Within top) left right
  opened : ∀ tx, right.opened tx = left.opened tx

namespace DifferWithin

theorem symm (differ : DifferWithin top left right) : DifferWithin top right left where
  agree :=
    { rows := differ.agree.rows.symm
      failure := differ.agree.failure.symm
      opened := fun tx _ => (differ.opened tx).symm
      overlays := fun tx through shown => by
        refine (differ.agree.overlays tx ?_ ?_).symm
        · exact through.congr fun tx => (differ.opened tx).symm
        · exact mt (Within.congr_iff differ.opened).mpr shown }
  opened tx := (differ.opened tx).symm

theorem trans {middle : Table} (first : DifferWithin top left middle)
    (second : DifferWithin top middle right) : DifferWithin top left right where
  agree :=
    { rows := second.agree.rows.trans first.agree.rows
      failure := second.agree.failure.trans first.agree.failure
      opened := fun tx _ => (second.opened tx).trans (first.opened tx)
      overlays := fun tx through shown => by
        have shownBetween := mt (Within.congr_iff first.opened).mp shown
        have same := second.agree.overlays tx (through.congr first.opened) shownBetween
        exact same.trans (first.agree.overlays tx through shown) }
  opened tx := (second.opened tx).trans (first.opened tx)

/-- Edits within the transaction change nothing else. -/
theorem of_edits {legal : String → Option Bytes → Prop} (edits : Edits legal place left right)
    (within : left.Within top place) : DifferWithin top left right :=
  ⟨agreeOutside_of_edits edits within, fun tx => (edits.frame tx).opened tx (Nat.le_refl tx)⟩

/-- The overlays of one transaction are replaced in both tables, by the same one if that shows. -/
theorem changeOverlay (differ : DifferWithin top left right) {change change' : Overlay → Overlay}
    (sameParent : ∀ overlay, (change overlay).parent = overlay.parent)
    (sameParent' : ∀ overlay, (change' overlay).parent = overlay.parent)
    (same : left.OpenThrough (some tx) → ¬ left.Within top (some tx) → change' = change) :
    DifferWithin top (changeOverlay tx change left).2 (changeOverlay tx change' right).2 := by
  have openedLeft : ∀ other,
      (Table.changeOverlay tx change left).2.opened other = left.opened other :=
    opened_changeOverlay sameParent
  have openedRight : ∀ other,
      (Table.changeOverlay tx change' right).2.opened other = right.opened other :=
    opened_changeOverlay sameParent'
  have sameOpened (other : TxId) : (Table.changeOverlay tx change' right).2.opened other =
      (Table.changeOverlay tx change left).2.opened other := by
    rw [openedLeft, openedRight, differ.opened]
  cases present : left.overlays[tx]? with
  | none =>
      have closed := (differ.opened tx).trans (opened_eq_none_iff.mpr present)
      have absent := opened_eq_none_iff.mp closed
      rw [changeOverlay_of_closed present, changeOverlay_of_closed absent]
      exact differ
  | some overlay =>
      have isOpen := opened_eq_some_iff.mpr ⟨overlay, present, rfl⟩
      obtain ⟨upper, otherPresent, -⟩ := opened_eq_some_iff.mp ((differ.opened tx).trans isOpen)
      rw [changeOverlay_of_open present] at openedLeft sameOpened ⊢
      rw [changeOverlay_of_open otherPresent] at sameOpened ⊢
      refine ⟨⟨differ.agree.rows, differ.agree.failure, fun other _ => sameOpened other,
        fun other through shown => ?_⟩, sameOpened⟩
      have throughBefore := through.congr fun tx => (openedLeft tx).symm
      have shownBefore := mt (Within.congr_iff openedLeft).mpr shown
      have sameOverlay := differ.agree.overlays other throughBefore shownBefore
      by_cases isThis : tx = other
      · subst isThis
        rw [present, otherPresent] at sameOverlay
        cases sameOverlay
        simp [same throughBefore shownBefore]
      · simpa [Std.ExtTreeMap.getElem?_insert, isThis] using sameOverlay

theorem closing (differ : DifferWithin top left right) (tx : TxId) :
    DifferWithin top (left.closing tx) (right.closing tx) := by
  have fewer other parent (isOpen : (left.closing tx).opened other = some parent) :
      other ≠ tx ∧ left.opened other = some parent := by
    rw [opened_closing] at isOpen
    split at isOpen
    · cases isOpen
    · exact ⟨by assumption, isOpen⟩
  have sameOpened other : (right.closing tx).opened other = (left.closing tx).opened other := by
    rw [opened_closing, opened_closing, differ.opened]
  refine ⟨⟨differ.agree.rows, differ.agree.failure, fun other _ => sameOpened other,
    fun other through shown => ?_⟩, sameOpened⟩
  have different : tx ≠ other := by
    cases through with
    | inside isOpen _ => exact Ne.symm (fewer other _ isOpen).1
  have throughBefore := through.mono fun other parent isOpen => (fewer other parent isOpen).2
  have shownBefore : ¬ left.Within top (some other) := fun within => shown
    (within.of_openThrough (fun other parent isOpen => (fewer other parent isOpen).2) through)
  simpa [Table.closing, Std.ExtTreeMap.getElem?_erase, different] using
    differ.agree.overlays other throughBefore shownBefore

/-- What is no overlay may be replaced in both tables alike. -/
theorem replace {left' right' : Table} (differ : DifferWithin top left right)
    (rows : right'.rows = left'.rows) (failure : right'.failure = left'.failure)
    (overlays : left'.overlays = left.overlays) (otherOverlays : right'.overlays = right.overlays) :
    DifferWithin top left' right' := by
  have sameOpened (tx : TxId) : left.opened tx = left'.opened tx := by
    rw [Table.opened, Table.opened, overlays]
  have otherOpened (tx : TxId) : right'.opened tx = right.opened tx := by
    rw [Table.opened, Table.opened, otherOverlays]
  have opened (tx : TxId) : right'.opened tx = left'.opened tx := by
    rw [otherOpened, differ.opened, sameOpened]
  refine ⟨⟨rows, failure, fun tx _ => opened tx, fun tx through shown => ?_⟩, opened⟩
  rw [overlays, otherOverlays]
  have shownBefore := mt (Within.congr_iff sameOpened).mp shown
  exact differ.agree.overlays tx (through.congr sameOpened) shownBefore

/-- A new transaction is empty in both tables. -/
theorem opening (differ : DifferWithin top left right) (ordered : left.Ordered)
    (newest : ∀ other, (left.opened other).isSome → other < tx) (parent : Option TxId) :
    DifferWithin top (left.opening tx parent) (right.opening tx parent) := by
  have sameOpened other :
      (right.opening tx parent).opened other = (left.opening tx parent).opened other := by
    rw [opened_opening, opened_opening, differ.opened]
  have more other outer (isOpen : left.opened other = some outer) :
      (left.opening tx parent).opened other = some outer := by
    have older := newest other (by simp [isOpen])
    rw [opened_opening, if_neg (Nat.ne_of_lt older), isOpen]
  have earlier : ∀ {place}, (left.opening tx parent).OpenThrough place →
      (∀ other, place = some other → other < tx) → left.OpenThrough place := by
    intro place through
    induction through with
    | outside => exact fun _ => .outside
    | @inside other outer isOpen _ inductionHypothesis =>
        intro older
        rw [opened_opening, if_neg (Nat.ne_of_lt (older other rfl))] at isOpen
        refine .inside isOpen (inductionHypothesis fun outermost same => ?_)
        subst same
        exact Nat.lt_trans (ordered other outermost isOpen) (older other rfl)
  refine ⟨⟨differ.agree.rows, differ.agree.failure, fun other _ => sameOpened other,
    fun other through shown => ?_⟩, sameOpened⟩
  by_cases isNew : tx = other
  · subst isNew
    simp [Table.opening]
  · have stillOpen : (left.opened other).isSome := by
      cases through with
      | inside isOpen _ =>
          rw [opened_opening, if_neg (Ne.symm isNew)] at isOpen
          simp [isOpen]
    have throughBefore := earlier through fun same equal => by
      cases equal
      exact newest other stillOpen
    have shownBefore : ¬ left.Within top (some other) := fun within => shown (within.mono more)
    simpa [Table.opening, Std.ExtTreeMap.getElem?_insert, isNew] using
      differ.agree.overlays other throughBefore shownBefore

/-- Commits of all other transactions, and those that publish nothing, keep to themselves what the
tables differ in. -/
theorem commit (differ : DifferWithin top left right) (apart : left.Publishes tx → tx ≠ top) :
    DifferWithin top (commit tx left).2 (commit tx right).2 := by
  by_cases publishes : left.Publishes tx
  · have different := apart publishes
    obtain ⟨parent, isOpen, parentOpen⟩ := publishes
    have shown (around : ¬ left.Within top parent) : ¬ left.Within top (some tx) := by
      intro within
      cases within with
      | self => exact different rfl
      | inner stillOpen inside =>
          cases isOpen.symm.trans stillOpen
          exact around inside
    obtain ⟨overlay, present, rfl⟩ := opened_eq_some_iff.mp isOpen
    obtain ⟨upper, otherPresent, sameParent⟩ :=
      opened_eq_some_iff.mp ((differ.opened tx).trans isOpen)
    have closed := differ.closing tx
    cases nested : overlay.parent with
    | none =>
        rw [nested] at shown isOpen
        have same := differ.agree.overlays tx (.inside isOpen .outside) (shown Within.not_outside)
        rw [present, otherPresent] at same
        cases same
        rw [commit_of_outermost present nested, commit_of_outermost otherPresent nested,
          differ.agree.rows]
        exact closed.replace rfl closed.agree.failure rfl rfl
    | some outer =>
        rw [nested] at shown isOpen
        rw [commit_of_nested present nested,
          commit_of_nested otherPresent (sameParent.trans nested)]
        refine closed.changeOverlay (Overlay.parent_onto overlay) (Overlay.parent_onto upper) ?_
        intro through outerShown
        have fewer other place (stillOpen : (left.closing tx).opened other = some place) :
            left.opened other = some place := by
          rw [opened_closing] at stillOpen
          split at stillOpen
          · cases stillOpen
          · exact stillOpen
        have around := through.mono fewer
        have outerShownBefore : ¬ left.Within top (some outer) := fun within =>
          outerShown (within.of_openThrough fewer through)
        have same := differ.agree.overlays tx (.inside isOpen around) (shown outerShownBefore)
        rw [present, otherPresent] at same
        cases same
        rfl
  · have lost : ¬ right.Publishes tx := fun published =>
      publishes (published.congr fun tx => (differ.opened tx).symm)
    rw [commit_of_not_publishes publishes, commit_of_not_publishes lost]
    exact differ.closing tx

end DifferWithin

end Table

namespace Repository

variable {ι ε : Type} {schema : Schema ι ε} {repository left right : Repository} {top : TxId}

/-- Two sound repositories that differ within a transaction only. -/
structure DifferWithin (schema : Schema ι ε) (top : TxId) (left right : Repository) : Prop where
  sound : left.Sound schema
  otherSound : right.Sound schema
  entities : left.entities.DifferWithin top right.entities
  hits : left.hits.DifferWithin top right.hits
  lastTx : right.lastTx = left.lastTx

namespace DifferWithin

theorem symm (differ : DifferWithin schema top left right) : DifferWithin schema top right left :=
  ⟨differ.otherSound, differ.sound, differ.entities.symm, differ.hits.symm, differ.lastTx.symm⟩

/-- Whoever is outside of the transaction is given the same answers. -/
theorem answersAlike (differ : DifferWithin schema top left right) {place : Option TxId}
    (outside : ¬ left.hits.Within top place) : AnswersAlike schema place left right := by
  have agree : left.AgreeOutside (left.hits.Within top) right :=
    ⟨differ.entities.agree.weaken fun _ => (Table.Within.congr_iff differ.sound.paired).mp,
      differ.hits.agree, differ.lastTx⟩
  exact agree.answersAlike differ.sound differ.otherSound (Table.hidesInner_within _ _) outside

/-- After the transaction was closed, nobody can tell two repositories apart any more. -/
theorem answersAlike_of_closed (differ : DifferWithin schema top left right)
    (closed : left.hits.opened top = none) (place : Option TxId) :
    AnswersAlike schema place left right := by
  have shown {place} (through : left.hits.OpenThrough place) : ¬ left.hits.Within top place := by
    intro within
    have isOpen := within.isOpen through
    rw [closed] at isOpen
    cases isOpen
  have agree : left.AgreeOutside (fun _ => False) right := by
    refine ⟨?_, ?_, differ.lastTx⟩
    · refine ⟨differ.entities.agree.rows, differ.entities.agree.failure,
        fun tx _ => differ.entities.opened tx, fun tx through _ => ?_⟩
      have inHits := through.congr fun tx => (differ.sound.paired tx).symm
      refine differ.entities.agree.overlays tx through fun within => shown inHits ?_
      exact (Table.Within.congr_iff differ.sound.paired).mp within
    · exact ⟨differ.hits.agree.rows, differ.hits.agree.failure, fun tx _ => differ.hits.opened tx,
        fun tx through _ => differ.hits.agree.overlays tx through (shown through)⟩
  exact agree.answersAlike differ.sound differ.otherSound (fun _ _ _ => id) id

section Steps

variable {signals : Signals} {ctx : Context}

/-- A call within the transaction may do anything there; elsewhere it does the same to both. -/
theorem call (differ : DifferWithin schema top left right) {request : Request ι ε}
    (isCall : request.isCall) :
    DifferWithin schema top ((stores schema signals).perform ctx request left).2
      ((stores schema signals).perform ctx request right).2 := by
  have edits : Edits schema ctx.tx left ((stores schema signals).perform ctx request left).2 :=
    along_perform isCall left
  have otherEdits : Edits schema ctx.tx right
      ((stores schema signals).perform ctx request right).2 :=
    along_perform isCall right
  have lastTx := otherEdits.lastTx.trans (differ.lastTx.trans edits.lastTx.symm)
  have sound := differ.sound.edits edits
  have sameEntities tx := (edits.entities.frame tx).opened tx (Nat.le_refl tx)
  have sameHits tx := (edits.hits.frame tx).opened tx (Nat.le_refl tx)
  have otherEntities tx := (otherEdits.entities.frame tx).opened tx (Nat.le_refl tx)
  have otherHits tx := (otherEdits.hits.frame tx).opened tx (Nat.le_refl tx)
  have paired {place} : left.entities.Within top place ↔ left.hits.Within top place :=
    Table.Within.congr_iff differ.sound.paired
  by_cases within : left.hits.Within top ctx.tx
  · have inEntities := paired.mpr within
    have inOtherEntities := (Table.Within.congr_iff differ.entities.opened).mpr inEntities
    have inOtherHits := (Table.Within.congr_iff differ.hits.opened).mpr within
    refine ⟨sound, differ.otherSound.edits otherEdits, ?_, ?_, lastTx⟩
    · exact ((Table.DifferWithin.of_edits edits.entities inEntities).symm.trans
        differ.entities).trans (.of_edits otherEdits.entities inOtherEntities)
    · exact ((Table.DifferWithin.of_edits edits.hits within).symm.trans differ.hits).trans
        (.of_edits otherEdits.hits inOtherHits)
  · have inEntities : left.entities.AgreeFor (left.hits.Within top) right.entities :=
      ⟨differ.sound.entitiesOrdered, differ.otherSound.entitiesOrdered,
        fun tx parent isOpen => .inner (differ.sound.paired tx ▸ isOpen),
        differ.entities.agree.weaken fun _ => paired.mp⟩
    have inHits : left.hits.AgreeFor (left.hits.Within top) right.hits :=
      ⟨differ.sound.ordered, differ.otherSound.ordered, Table.hidesInner_within _ _,
        differ.hits.agree⟩
    have simulates : Simulates (Related (Table.AgreeFor (left.hits.Within top))
        (Table.AgreeFor (left.hits.Within top)) Eq) ((stores schema signals).perform ctx request)
        ((stores schema signals).perform ctx request) :=
      simulates_call (Table.corresponds_agreeFor within) (Table.corresponds_agreeFor within) isCall
    have related := (simulates left right ⟨inEntities, inHits, differ.lastTx.symm⟩).2
    refine ⟨sound, differ.otherSound.edits otherEdits, ⟨?_, fun tx => ?_⟩, ⟨?_, fun tx => ?_⟩,
      lastTx⟩
    · exact related.entities.agree.weaken fun _ isWithin =>
        (Table.Within.congr_iff sameEntities).mpr (paired.mpr isWithin)
    · rw [otherEntities, sameEntities, differ.entities.opened]
    · exact related.hits.agree.weaken fun _ => (Table.Within.congr_iff sameHits).mpr
    · rw [otherHits, sameHits, differ.hits.opened]

theorem begin (differ : DifferWithin schema top left right) :
    DifferWithin schema top (Repository.begin signals ctx left).2
      (Repository.begin signals ctx right).2 := by
  have numbered : DifferWithin schema top { left with lastTx := left.lastTx + 1 }
      { right with lastTx := right.lastTx + 1 } :=
    ⟨differ.sound.numbered, differ.otherSound.numbered, differ.entities, differ.hits,
      congrArg Nat.succ differ.lastTx⟩
  cases live : ctx.check signals with
  | error e =>
      rw [begin_of_ended live, begin_of_ended live]
      exact differ
  | ok _ =>
      by_cases parentOpen : ∀ outer, ctx.tx = some outer → (left.hits.opened outer).isSome
      · have otherOpen outer (inside : ctx.tx = some outer) :
            (right.hits.opened outer).isSome := by
          rw [differ.hits.opened]
          exact parentOpen outer inside
        have inEntities outer (inside : ctx.tx = some outer) :
            (left.entities.opened outer).isSome := by
          rw [differ.sound.paired]
          exact parentOpen outer inside
        have inOtherEntities outer (inside : ctx.tx = some outer) :
            (right.entities.opened outer).isSome := by
          rw [differ.otherSound.paired]
          exact otherOpen outer inside
        have newest other (isOpen : (left.hits.opened other).isSome) : other < left.lastTx + 1 :=
          Nat.lt_succ_of_le (differ.sound.le_lastTx other isOpen)
        rw [begin_of_open live inEntities parentOpen, begin_of_open live inOtherEntities otherOpen]
        refine ⟨differ.sound.opening parentOpen, differ.otherSound.opening otherOpen, ?_, ?_,
          congrArg Nat.succ differ.lastTx⟩
        · simp only [Repository.opening, differ.lastTx]
          have newestThere other (isOpen : (left.entities.opened other).isSome) :
              other < left.lastTx + 1 :=
            newest other (differ.sound.paired other ▸ isOpen)
          exact differ.entities.opening differ.sound.entitiesOrdered newestThere ctx.tx
        · simp only [Repository.opening, differ.lastTx]
          exact differ.hits.opening differ.sound.ordered newest ctx.tx
      · obtain ⟨outer, failed⟩ := Classical.not_forall.mp parentOpen
        obtain ⟨inside, closed⟩ := Classical.not_imp.mp failed
        rw [Option.not_isSome_iff_eq_none] at closed
        have inEntities := (differ.sound.paired outer).trans closed
        have inOther := (differ.entities.opened outer).trans inEntities
        rw [begin_of_closed live inside inEntities, begin_of_closed live inside inOther]
        exact numbered

theorem commit (differ : DifferWithin schema top left right)
    (apart : ctx.tx = some top → ¬ left.hits.Publishes top) :
    DifferWithin schema top (Repository.commit ctx left).2 (Repository.commit ctx right).2 := by
  have sound : (Repository.commit ctx left).2.Sound schema := differ.sound.commit
  have otherSound : (Repository.commit ctx right).2.Sound schema := differ.otherSound.commit
  cases inside : ctx.tx with
  | none =>
      rw [commit_outside inside, commit_outside inside]
      exact differ
  | some tx =>
      have different (publishes : left.hits.Publishes tx) : tx ≠ top := by
        rintro rfl
        exact apart inside publishes
      rw [differ.sound.commit_eq inside] at sound ⊢
      rw [differ.otherSound.commit_eq inside] at otherSound ⊢
      refine ⟨sound, otherSound, differ.entities.commit fun publishes => ?_,
        differ.hits.commit different, differ.lastTx⟩
      exact different (publishes.congr fun tx => (differ.sound.paired tx).symm)

theorem rollback (differ : DifferWithin schema top left right) :
    DifferWithin schema top (Repository.rollback ctx left).2 (Repository.rollback ctx right).2 := by
  have sound : (Repository.rollback ctx left).2.Sound schema := differ.sound.rollback
  have otherSound : (Repository.rollback ctx right).2.Sound schema := differ.otherSound.rollback
  cases inside : ctx.tx with
  | none =>
      rw [rollback_outside inside, rollback_outside inside]
      exact differ
  | some tx =>
      rw [differ.sound.rollback_eq inside] at sound ⊢
      rw [differ.otherSound.rollback_eq inside] at otherSound ⊢
      exact ⟨sound, otherSound, differ.entities.closing tx, differ.hits.closing tx, differ.lastTx⟩

end Steps

end DifferWithin

section Runs

variable (schema)

/-- A turn commits a transaction while all that it takes to publish its changes is open. -/
def Publishes (top : TxId) (repository : Repository) (turn : Turn ι ε) : Prop :=
  ∃ signals ctx, turn = .request signals ctx .commit ∧ ctx.tx = some top ∧
    repository.hits.Publishes top

/-- A turn ends an open transaction without publishing its changes: it is rolled back, or committed
when the transaction around it has ended already. -/
def Discards (top : TxId) (repository : Repository) (turn : Turn ι ε) : Prop :=
  ∃ signals ctx, ctx.tx = some top ∧ (repository.hits.opened top).isSome ∧
    (turn = .request signals ctx .rollback ∨
      turn = .request signals ctx .commit ∧ ¬ repository.hits.Publishes top)

/-- Something happens at one of the turns of a run. -/
def Occurs (event : Repository → Turn ι ε → Prop) : List (Turn ι ε) → Repository → Prop
  | [], _ => False
  | turn :: run, repository =>
      event repository turn ∨ Occurs event run (take schema turn repository).2

variable {schema} {event : Repository → Turn ι ε → Prop}

theorem Occurs.of_take {run : List (Turn ι ε)} {count : Nat}
    (occurs : Occurs schema event (run.take count) repository) :
    Occurs schema event run repository := by
  induction run generalizing count repository with
  | nil => simp [Occurs] at occurs
  | cons turn run inductionHypothesis =>
      cases count with
      | zero => cases occurs
      | succ count => exact occurs.imp_right inductionHypothesis

/-- A turn that does not publish the transaction keeps to it what the repositories differ in. -/
theorem DifferWithin.take (differ : DifferWithin schema top left right) {turn : Turn ι ε}
    (unpublished : ¬ Publishes top left turn) :
    DifferWithin schema top (Repository.take schema turn left).2
      (Repository.take schema turn right).2 := by
  have sound := differ.sound.take turn
  have otherSound := differ.otherSound.take turn
  cases turn with
  | request signals ctx request =>
      by_cases isCall : request.isCall
      · exact differ.call isCall
      · cases request with
        | begin => exact differ.begin
        | commit =>
            exact differ.commit fun inside publishes =>
              unpublished ⟨signals, ctx, rfl, inside, publishes⟩
        | rollback => exact differ.rollback
        | _ => exact absurd rfl isCall
  | failEntities failure =>
      have entities := differ.entities.agree.rows
      exact ⟨sound, otherSound, differ.entities.replace entities rfl rfl rfl, differ.hits,
        differ.lastTx⟩
  | failHits failure =>
      have hits := differ.hits.agree.rows
      exact ⟨sound, otherSound, differ.entities, differ.hits.replace hits rfl rfl rfl,
        differ.lastTx⟩

/-- A run that does not publish the transaction keeps to it what the repositories differ in. -/
theorem DifferWithin.after {run : List (Turn ι ε)} (differ : DifferWithin schema top left right)
    (unpublished : ¬ Occurs schema (Publishes top) run left) :
    DifferWithin schema top (after schema run left) (after schema run right) := by
  induction run generalizing left right with
  | nil => exact differ
  | cons turn run inductionHypothesis =>
      obtain ⟨notNow, notLater⟩ := not_or.mp unpublished
      exact inductionHypothesis (differ.take notNow) notLater

/-- A transaction that was numbered and is closed. -/
def Finished (top : TxId) (repository : Repository) : Prop :=
  repository.hits.opened top = none ∧ top ≤ repository.lastTx

/-- A transaction is not opened twice. -/
theorem Finished.take (finished : repository.Finished top) (sound : repository.Sound schema)
    (turn : Turn ι ε) : (Repository.take schema turn repository).2.Finished top := by
  obtain ⟨closed, numbered⟩ := finished
  have numbers := sound.numbers_take turn
  exact ⟨numbers.closed numbered closed, Nat.le_trans numbered numbers.lastTx_le⟩

/-- Nothing that takes an open transaction happens to a finished one any more. -/
theorem Finished.after (finished : repository.Finished top) (sound : repository.Sound schema)
    (takesOpen : ∀ repository turn, event repository turn → (repository.hits.opened top).isSome)
    (run : List (Turn ι ε)) :
    (after schema run repository).Finished top ∧ ¬ Occurs schema event run repository := by
  induction run generalizing repository with
  | nil => exact ⟨finished, id⟩
  | cons turn run inductionHypothesis =>
      obtain ⟨later, never⟩ := inductionHypothesis (finished.take sound turn) (sound.take turn)
      refine ⟨later, ?_⟩
      rintro (now | afterwards)
      · have isOpen := takesOpen repository turn now
        rw [finished.1] at isOpen
        cases isOpen
      · exact never afterwards

theorem isOpen_of_publishes {turn : Turn ι ε} (publishes : Publishes top repository turn) :
    (repository.hits.opened top).isSome := by
  obtain ⟨signals, ctx, -, -, parent, isOpen, -⟩ := publishes
  simp [isOpen]

theorem isOpen_of_discards {turn : Turn ι ε} (discards : Discards top repository turn) :
    (repository.hits.opened top).isSome := by
  obtain ⟨signals, ctx, -, isOpen, -⟩ := discards
  exact isOpen

/-- Publishing a transaction and discarding it both end it. -/
theorem finished_of_ends (sound : repository.Sound schema) {turn : Turn ι ε}
    (ends : Publishes top repository turn ∨ Discards top repository turn) :
    (Repository.take schema turn repository).2.Finished top := by
  have numbered := sound.le_lastTx top (ends.elim isOpen_of_publishes isOpen_of_discards)
  have byCommit signals (ctx : Context) (inside : ctx.tx = some top) :
      (Repository.take schema (.request signals ctx .commit) repository).2.Finished top := by
    change (Repository.commit ctx repository).2.Finished top
    rw [sound.commit_eq inside]
    refine ⟨?_, numbered⟩
    rw [Table.opened_commit, if_pos rfl]
  rcases ends with ⟨signals, ctx, rfl, inside, -⟩ | ⟨signals, ctx, inside, -, rfl | ⟨rfl, -⟩⟩
  · exact byCommit signals ctx inside
  · change (Repository.rollback ctx repository).2.Finished top
    rw [sound.rollback_eq inside]
    refine ⟨?_, numbered⟩
    rw [Table.opened_closing, if_pos rfl]
  · exact byCommit signals ctx inside

/-- A transaction that is discarded at some turn is finished, and was never published. -/
theorem finished_of_occurs_discards {run : List (Turn ι ε)} (sound : repository.Sound schema)
    (discarded : Occurs schema (Discards top) run repository) :
    (after schema run repository).Finished top ∧
      ¬ Occurs schema (Publishes top) run repository := by
  induction run generalizing repository with
  | nil => cases discarded
  | cons turn run inductionHypothesis =>
      rcases discarded with now | afterwards
      · have finished := finished_of_ends sound (.inr now)
        obtain ⟨later, never⟩ :=
          finished.after (sound.take turn) (fun _ _ => isOpen_of_publishes) run
        refine ⟨later, ?_⟩
        rintro (published | published)
        · obtain ⟨signals, ctx, rfl, -, publishes⟩ := published
          obtain ⟨_, _, -, -, same | ⟨-, lost⟩⟩ := now
          · cases same
          · exact lost publishes
        · exact never published
      · obtain ⟨later, never⟩ := inductionHypothesis (sound.take turn) afterwards
        refine ⟨later, ?_⟩
        rintro (published | published)
        · have finished := finished_of_ends sound (.inl published)
          exact (finished.after (sound.take turn) (fun _ _ => isOpen_of_discards) run).2 afterwards
        · exact never published

end Runs

section Staged

variable {signals : Signals} {ctx : Context} {tx : TxId}

/-- A call in a transaction changes nothing outside of any transaction that it stands in. -/
theorem differWithin_of_call (sound : repository.Sound schema) (inside : ctx.tx = some tx)
    (within : repository.hits.Within top (some tx)) {request : Request ι ε}
    (isCall : request.isCall) :
    DifferWithin schema top repository
      ((stores schema signals).perform ctx request repository).2 := by
  have edits : Edits schema ctx.tx repository
      ((stores schema signals).perform ctx request repository).2 :=
    along_perform isCall repository
  have inHits : repository.hits.Within top ctx.tx := inside ▸ within
  have inEntities := (Table.Within.congr_iff sound.paired).mpr inHits
  exact ⟨sound, sound.edits edits, .of_edits edits.entities inEntities,
    .of_edits edits.hits inHits, edits.lastTx⟩

/-- Transactions are isolated, and what is staged is published by commits alone. Of a repository in
which a transaction is open, other contexts are given the same answers after a call in the
transaction as before it, after its commit if they are outside of the transaction around it, and
after its rollback. Where a write is staged in it, and the same run follows as without the write,
committed rows differ only if the transaction and each one around it were committed in the run, each
while the one around it was open; outside of a transaction that was not published nobody is given
other answers; and once one of them is discarded, nobody at all is. -/
theorem staged_writes_are_isolated (repository : Repository)
    (reachable : repository.Reachable schema) (tx : TxId) (parent : Option TxId)
    (isOpen : repository.hits.opened tx = some parent) (signals : Signals) (ctx : Context)
    (inside : ctx.tx = some tx) :
    (∀ (call : Request ι ε) place, call.isCall → ¬ repository.hits.Within tx place →
      AnswersAlike schema place repository
        ((stores schema signals).perform ctx call repository).2) ∧
    (∀ outer place, parent = some outer → ¬ repository.hits.Within outer place →
      AnswersAlike schema place repository
        ((stores schema signals).perform ctx .commit repository).2) ∧
    (∀ place, ¬ repository.hits.Within tx place →
      AnswersAlike schema place repository
        ((stores schema signals).perform ctx .rollback repository).2) ∧
    ∀ (call : Request ι ε) (run : List (Turn ι ε)) top, call.isCall →
      repository.hits.Within top (some tx) →
      let staged := ((stores schema signals).perform ctx call repository).2
      let without := after schema run repository
      let along := after schema run staged
      ((along.entities.rows ≠ without.entities.rows ∨ along.hits.rows ≠ without.hits.rows) →
        Occurs schema (Publishes top) run staged) ∧
      (¬ Occurs schema (Publishes top) run staged →
        ∀ place, ¬ without.hits.Within top place → AnswersAlike schema place without along) ∧
      (Occurs schema (Discards top) run staged →
        (∀ count place,
          ¬ (after schema (run.take count) repository).hits.Within top place →
          AnswersAlike schema place (after schema (run.take count) repository)
            (after schema (run.take count) staged)) ∧
        along.entities.rows = without.entities.rows ∧ along.hits.rows = without.hits.rows ∧
        ∀ place, AnswersAlike schema place without along) := by
  have sound : repository.Sound schema := reachable.sound
  have hides := Table.hidesInner_within repository.hits
  refine ⟨fun call place isCall outside => ?_, fun outer place nested outside => ?_,
    fun place outside => ?_, fun call run top isCall within => ?_⟩
  · exact (agreeOutside_of_call isCall inside sound).answersAlike sound (sound.perform call)
      (hides tx) outside
  · subst nested
    exact (agreeOutside_of_commit inside isOpen sound).answersAlike sound (sound.perform .commit)
      (hides outer) outside
  · exact (agreeOutside_of_rollback inside sound).answersAlike sound (sound.perform .rollback)
      (hides tx) outside
  · intro staged without along
    have begins : DifferWithin schema top repository staged :=
      differWithin_of_call sound inside within isCall
    have differ (turns : List (Turn ι ε))
        (unpublished : ¬ Occurs schema (Publishes top) turns staged) :
        DifferWithin schema top (after schema turns repository) (after schema turns staged) :=
      (begins.symm.after unpublished).symm
    refine ⟨fun rowsDiffer => ?_, fun unpublished place outside => ?_, fun discarded => ?_⟩
    · by_cases published : Occurs schema (Publishes top) run staged
      · exact published
      · have later := differ run published
        exact rowsDiffer.elim (absurd later.entities.agree.rows) (absurd later.hits.agree.rows)
    · exact (differ run unpublished).answersAlike outside
    · obtain ⟨finished, unpublished⟩ := finished_of_occurs_discards begins.otherSound discarded
      have later := differ run unpublished
      have closed : without.hits.opened top = none := (later.hits.opened top).symm.trans finished.1
      refine ⟨fun count place outside => ?_, later.entities.agree.rows, later.hits.agree.rows,
        later.answersAlike_of_closed closed⟩
      exact (differ (run.take count) fun published => unpublished published.of_take).answersAlike
        outside

/-- A transaction within another one, both open. -/
def nestedRepository : Repository :=
  after Simulation.IdKind.natural.schema
    [.request .initial .root .begin, .request .initial (Context.root.withTx 1) .begin] .empty

theorem staged_writes_are_isolated_nestedRepository :
    let schema := Simulation.IdKind.natural.schema
    let ctx := Context.root.withTx 2
    let staged := ((stores schema .initial).perform ctx (.createHit ⟨"q", [], ⟨0, 0⟩⟩)
      nestedRepository).2
    let run := [.request .initial ctx .commit,
      .request .initial (Context.root.withTx 1) .rollback]
    (after schema run staged).hits.rows = (after schema run nestedRepository).hits.rows ∧
      AnswersAlike schema none (after schema run nestedRepository) (after schema run staged) := by
  intro schema ctx staged run
  have isOpen : nestedRepository.hits.opened 2 = some (some 1) := by decide +kernel
  have within : nestedRepository.hits.Within 1 (some 2) := .inner isOpen .self
  have discards : Occurs schema (Discards 1) run staged := by
    refine .inr (.inl ⟨.initial, Context.root.withTx 1, rfl, ?_, .inl rfl⟩)
    decide +kernel
  have reachable : nestedRepository.Reachable schema := ⟨_, rfl⟩
  obtain ⟨-, -, -, publication⟩ :=
    staged_writes_are_isolated nestedRepository reachable 2 (some 1) isOpen .initial ctx rfl
  obtain ⟨-, -, discarded⟩ :=
    publication (.createHit ⟨"q", [], ⟨0, 0⟩⟩) run 1 rfl within
  obtain ⟨-, -, sameHits, alike⟩ := discarded discards
  exact ⟨sameHits, alike none⟩

end Staged

end Repository

end QueryCache
