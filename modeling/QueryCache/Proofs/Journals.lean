import QueryCache.Proofs.Chains
import QueryCache.Proofs.Ledger

/-!
# Overlays stand for journals

An overlay compresses the journal of its transaction: it keeps the last change of every row, and
whether the rows were ever cleared. Nothing is lost by that, for what the overlay shows over any
rows is what replaying the journal on them gives (`Ledger.Records`). A table all of whose overlays
stand for journals shows its readers what the ledger shows them (`Ledger.Reflects.view`).
-/

namespace QueryCache

open Wire

namespace Ledger

theorem replay_append (side : Side) (first second : List Entry) (rows : Rows) :
    replay side (first ++ second) rows = replay side second (replay side first rows) :=
  List.foldl_append

theorem replay_own (side : Side) (step : Step) (rows : Rows) :
    replay side [⟨side, step⟩] rows = step.run rows := by
  simp [replay]

theorem replay_other {side other : Side} (different : other ≠ side) (step : Step) (rows : Rows) :
    replay side [⟨other, step⟩] rows = rows := by
  simp [replay, different]

theorem through_of_closed {ledger : Ledger} {tx : TxId} (closed : ledger.journals[tx]? = none)
    (side : Side) (outer : List TxId) :
    ledger.through side (tx :: outer) = .error (Table.finished tx) := by
  rw [through, closed]

theorem through_of_open {ledger : Ledger} {tx : TxId} {journal : Journal}
    (isOpen : ledger.journals[tx]? = some journal) (side : Side) (outer : List TxId) :
    ledger.through side (tx :: outer) =
      (ledger.through side outer).map (replay side journal.entries) := by
  rw [through, isOpen]

/-- A step as an edit of a table. -/
def Step.perform (tx : Option TxId) : Step → Action Table Unit
  | .put key bytes => Table.put tx key bytes
  | .delete key => Table.remove tx key
  | .clear => Table.clear tx

/-- A step as a change of an overlay. -/
def Step.stage : Step → Overlay → Overlay
  | .put key bytes, overlay => { overlay with changes := overlay.changes.insert key (some bytes) }
  | .delete key, overlay => { overlay with changes := overlay.changes.insert key none }
  | .clear, overlay => { overlay with cleared := true, changes := ∅ }

theorem Step.perform_outside (step : Step) (table : Table) :
    step.perform none table = (.ok (), { table with rows := step.run table.rows }) := by
  cases step <;> rfl

theorem Step.perform_inside (step : Step) (tx : TxId) :
    step.perform (some tx) = Table.changeOverlay tx step.stage := by
  cases step <;> rfl

@[simp] theorem Step.parent_stage (step : Step) (overlay : Overlay) :
    (step.stage overlay).parent = overlay.parent := by
  cases step <;> rfl

/-- A staged step acts as the step on what is seen through the overlay. -/
theorem Step.applyTo_stage (step : Step) (overlay : Overlay) (rows : Rows) :
    (step.stage overlay).applyTo rows = step.run (overlay.applyTo rows) := by
  cases step with
  | put key bytes => exact overlay.applyTo_insert key (some bytes) rows
  | delete key => exact overlay.applyTo_insert key none rows
  | clear => exact overlay.applyTo_cleared rows

/-- An overlay stands for the entries of a journal on one kind of rows. -/
structure Records (side : Side) (overlay : Overlay) (journal : Journal) : Prop where
  parent : overlay.parent = journal.ancestors.head?
  replayed : ∀ rows, overlay.applyTo rows = replay side journal.entries rows

namespace Records

variable {side : Side} {overlay : Overlay} {journal : Journal}

theorem empty (side : Side) (ancestors : List TxId) :
    Records side (.empty ancestors.head?) ⟨ancestors, []⟩ :=
  ⟨rfl, fun rows => Overlay.applyTo_empty _ rows⟩

theorem own (records : Records side overlay journal) (step : Step) :
    Records side (step.stage overlay)
      { journal with entries := journal.entries ++ [⟨side, step⟩] } where
  parent := by rw [Step.parent_stage, records.parent]
  replayed rows := by
    rw [Step.applyTo_stage, replay_append, replay_own, records.replayed]

theorem other (records : Records side overlay journal) {other : Side} (different : other ≠ side)
    (step : Step) :
    Records side overlay { journal with entries := journal.entries ++ [⟨other, step⟩] } where
  parent := records.parent
  replayed rows := by
    rw [replay_append, replay_other different, records.replayed]

/-- Laying an overlay over that of the parent is writing its journal behind that of the parent. -/
theorem onto {outer : Overlay} {outerJournal : Journal} (records : Records side overlay journal)
    (outerRecords : Records side outer outerJournal) :
    Records side (overlay.onto outer)
      { outerJournal with entries := outerJournal.entries ++ journal.entries } where
  parent := outerRecords.parent
  replayed rows := by
    rw [Overlay.applyTo_onto, outerRecords.replayed, records.replayed, replay_append]

end Records

/-- A table stands for one kind of rows of a ledger. -/
structure Reflects (side : Side) (table : Table) (ledger : Ledger) : Prop where
  rows : table.rows = ledger.committed side
  failure : table.failure = ledger.failure side
  present : ∀ (tx : TxId) journal, ledger.journals[tx]? = some journal →
    ∃ overlay, table.overlays[tx]? = some overlay ∧ Records side overlay journal
  absent : ∀ tx : TxId, ledger.journals[tx]? = none → table.overlays[tx]? = none

/-- Transactions are numbered so that a parent comes before its child, and the transactions
around a child are its parent and those around the parent. -/
structure WellFormed (ledger : Ledger) : Prop where
  parent_lt : ∀ tx parent outer, ledger.around tx = some (parent :: outer) → parent < tx
  le_lastTx : ∀ tx, (ledger.around tx).isSome → tx ≤ ledger.lastTx
  nested : ∀ tx parent outer, ledger.around tx = some (parent :: outer) →
    ∀ ancestors, ledger.around parent = some ancestors → ancestors = outer

namespace WellFormed

variable {ledger : Ledger}

theorem empty : Ledger.empty.WellFormed where
  parent_lt tx parent outer isOpen := by simp [Ledger.empty, around] at isOpen
  le_lastTx tx isOpen := by simp [Ledger.empty, around] at isOpen
  nested tx parent outer isOpen := by simp [Ledger.empty, around] at isOpen

/-- A ledger that only lost open transactions is well-formed. -/
theorem shrink {after : Ledger} (wellFormed : ledger.WellFormed)
    (around : ∀ tx ancestors, after.around tx = some ancestors → ledger.around tx = some ancestors)
    (lastTx : ledger.lastTx ≤ after.lastTx) : after.WellFormed where
  parent_lt tx parent outer isOpen := wellFormed.parent_lt tx parent outer (around _ _ isOpen)
  le_lastTx tx isOpen := by
    obtain ⟨ancestors, isOpen⟩ := Option.isSome_iff_exists.mp isOpen
    refine Nat.le_trans (wellFormed.le_lastTx tx ?_) lastTx
    rw [around _ _ isOpen]
    rfl
  nested tx parent outer isOpen ancestors parentOpen :=
    wellFormed.nested tx parent outer (around _ _ isOpen) ancestors (around _ _ parentOpen)

/-- What is committed has no part in it, and numbers may be used up in vain. -/
theorem congr {after : Ledger} (wellFormed : ledger.WellFormed)
    (journals : after.journals = ledger.journals) (lastTx : ledger.lastTx ≤ after.lastTx) :
    after.WellFormed := by
  refine wellFormed.shrink (fun tx ancestors found => ?_) lastTx
  rw [around, ← journals]
  exact found

/-- A new transaction may stand in no other, or in one that is open. -/
theorem begin (wellFormed : ledger.WellFormed) {ancestors : List TxId}
    (place : ∀ parent outer, ancestors = parent :: outer → ledger.around parent = some outer) :
    WellFormed { ledger with
      journals := ledger.journals.insert (ledger.lastTx + 1) ⟨ancestors, []⟩
      lastTx := ledger.lastTx + 1 } := by
  have newest tx : around { ledger with
      journals := ledger.journals.insert (ledger.lastTx + 1) ⟨ancestors, []⟩
      lastTx := ledger.lastTx + 1 } tx =
      if ledger.lastTx + 1 = tx then some ancestors else ledger.around tx := by
    simp only [around, Std.ExtTreeMap.getElem?_insert, Nat.compare_eq_eq]
    split <;> rfl
  have older {tx outer} (isOpen : ledger.around tx = some outer) : tx < ledger.lastTx + 1 :=
    Nat.lt_succ_of_le (wellFormed.le_lastTx tx (by rw [isOpen]; rfl))
  refine ⟨fun tx parent outer isOpen => ?_, fun tx isOpen => ?_,
    fun tx parent outer isOpen others parentOpen => ?_⟩
  · rw [newest] at isOpen
    split at isOpen
    · rename_i same
      cases isOpen
      exact same ▸ older (place parent outer rfl)
    · exact wellFormed.parent_lt tx parent outer isOpen
  · rw [newest] at isOpen
    split at isOpen
    · rename_i same
      exact Nat.le_of_eq same.symm
    · exact Nat.le_succ_of_le (wellFormed.le_lastTx tx isOpen)
  · rw [newest] at isOpen parentOpen
    have parentOlder : parent < ledger.lastTx + 1 := by
      split at isOpen
      · cases isOpen
        exact older (place parent outer rfl)
      · exact Nat.lt_trans (wellFormed.parent_lt tx parent outer isOpen) (older isOpen)
    rw [if_neg (Nat.ne_of_gt parentOlder)] at parentOpen
    split at isOpen
    · cases isOpen
      exact Option.some.inj (parentOpen.symm.trans (place parent outer rfl))
    · exact wellFormed.nested tx parent outer isOpen others parentOpen

theorem lengthen (wellFormed : ledger.WellFormed) {tx : TxId} {journal longer : Journal}
    (isOpen : ledger.journals[tx]? = some journal) (same : longer.ancestors = journal.ancestors) :
    WellFormed { ledger with journals := ledger.journals.insert tx longer } := by
  refine wellFormed.shrink (fun other ancestors found => ?_) (Nat.le_refl _)
  simp only [around, Std.ExtTreeMap.getElem?_insert] at found ⊢
  split at found
  · rename_i equal
    rw [← Nat.compare_eq_eq.mp equal, isOpen, Option.map_some, ← same]
    exact found
  · exact found

theorem erase (wellFormed : ledger.WellFormed) (tx : TxId) :
    WellFormed { ledger with journals := ledger.journals.erase tx } := by
  refine wellFormed.shrink (fun other ancestors found => ?_) (Nat.le_refl _)
  simp only [around, Std.ExtTreeMap.getElem?_erase] at found ⊢
  split at found
  · cases found
  · exact found

end WellFormed

namespace Reflects

variable {side : Side} {table : Table} {ledger : Ledger} {tx : TxId}

theorem opened (reflects : Reflects side table ledger) (tx : TxId) :
    table.opened tx = (ledger.around tx).map List.head? := by
  cases found : ledger.journals[tx]? with
  | none => simp [around, found, Table.opened, reflects.absent tx found]
  | some journal =>
      obtain ⟨overlay, present, records⟩ := reflects.present tx journal found
      simp [around, found, Table.opened, present, records.parent]

theorem ordered (reflects : Reflects side table ledger) (wellFormed : ledger.WellFormed) :
    table.Ordered := by
  intro tx parent isOpen
  rw [reflects.opened, Option.map_eq_some_iff] at isOpen
  obtain ⟨ancestors, around, first⟩ := isOpen
  obtain ⟨outer, rfl⟩ := List.head?_eq_some_iff.mp first
  exact wellFormed.parent_lt tx parent outer around

/-- Looking through overlays is replaying the journals for which they stand. The induction is on
the transactions around the reader. -/
theorem view_inside (reflects : Reflects side table ledger) (wellFormed : ledger.WellFormed)
    {ancestors : List TxId} (around : ledger.around tx = some ancestors) :
    table.view (some tx) = ledger.through side (tx :: ancestors) := by
  induction ancestors generalizing tx with
  | nil =>
      obtain ⟨journal, found, outermost⟩ := Option.map_eq_some_iff.mp around
      obtain ⟨overlay, present, records⟩ := reflects.present tx journal found
      have parent : overlay.parent = none := by rw [records.parent, outermost]; rfl
      rw [Table.view_of_open (reflects.ordered wellFormed) present, parent, Table.view_outside,
        through_of_open found, funext records.replayed, reflects.rows]
      rfl
  | cons outer ancestors inductionHypothesis =>
      obtain ⟨journal, found, inside⟩ := Option.map_eq_some_iff.mp around
      obtain ⟨overlay, present, records⟩ := reflects.present tx journal found
      have parent : overlay.parent = some outer := by rw [records.parent, inside]; rfl
      have below : table.view (some outer) = ledger.through side (outer :: ancestors) := by
        cases stored : ledger.journals[outer]? with
        | none =>
            rw [Table.view_of_closed (reflects.absent outer stored), through_of_closed stored]
        | some outerJournal =>
            have aroundOuter : ledger.around outer = some outerJournal.ancestors := by
              rw [Ledger.around, stored]
              rfl
            have same := wellFormed.nested tx outer ancestors around _ aroundOuter
            exact inductionHypothesis (same ▸ aroundOuter)
      rw [Table.view_of_open (reflects.ordered wellFormed) present, parent, below,
        through_of_open found, funext records.replayed]

/-- Readers of the table see what readers of the ledger see. -/
theorem view (reflects : Reflects side table ledger) (wellFormed : ledger.WellFormed)
    (place : Option TxId) : table.view place = ledger.view side place := by
  cases place with
  | none => rw [Table.view_outside, reflects.rows]; rfl
  | some tx =>
      rw [Ledger.view, path]
      cases around : ledger.around tx with
      | none =>
          have closed : ledger.journals[tx]? = none := Option.map_eq_none_iff.mp around
          rw [Table.view_of_closed (reflects.absent tx closed), through_of_closed closed]
      | some ancestors => exact reflects.view_inside wellFormed around

/-- A transaction that is written into both stays reflected. -/
theorem insert (reflects : Reflects side table ledger) (tx : TxId) {overlay : Overlay}
    {journal : Journal} (records : Records side overlay journal) :
    Reflects side { table with overlays := table.overlays.insert tx overlay }
      { ledger with journals := ledger.journals.insert tx journal } where
  rows := reflects.rows
  failure := reflects.failure
  present other found stored := by
    rw [Std.ExtTreeMap.getElem?_insert] at stored ⊢
    by_cases same : compare tx other = .eq
    · rw [if_pos same] at stored ⊢
      cases stored
      exact ⟨overlay, rfl, records⟩
    · rw [if_neg same] at stored ⊢
      exact reflects.present other found stored
  absent other closed := by
    rw [Std.ExtTreeMap.getElem?_insert] at closed ⊢
    split at closed
    · cases closed
    · rename_i different
      rw [if_neg different]
      exact reflects.absent other closed

/-- A journal that grew by entries on the other kind of rows is still reflected. -/
theorem reinsert (reflects : Reflects side table ledger) {overlay : Overlay} {journal : Journal}
    (present : table.overlays[tx]? = some overlay) (records : Records side overlay journal) :
    Reflects side table { ledger with journals := ledger.journals.insert tx journal } where
  rows := reflects.rows
  failure := reflects.failure
  present other found stored := by
    rw [Std.ExtTreeMap.getElem?_insert] at stored
    split at stored
    · rename_i same
      rw [Nat.compare_eq_eq.mp same] at present
      cases stored
      exact ⟨overlay, present, records⟩
    · exact reflects.present other found stored
  absent other closed := by
    rw [Std.ExtTreeMap.getElem?_insert] at closed
    split at closed
    · cases closed
    · exact reflects.absent other closed

theorem erase (reflects : Reflects side table ledger) (tx : TxId) :
    Reflects side (table.closing tx) { ledger with journals := ledger.journals.erase tx } where
  rows := reflects.rows
  failure := reflects.failure
  present other found stored := by
    rw [Std.ExtTreeMap.getElem?_erase] at stored
    rw [Table.closing, Std.ExtTreeMap.getElem?_erase]
    split at stored
    · cases stored
    · rename_i different
      rw [if_neg different]
      exact reflects.present other found stored
  absent other closed := by
    rw [Std.ExtTreeMap.getElem?_erase] at closed
    rw [Table.closing, Std.ExtTreeMap.getElem?_erase]
    split at closed
    · rename_i same
      rw [if_pos same]
    · rename_i different
      rw [if_neg different]
      exact reflects.absent other closed

end Reflects

end Ledger

end QueryCache
