import QueryCache.Proofs.TableEdits

/-!
# The two ends of a transaction

What opening, committing and rolling back do to one table: how they end, which depends only on
which transactions are open; which transactions are open afterwards; and what they leave alone.
-/

namespace QueryCache

open Wire

@[simp] theorem Overlay.parent_onto (upper lower : Overlay) :
    (upper.onto lower).parent = lower.parent := rfl

@[simp] theorem Overlay.empty_onto (parent : Option TxId) (lower : Overlay) :
    (empty parent).onto lower = lower := by
  have unchanged : lower.changes ∪ ∅ = lower.changes := by
    ext key change
    simp [Std.ExtTreeMap.getElem?_union]
  simp [onto, empty, unchanged]

namespace Table

variable {table : Table} {tx : TxId}

/-- The table in which a transaction was opened. -/
def opening (table : Table) (tx : TxId) (parent : Option TxId) : Table :=
  { table with overlays := table.overlays.insert tx (.empty parent) }

theorem begin_of_open {parent : Option TxId}
    (parentOpen : ∀ outer, parent = some outer → (table.opened outer).isSome) :
    begin tx parent table = (.ok (), table.opening tx parent) := by
  unfold begin
  cases parent with
  | none => rfl
  | some outer =>
      have present := parentOpen outer rfl
      rw [opened, Option.isSome_map] at present
      rw [Option.filter_some, Std.ExtTreeMap.contains_eq_isSome_getElem?, present]
      rfl

theorem begin_of_closed {outer : TxId} (closed : table.opened outer = none) :
    begin tx (some outer) table = (.error (finished outer), table) := by
  unfold begin
  rw [Option.filter_some, Std.ExtTreeMap.contains_eq_isSome_getElem?,
    opened_eq_none_iff.mp closed]
  rfl

theorem opened_opening (parent : Option TxId) (other : TxId) :
    (table.opening tx parent).opened other =
      if other = tx then some parent else table.opened other := by
  by_cases same : tx = other
  · subst same
    simp [opened, opening, Overlay.empty]
  · simp [opened, opening, Std.ExtTreeMap.getElem?_insert, same, Ne.symm same]

theorem changeOverlay_of_open {overlay : Overlay} (present : table.overlays[tx]? = some overlay)
    (change : Overlay → Overlay) :
    changeOverlay tx change table =
      (.ok (), { table with overlays := table.overlays.insert tx (change overlay) }) := by
  rw [changeOverlay, present]

theorem changeOverlay_of_closed (closed : table.overlays[tx]? = none)
    (change : Overlay → Overlay) :
    changeOverlay tx change table = (.error (finished tx), table) := by
  rw [changeOverlay, closed]

theorem opened_changeOverlay {change : Overlay → Overlay}
    (sameParent : ∀ overlay, (change overlay).parent = overlay.parent) (other : TxId) :
    (changeOverlay tx change table).2.opened other = table.opened other :=
  (frame_changeOverlay tx sameParent table other).opened other (Nat.le_refl _)

/-- The table from which the overlay of a transaction was taken. -/
def closing (table : Table) (tx : TxId) : Table :=
  { table with overlays := table.overlays.erase tx }

theorem opened_closing (other : TxId) :
    (table.closing tx).opened other = if other = tx then none else table.opened other := by
  by_cases same : tx = other
  · subst same
    simp [opened, closing]
  · simp [opened, closing, Std.ExtTreeMap.getElem?_erase, same, Ne.symm same]

theorem commit_of_closed (closed : table.opened tx = none) :
    commit tx table = (.error (finished tx), table) := by
  rw [commit, opened_eq_none_iff.mp closed]

theorem commit_of_outermost {overlay : Overlay} (present : table.overlays[tx]? = some overlay)
    (outermost : overlay.parent = none) :
    commit tx table = (.ok (), { table.closing tx with rows := overlay.applyTo table.rows }) := by
  rw [commit, present]
  simp only [outermost]
  rfl

theorem commit_of_nested {overlay : Overlay} {parent : TxId}
    (present : table.overlays[tx]? = some overlay) (nested : overlay.parent = some parent) :
    commit tx table = changeOverlay parent overlay.onto (table.closing tx) := by
  rw [commit, present]
  simp only [nested]
  rfl

/-- A commit takes its own transaction from those that are open, and no other. -/
theorem opened_commit (other : TxId) :
    (commit tx table).2.opened other = if other = tx then none else table.opened other := by
  cases present : table.overlays[tx]? with
  | none =>
      have closed := opened_eq_none_iff.mpr present
      rw [commit_of_closed closed]
      split
      · rename_i same
        rw [same, closed]
      · rfl
  | some overlay =>
      cases place : overlay.parent with
      | none =>
          rw [commit_of_outermost present place]
          exact opened_closing other
      | some parent =>
          rw [commit_of_nested present place, opened_changeOverlay (Overlay.parent_onto overlay)]
          exact opened_closing other

theorem failure_commit : (commit tx table).2.failure = table.failure := by
  unfold commit
  split
  · rfl
  · dsimp only
    split
    · unfold changeOverlay
      split <;> rfl
    · rfl

/-- How a commit ends depends on which transactions are open, and on nothing else. -/
theorem commit_fst :
    (commit tx table).1 =
      match table.opened tx with
      | none => .error (finished tx)
      | some none => .ok ()
      | some (some parent) =>
          if ((table.closing tx).opened parent).isSome then .ok ()
          else .error (finished parent) := by
  cases present : table.overlays[tx]? with
  | none =>
      have closed := opened_eq_none_iff.mpr present
      rw [commit_of_closed closed, closed]
  | some overlay =>
      cases place : overlay.parent with
      | none =>
          rw [commit_of_outermost present place,
            opened_eq_some_iff.mpr ⟨overlay, present, place⟩]
      | some parent =>
          rw [commit_of_nested present place, opened_eq_some_iff.mpr ⟨overlay, present, place⟩]
          cases lower : (table.closing tx).overlays[parent]? with
          | none => rw [changeOverlay_of_closed lower]; simp [opened, lower]
          | some outer => rw [changeOverlay_of_open lower]; simp [opened, lower]

theorem closing_of_closed (closed : table.opened tx = none) : table.closing tx = table := by
  have unchanged : table.overlays.erase tx = table.overlays := by
    refine Std.ExtTreeMap.ext_getElem? fun other => ?_
    rw [Std.ExtTreeMap.getElem?_erase]
    split
    · rename_i same
      rw [← Nat.compare_eq_eq.mp same, opened_eq_none_iff.mp closed]
    · rfl
  rw [closing, unchanged]

/-- A transaction in which nothing was changed leaves nothing behind. -/
theorem commit_opening {parent : Option TxId} (fresh : table.opened tx = none)
    (parentOpen : ∀ outer, parent = some outer → (table.opened outer).isSome) :
    commit tx (table.opening tx parent) = (.ok (), table) := by
  have present : (table.opening tx parent).overlays[tx]? = some (.empty parent) := by
    simp [opening]
  have closed : (table.opening tx parent).closing tx = table := by
    have erased :
        (table.overlays.insert tx (.empty parent)).erase tx = table.overlays.erase tx := by
      ext other overlay
      by_cases same : tx = other <;>
        simp [Std.ExtTreeMap.getElem?_erase, Std.ExtTreeMap.getElem?_insert, same]
    change { table with overlays := (table.overlays.insert tx (.empty parent)).erase tx } = table
    rw [erased]
    exact closing_of_closed fresh
  cases place : parent with
  | none =>
      subst place
      rw [commit_of_outermost present rfl, closed]
      change (_, { table with rows := (Overlay.empty none).applyTo table.rows }) = _
      rw [Overlay.applyTo_empty]
  | some outer =>
      subst place
      obtain ⟨lower, stored⟩ := Option.isSome_iff_exists.mp (parentOpen outer rfl)
      obtain ⟨overlay, stored, -⟩ := opened_eq_some_iff.mp stored
      have same : table.overlays.insert outer overlay = table.overlays := by
        ext other found
        by_cases same : outer = other
        · subst same
          simp [stored]
        · simp [Std.ExtTreeMap.getElem?_insert, same]
      rw [commit_of_nested present rfl, closed, changeOverlay_of_open stored,
        Overlay.empty_onto, same]

theorem rollback_eq :
    rollback tx table =
      (if (table.opened tx).isSome then .ok () else .error (finished tx), table.closing tx) := by
  unfold rollback
  rw [Std.ExtTreeMap.contains_eq_isSome_getElem?]
  cases present : table.overlays[tx]? with
  | some overlay => simp [opened, present, closing]
  | none =>
      have closed := opened_eq_none_iff.mpr present
      rw [closing_of_closed closed, closed]
      rfl

/-- Opening a transaction touches nothing that is older. -/
theorem frame_opening {bound : TxId} (younger : bound < tx) (parent place : Option TxId) :
    Frame bound place table (table.opening tx parent) where
  opened other le := by
    rw [opened_opening, if_neg (Nat.ne_of_lt (Nat.lt_of_le_of_lt le younger))]
  overlays other le _ := by
    have different : tx ≠ other := Nat.ne_of_gt (Nat.lt_of_le_of_lt le younger)
    simp [opening, Std.ExtTreeMap.getElem?_insert, different]
  rows _ := rfl
  failure := rfl

/-- Taking away the overlay of a transaction touches nothing that is older. -/
theorem frame_closing {bound : TxId} (younger : bound < tx) (place : Option TxId) :
    Frame bound place table (table.closing tx) where
  opened other le := by
    rw [opened_closing, if_neg (Nat.ne_of_lt (Nat.lt_of_le_of_lt le younger))]
  overlays other le _ := by
    have different : tx ≠ other := Nat.ne_of_gt (Nat.lt_of_le_of_lt le younger)
    simp [closing, Std.ExtTreeMap.getElem?_erase, different]
  rows _ := rfl
  failure := rfl

/-- What a commit publishes, it publishes into the parent of its transaction. -/
theorem frame_commit {bound : TxId} (younger : bound < tx) {parent : Option TxId}
    (isOpen : table.opened tx = some parent) : Frame bound parent table (commit tx table).2 := by
  obtain ⟨overlay, present, rfl⟩ := opened_eq_some_iff.mp isOpen
  cases place : overlay.parent with
  | none =>
      rw [commit_of_outermost present place]
      have closed : Frame bound none table (table.closing tx) := frame_closing younger none
      exact ⟨closed.opened, closed.overlays, fun inside => absurd rfl inside, rfl⟩
  | some parent =>
      rw [commit_of_nested present place]
      exact (frame_closing younger _).trans
        (frame_changeOverlay parent (Overlay.parent_onto overlay) _ bound) (Nat.le_refl _)

end Table

end QueryCache
