import QueryCache.Proofs.Frames

/-!
# How views change

What is seen in a transaction after it was begun, after a row was changed in it, and after it was
committed. A view depends on its own transaction and the older ones only, so that nothing that is
done in younger transactions shows in it.
-/

namespace QueryCache.Table

variable {table other : Table} {tx : TxId}

/-- Two tables with the same rows show the same in a transaction if they have the same overlays up
to its number. -/
theorem view_congr (ordered : table.Ordered) (otherOrdered : other.Ordered)
    (rows : other.rows = table.rows)
    (agree : ∀ older : TxId, older ≤ tx → other.overlays[older]? = table.overlays[older]?) :
    other.view (some tx) = table.view (some tx) := by
  induction tx using Nat.strongRecOn with
  | ind tx inductionHypothesis =>
      have same := agree tx (Nat.le_refl tx)
      cases present : table.overlays[tx]? with
      | none => rw [view_of_closed (same.trans present), view_of_closed present]
      | some overlay =>
          rw [view_of_open otherOrdered (same.trans present), view_of_open ordered present]
          congr 1
          cases nested : overlay.parent with
          | none => rw [view_outside, view_outside, rows]
          | some parent =>
              have below := ordered.parent_lt present nested
              exact inductionHypothesis parent below fun older le =>
                agree older (Nat.le_trans le (Nat.le_of_lt below))

/-- What is seen through overlays that are kept is seen still. -/
theorem view_of_kept (ordered : table.Ordered) (otherOrdered : other.Ordered)
    (rows : other.rows = table.rows)
    (kept : ∀ (tx : TxId) overlay, table.overlays[tx]? = some overlay →
      other.overlays[tx]? = some overlay)
    {place : Option TxId} {seen : Rows} (shown : table.view place = .ok seen) :
    other.view place = .ok seen := by
  rw [← shown]
  have through := (exists_view_iff ordered).mp ⟨seen, shown⟩
  clear shown
  induction through with
  | outside => rw [view_outside, view_outside, rows]
  | inside isOpen around inductionHypothesis =>
      obtain ⟨overlay, present, rfl⟩ := opened_eq_some_iff.mp isOpen
      rw [view_of_open otherOrdered (kept _ _ present), view_of_open ordered present,
        inductionHypothesis]

/-- What stays within a transaction does not show in older places. -/
theorem Frame.view_eq {bound tx : TxId} {place : Option TxId} {before after : Table}
    (frame : Frame bound (some tx) before after) (ordered : before.Ordered)
    (orderedAfter : after.Ordered) (younger : bound < tx)
    (older : ∀ outer, place = some outer → outer ≤ bound) :
    after.view place = before.view place := by
  cases place with
  | none => rw [view_outside, view_outside, frame.rows nofun]
  | some outer =>
      refine view_congr ordered orderedAfter (frame.rows nofun) fun other le => ?_
      have within := Nat.le_trans le (older outer rfl)
      refine frame.overlays other within fun same => ?_
      cases same
      exact Nat.not_lt.mpr within younger

/-- A table shows the same whether or not it is made to fail. -/
theorem view_failing (ordered : table.Ordered) (failure : Option Error) (place : Option TxId) :
    view { table with failure } place = table.view place := by
  cases place with
  | none => rfl
  | some tx => exact view_congr ordered ordered rfl fun _ _ => rfl

/-- A transaction shows at first what the transaction around it shows. -/
theorem view_opening (ordered : table.Ordered) {parent : Option TxId}
    (openingOrdered : (table.opening tx parent).Ordered) :
    (table.opening tx parent).view (some tx) = table.view parent := by
  have present : (table.opening tx parent).overlays[tx]? = some (.empty parent) := by
    simp [opening]
  have below : (table.opening tx parent).view parent = table.view parent := by
    cases place : parent with
    | none => rfl
    | some outer =>
        have older : outer < tx := openingOrdered.parent_lt present place
        subst place
        refine view_congr ordered openingOrdered rfl fun oldest le => ?_
        have different : tx ≠ oldest := Nat.ne_of_gt (Nat.lt_of_le_of_lt le older)
        simp [opening, Std.ExtTreeMap.getElem?_insert, different]
  rw [view_of_open openingOrdered present]
  change ((table.opening tx parent).view parent).map (Overlay.empty parent).applyTo = _
  rw [below]
  cases table.view parent with
  | error e => rfl
  | ok rows => exact congrArg Except.ok (Overlay.applyTo_empty parent rows)

/-- A change of an overlay shows over what its transaction is laid over. -/
theorem view_changeOverlay (ordered : table.Ordered) {overlay : Overlay}
    (change : Overlay → Overlay) (sameParent : ∀ overlay, (change overlay).parent = overlay.parent)
    (present : table.overlays[tx]? = some overlay) :
    (changeOverlay tx change table).2.view (some tx) =
      (table.view overlay.parent).map (change overlay).applyTo := by
  have changedOrdered : (changeOverlay tx change table).2.Ordered := fun other parent isOpen =>
    ordered other parent (opened_changeOverlay sameParent other ▸ isOpen)
  rw [changeOverlay_of_open present] at changedOrdered ⊢
  have changed : (table.overlays.insert tx (change overlay))[tx]? = some (change overlay) := by
    simp
  rw [view_of_open changedOrdered changed, sameParent]
  congr 1
  cases nested : overlay.parent with
  | none => rfl
  | some parent =>
      refine view_congr ordered changedOrdered rfl fun older le => ?_
      have below := ordered.parent_lt present nested
      have different : tx ≠ older := Nat.ne_of_gt (Nat.lt_of_le_of_lt le below)
      simp [Std.ExtTreeMap.getElem?_insert, different]

/-- A change that acts on what is seen through any overlay acts so on the view. -/
theorem view_changed (ordered : table.Ordered) {seen : Rows}
    (shown : table.view (some tx) = .ok seen) (change : Overlay → Overlay)
    (sameParent : ∀ overlay, (change overlay).parent = overlay.parent) (act : Rows → Rows)
    (acts : ∀ overlay rows, (change overlay).applyTo rows = act (overlay.applyTo rows)) :
    (changeOverlay tx change table).1 = .ok () ∧
      (changeOverlay tx change table).2.view (some tx) = .ok (act seen) := by
  cases present : table.overlays[tx]? with
  | none => cases (view_of_closed present).symm.trans shown
  | some overlay =>
      have changed := view_changeOverlay ordered change sameParent present
      rw [view_of_open ordered present] at shown
      cases outer : table.view overlay.parent with
      | error e => rw [outer] at shown; cases shown
      | ok rows =>
          rw [outer] at shown changed
          cases shown
          refine ⟨?_, changed.trans (congrArg Except.ok (acts overlay rows))⟩
          rw [changeOverlay_of_open present]

/-- A change of a row shows as this change of the row. -/
theorem view_set (ordered : table.Ordered) {place : Option TxId} {seen : Rows}
    (shown : table.view place = .ok seen) (key : String) (change : Option Wire.Bytes) :
    (Table.set place key change table).1 = .ok () ∧
      (Table.set place key change table).2.view place = .ok (seen.change key change) := by
  cases place with
  | none =>
      cases shown
      exact ⟨rfl, rfl⟩
  | some tx =>
      apply view_changed ordered shown _ _ (fun rows => rows.change key change)
      · intro overlay rows
        exact overlay.applyTo_insert key change rows
      · intro overlay
        rfl

theorem view_clear (ordered : table.Ordered) {place : Option TxId} {seen : Rows}
    (shown : table.view place = .ok seen) :
    (Table.clear place table).1 = .ok () ∧ (Table.clear place table).2.view place = .ok ∅ := by
  cases place with
  | none => exact ⟨rfl, rfl⟩
  | some tx =>
      apply view_changed ordered shown _ _ (fun _ => ∅)
      · intro overlay rows
        exact overlay.applyTo_cleared rows
      · intro overlay
        rfl

/-- What a transaction showed, the transaction around it shows after the commit. -/
theorem view_commit (ordered : table.Ordered) {parent : Option TxId} {seen : Rows}
    (isOpen : table.opened tx = some parent) (shown : table.view (some tx) = .ok seen) :
    (commit tx table).2.view parent = .ok seen := by
  obtain ⟨overlay, present, rfl⟩ := opened_eq_some_iff.mp isOpen
  have shownAbove := view_of_open ordered present
  rw [shown] at shownAbove
  cases nested : overlay.parent with
  | none =>
      rw [commit_of_outermost present nested]
      rw [nested] at shownAbove
      exact shownAbove.symm
  | some outer =>
      have below := ordered.parent_lt present nested
      have closingOrdered : (table.closing tx).Ordered := by
        intro other parent isOpen
        rw [opened_closing] at isOpen
        split at isOpen
        · cases isOpen
        · exact ordered other parent isOpen
      cases lower : table.overlays[outer]? with
      | none =>
          rw [nested, view_of_closed lower] at shownAbove
          cases shownAbove
      | some outerOverlay =>
          have stillOpen : (table.closing tx).overlays[outer]? = some outerOverlay := by
            simp [closing, Std.ExtTreeMap.getElem?_erase, Nat.ne_of_gt below, lower]
          have outside : (table.closing tx).view outerOverlay.parent =
              table.view outerOverlay.parent := by
            cases place : outerOverlay.parent with
            | none => rfl
            | some outermost =>
                refine view_congr ordered closingOrdered rfl fun older le => ?_
                have farBelow := Nat.lt_trans (ordered.parent_lt lower place) below
                have different : tx ≠ older := Nat.ne_of_gt (Nat.lt_of_le_of_lt le farBelow)
                simp [closing, Std.ExtTreeMap.getElem?_erase, different]
          rw [commit_of_nested present nested,
            view_changeOverlay closingOrdered _ (Overlay.parent_onto overlay) stillOpen, outside]
          rw [nested, view_of_open ordered lower] at shownAbove
          cases outermost : table.view outerOverlay.parent with
          | error e => rw [outermost] at shownAbove; cases shownAbove
          | ok rows =>
              rw [outermost] at shownAbove
              rw [shownAbove]
              exact congrArg Except.ok (Overlay.applyTo_onto overlay outerOverlay rows)

end QueryCache.Table
