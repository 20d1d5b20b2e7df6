import QueryCache.Proofs.Transactions

/-!
# What is seen in a transaction

`Table.chain` counts its steps. Where every transaction stands in an older one, the count never
ends a chain, and the view of a transaction is its overlay applied to the view of the transaction
that it stands in. That is the only equation by which views are reasoned about.
-/

namespace QueryCache

@[simp] theorem Rows.getElem?_change (rows : Rows) (key other : String)
    (change : Option Wire.Bytes) :
    (rows.change key change)[other]? = if key = other then change else rows[other]? := by
  cases change with
  | some bytes => simp [Rows.change, Std.ExtTreeMap.getElem?_insert]
  | none => simp [Rows.change, Std.ExtTreeMap.getElem?_erase]

namespace Overlay

theorem applyTo_insert (overlay : Overlay) (key : String) (change : Option Wire.Bytes)
    (rows : Rows) :
    applyTo { overlay with changes := overlay.changes.insert key change } rows =
      (overlay.applyTo rows).change key change := by
  refine rows_ext fun other => ?_
  rw [getElem?_applyTo, rowThrough, Std.ExtTreeMap.getElem?_insert, Rows.getElem?_change,
    getElem?_applyTo]
  by_cases same : key = other
  · simp [same]
  · simp [same, rowThrough]

theorem applyTo_cleared (overlay : Overlay) (rows : Rows) :
    applyTo { overlay with cleared := true, changes := ∅ } rows = ∅ :=
  rows_ext fun key => by simp [rowThrough]

end Overlay

namespace Table

variable {table : Table} {tx : TxId}

/-- Every transaction stands in an older one. -/
def Ordered (table : Table) : Prop :=
  ∀ tx parent, table.opened tx = some (some parent) → parent < tx

theorem Ordered.parent_lt (ordered : table.Ordered) {overlay : Overlay} {parent : TxId}
    (present : table.overlays[tx]? = some overlay) (nested : overlay.parent = some parent) :
    parent < tx :=
  ordered tx parent (opened_eq_some_iff.mpr ⟨overlay, present, nested⟩)

/-- Any number of steps above the number of the transaction is enough. -/
theorem chainFrom_of_lt (ordered : table.Ordered) {steps : Nat} (enough : tx < steps) :
    table.chainFrom steps tx = table.chain (some tx) := by
  induction tx using Nat.strongRecOn generalizing steps with
  | ind tx inductionHypothesis =>
      obtain ⟨more, rfl⟩ := Nat.exists_eq_succ_of_ne_zero (Nat.ne_of_gt (Nat.zero_lt_of_lt enough))
      simp only [chain, chainFrom]
      cases present : table.overlays[tx]? with
      | none => rfl
      | some overlay =>
          cases nested : overlay.parent with
          | none => simp only [nested]
          | some parent =>
              have older := ordered.parent_lt present nested
              have below := @inductionHypothesis parent older tx older
              have above := @inductionHypothesis parent older more
                (Nat.lt_of_lt_of_le older (Nat.le_of_lt_succ enough))
              simp only [nested, below, above]

theorem chain_of_closed (closed : table.overlays[tx]? = none) :
    table.chain (some tx) = .error (finished tx) := by
  rw [chain, chainFrom, closed]

/-- A chain is the overlay of its transaction, and then the chain of the parent. -/
theorem chain_of_open (ordered : table.Ordered) {overlay : Overlay}
    (present : table.overlays[tx]? = some overlay) :
    table.chain (some tx) = (table.chain overlay.parent).map (overlay :: ·) := by
  rw [chain, chainFrom, present]
  cases nested : overlay.parent with
  | none => simp only [nested]; rfl
  | some parent =>
      simp only [nested, chainFrom_of_lt ordered (ordered.parent_lt present nested)]
      cases table.chain (some parent) <;> rfl

theorem view_eq (place : Option TxId) :
    table.view place = (table.chain place).map (viewFrom table.rows) := by
  rw [view]
  cases table.chain place <;> rfl

/-- Looking up one row is looking at all of them, and fails where that fails. -/
theorem get_eq (place : Option TxId) (key : String) :
    table.get place key = (table.view place).map fun rows => rows[key]? := by
  rw [get, view_eq]
  cases table.chain place with
  | error e => rfl
  | ok overlays => exact congrArg Except.ok (getElem?_viewFrom table.rows overlays key).symm

theorem view_outside : table.view none = .ok table.rows := rfl

theorem view_of_closed (closed : table.overlays[tx]? = none) :
    table.view (some tx) = .error (finished tx) := by
  rw [view_eq, chain_of_closed closed]
  rfl

/-- A transaction shows its overlay over what the transaction around it shows. -/
theorem view_of_open (ordered : table.Ordered) {overlay : Overlay}
    (present : table.overlays[tx]? = some overlay) :
    table.view (some tx) = (table.view overlay.parent).map overlay.applyTo := by
  rw [view_eq, view_eq, chain_of_open ordered present]
  cases table.chain overlay.parent <;> rfl

/-- A place that is open, and so is every transaction around it. -/
inductive OpenThrough (table : Table) : Option TxId → Prop
  | outside : OpenThrough table none
  | inside {tx : TxId} {parent : Option TxId} (isOpen : table.opened tx = some parent)
      (around : OpenThrough table parent) : OpenThrough table (some tx)

theorem OpenThrough.congr {other : Table} (same : ∀ tx, other.opened tx = table.opened tx)
    {place : Option TxId} (through : table.OpenThrough place) : other.OpenThrough place := by
  induction through with
  | outside => exact .outside
  | inside isOpen _ inductionHypothesis =>
      exact .inside ((same _).trans isOpen) inductionHypothesis

/-- Something is seen exactly where everything around is open. -/
theorem exists_view_iff (ordered : table.Ordered) {place : Option TxId} :
    (∃ rows, table.view place = .ok rows) ↔ table.OpenThrough place := by
  constructor
  · rintro ⟨rows, shown⟩
    cases place with
    | none => exact .outside
    | some tx =>
        induction tx using Nat.strongRecOn generalizing rows with
        | ind tx inductionHypothesis =>
            cases present : table.overlays[tx]? with
            | none => cases (view_of_closed present).symm.trans shown
            | some overlay =>
                refine .inside (opened_eq_some_iff.mpr ⟨overlay, present, rfl⟩) ?_
                rw [view_of_open ordered present] at shown
                cases nested : overlay.parent with
                | none => exact .outside
                | some parent =>
                    rw [nested] at shown
                    cases outer : table.view (some parent) with
                    | error e =>
                        rw [outer] at shown
                        cases shown
                    | ok below =>
                        have older := ordered.parent_lt present nested
                        exact inductionHypothesis parent older below outer
  · intro through
    induction through with
    | outside => exact ⟨table.rows, view_outside⟩
    | inside isOpen _ inductionHypothesis =>
        obtain ⟨overlay, present, rfl⟩ := opened_eq_some_iff.mp isOpen
        obtain ⟨below, outer⟩ := inductionHypothesis
        refine ⟨overlay.applyTo below, ?_⟩
        rw [view_of_open ordered present, outer]
        rfl

end Table

end QueryCache
