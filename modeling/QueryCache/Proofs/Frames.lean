import QueryCache.Proofs.Soundness

/-!
# What stays within a transaction

`Repository.Frame` says of two repositories that the later one was reached from the earlier one by
work within a single transaction, as far as one can tell from transactions that were numbered
before. It is transitive, it passes from a transaction to the one around it when the transaction
ends, and where the transaction was not numbered before, nothing that was there is touched.
-/

namespace QueryCache

namespace Repository

variable {ι ε : Type} {schema : Schema ι ε}

/-- The committed rows, and all that was staged in open transactions, are as they were. -/
structure Untouched (before after : Repository) : Prop where
  entityRows : after.entities.rows = before.entities.rows
  hitRows : after.hits.rows = before.hits.rows
  entityOverlays : ∀ (tx : TxId) overlay, before.entities.overlays[tx]? = some overlay →
    after.entities.overlays[tx]? = some overlay
  hitOverlays : ∀ (tx : TxId) overlay, before.hits.overlays[tx]? = some overlay →
    after.hits.overlays[tx]? = some overlay

theorem Untouched.refl (repository : Repository) : repository.Untouched repository :=
  ⟨rfl, rfl, fun _ _ present => present, fun _ _ present => present⟩

/-- Both tables stay within a transaction, as far as transactions that were numbered before are
concerned. -/
structure Frame (tx : Option TxId) (before after : Repository) : Prop where
  lastTx : before.lastTx ≤ after.lastTx
  entities : Table.Frame before.lastTx tx before.entities after.entities
  hits : Table.Frame before.lastTx tx before.hits after.hits

namespace Frame

theorem refl (tx : Option TxId) (repository : Repository) : Frame tx repository repository :=
  ⟨Nat.le_refl _, .refl _, .refl _⟩

theorem trans {tx : Option TxId} {before middle after : Repository}
    (first : Frame tx before middle) (second : Frame tx middle after) : Frame tx before after where
  lastTx := Nat.le_trans first.lastTx second.lastTx
  entities := first.entities.trans second.entities first.lastTx
  hits := first.hits.trans second.hits first.lastTx

/-- What stays within a transaction that was not numbered yet touches nothing. -/
theorem untouched {tx : TxId} {before after : Repository} (frame : Frame (some tx) before after)
    (sound : before.Sound schema) (younger : before.lastTx < tx) :
    before.Untouched after := by
  have older {other} (isOpen : (before.hits.opened other).isSome) : other ≤ before.lastTx :=
    sound.le_lastTx other isOpen
  have apart {other} (le : other ≤ before.lastTx) : some other ≠ some tx := by
    intro same
    cases same
    exact absurd younger (Nat.not_lt.mpr le)
  constructor
  · exact frame.entities.rows nofun
  · exact frame.hits.rows nofun
  · intro other overlay present
    have isOpen : (before.hits.opened other).isSome := by
      rw [← sound.paired, Table.opened, present]
      rfl
    exact (frame.entities.overlays other (older isOpen) (apart (older isOpen))).trans present
  · intro other overlay present
    have isOpen : (before.hits.opened other).isSome := by
      rw [Table.opened, present]
      rfl
    exact (frame.hits.overlays other (older isOpen) (apart (older isOpen))).trans present

/-- Work within a transaction that was not numbered before stays anywhere. -/
theorem inside {tx : TxId} {before after : Repository} (frame : Frame (some tx) before after)
    (younger : before.lastTx < tx) (place : Option TxId) : Frame place before after :=
  ⟨frame.lastTx, frame.entities.inside younger, frame.hits.inside younger⟩

theorem edits {tx : Option TxId} {before after : Repository}
    (edits : Edits schema tx before after) : Frame tx before after where
  lastTx := Nat.le_of_eq edits.lastTx.symm
  entities := edits.entities.frame _
  hits := edits.hits.frame _

/-- A number that is used up in vain changes nothing else. -/
theorem numbered (tx : Option TxId) (repository : Repository) :
    Frame tx repository { repository with lastTx := repository.lastTx + 1 } :=
  ⟨Nat.le_succ _, .refl _, .refl _⟩

theorem opening (tx parent : Option TxId) (repository : Repository) :
    Frame tx repository (repository.opening parent) where
  lastTx := Nat.le_succ _
  entities := Table.frame_opening (Nat.lt_succ_self _) parent tx
  hits := Table.frame_opening (Nat.lt_succ_self _) parent tx

/-- What is done within a transaction, and then published into its parent, stays within the
parent. -/
theorem publish {tx : TxId} {parent : Option TxId} {before inner : Repository}
    (frame : Frame (some tx) before inner) (younger : before.lastTx < tx)
    (entitiesOpen : inner.entities.opened tx = some parent)
    (hitsOpen : inner.hits.opened tx = some parent) :
    Frame parent before { inner with
      entities := (Table.commit tx inner.entities).2
      hits := (Table.commit tx inner.hits).2 } where
  lastTx := frame.lastTx
  entities :=
    (frame.entities.inside younger).trans (Table.frame_commit younger entitiesOpen) (Nat.le_refl _)
  hits := (frame.hits.inside younger).trans (Table.frame_commit younger hitsOpen) (Nat.le_refl _)

/-- What is done within a transaction, and then rolled back, stays anywhere. -/
theorem drop {tx : TxId} {before inner : Repository} (frame : Frame (some tx) before inner)
    (younger : before.lastTx < tx) (place : Option TxId) :
    Frame place before { inner with
      entities := inner.entities.closing tx
      hits := inner.hits.closing tx } where
  lastTx := frame.lastTx
  entities :=
    (frame.entities.inside younger).trans (Table.frame_closing younger place) (Nat.le_refl _)
  hits := (frame.hits.inside younger).trans (Table.frame_closing younger place) (Nat.le_refl _)

end Frame

end Repository

end QueryCache
