import QueryCache.Proofs.Correspondence
import QueryCache.Proofs.Views

/-!
# What transactions see of each other

A transaction and all that stand in it are within it (`Table.Within`). Two tables that agree outside
of some transactions show the same to everyone else (`AgreeOutside.view_eq`), and so two
repositories that do give everyone else the same answers. What a call does in a transaction, the
commit of a transaction into another one, and a rollback each leave a repository that agrees with
the one before outside of a single transaction.
-/

namespace QueryCache

open QueryCache.Action Wire

namespace Table

variable {table other left right : Table} {tx top : TxId} {place : Option TxId}

/-- Within a transaction are itself and the open transactions that stand in it, directly or over
others that are open. -/
inductive Within (table : Table) (top : TxId) : Option TxId → Prop
  | self : Within table top (some top)
  | inner {tx : TxId} {parent : Option TxId} (isOpen : table.opened tx = some parent)
      (around : Within table top parent) : Within table top (some tx)

namespace Within

theorem not_outside : ¬ table.Within top none := nofun

theorem trans {outermost : TxId} (outer : table.Within outermost (some top))
    (inner : table.Within top place) : table.Within outermost place := by
  induction inner with
  | self => exact outer
  | inner isOpen _ inductionHypothesis => exact .inner isOpen inductionHypothesis

/-- Transactions that are opened leave what is within a transaction within it. -/
theorem mono (more : ∀ tx parent, table.opened tx = some parent → other.opened tx = some parent)
    (within : table.Within top place) : other.Within top place := by
  induction within with
  | self => exact .self
  | inner isOpen _ inductionHypothesis => exact .inner (more _ _ isOpen) inductionHypothesis

theorem congr_iff (same : ∀ tx, other.opened tx = table.opened tx) :
    other.Within top place ↔ table.Within top place :=
  ⟨mono fun tx _ isOpen => (same tx).symm.trans isOpen, mono fun tx _ => (same tx).trans⟩

/-- Where everything around is still open, the transactions that were closed have taken nothing from
what is within a transaction. -/
theorem of_openThrough
    (fewer : ∀ tx parent, other.opened tx = some parent → table.opened tx = some parent)
    (through : other.OpenThrough place) (within : table.Within top place) :
    other.Within top place := by
  induction through with
  | outside => cases within
  | @inside tx parent isOpen around inductionHypothesis =>
      cases within with
      | self => exact .self
      | @inner _ outer wasOpen outerWithin =>
          cases (fewer tx parent isOpen).symm.trans wasOpen
          exact .inner isOpen (inductionHypothesis outerWithin)

/-- Nothing within a closed transaction is open all the way out. -/
theorem isOpen (within : table.Within top place) (through : table.OpenThrough place) :
    (table.opened top).isSome := by
  induction within with
  | self =>
      cases through with
      | inside isOpen _ => simp [isOpen]
  | inner isOpen _ inductionHypothesis =>
      cases through with
      | inside stillOpen around =>
          cases isOpen.symm.trans stillOpen
          exact inductionHypothesis around

end Within

theorem OpenThrough.mono
    (fewer : ∀ tx parent, other.opened tx = some parent → table.opened tx = some parent)
    (through : other.OpenThrough place) : table.OpenThrough place := by
  induction through with
  | outside => exact .outside
  | inside isOpen _ inductionHypothesis => exact .inside (fewer _ _ isOpen) inductionHypothesis

/-- Two tables differ in what is hidden only: they have the same rows, elsewhere the same
transactions are open in them, and one that is open all the way out has the same overlay. -/
structure AgreeOutside (hidden : Option TxId → Prop) (left right : Table) : Prop where
  rows : right.rows = left.rows
  failure : right.failure = left.failure
  opened : ∀ tx, ¬ hidden (some tx) → right.opened tx = left.opened tx
  overlays : ∀ tx : TxId, left.OpenThrough (some tx) → ¬ hidden (some tx) →
    right.overlays[tx]? = left.overlays[tx]?

/-- With a transaction, all that stand in it are hidden. -/
def HidesInner (table : Table) (hidden : Option TxId → Prop) : Prop :=
  ∀ tx parent, table.opened tx = some parent → hidden parent → hidden (some tx)

theorem hidesInner_within (table : Table) (top : TxId) : table.HidesInner (table.Within top) :=
  fun _ _ => .inner

namespace AgreeOutside

variable {hidden : Option TxId → Prop}

theorem weaken {more : Option TxId → Prop} (agree : AgreeOutside hidden left right)
    (covers : ∀ place, hidden place → more place) : AgreeOutside more left right where
  rows := agree.rows
  failure := agree.failure
  opened tx shown := agree.opened tx fun isHidden => shown (covers _ isHidden)
  overlays tx through shown := agree.overlays tx through fun isHidden => shown (covers _ isHidden)

/-- Whoever is not hidden sees the same in both tables, or meets the same failure. -/
theorem view_eq (agree : AgreeOutside hidden left right) (ordered : left.Ordered)
    (otherOrdered : right.Ordered) (hides : left.HidesInner hidden) (shown : ¬ hidden place) :
    right.view place = left.view place := by
  cases place with
  | none => rw [view_outside, view_outside, agree.rows]
  | some tx =>
      induction tx using Nat.strongRecOn with
      | ind tx inductionHypothesis =>
          have sameOpen := agree.opened tx shown
          cases present : left.overlays[tx]? with
          | none =>
              rw [opened_eq_none_iff.mpr present, opened_eq_none_iff] at sameOpen
              rw [view_of_closed present, view_of_closed sameOpen]
          | some overlay =>
              have isOpen := opened_eq_some_iff.mpr ⟨overlay, present, rfl⟩
              obtain ⟨upper, otherPresent, sameParent⟩ :=
                opened_eq_some_iff.mp (sameOpen.trans isOpen)
              have parentShown : ¬ hidden overlay.parent := fun isHidden =>
                shown (hides tx _ isOpen isHidden)
              have below : right.view overlay.parent = left.view overlay.parent := by
                cases nested : overlay.parent with
                | none => rw [view_outside, view_outside, agree.rows]
                | some parent =>
                    rw [nested] at parentShown
                    exact inductionHypothesis parent (ordered.parent_lt present nested) parentShown
              rw [view_of_open ordered present, view_of_open otherOrdered otherPresent, sameParent,
                below]
              -- The overlays are known to be the same only where the view is one of rows.
              cases outer : left.view overlay.parent with
              | error e => rfl
              | ok rows =>
                  have around := (exists_view_iff ordered).mp ⟨rows, outer⟩
                  have same := agree.overlays tx (.inside isOpen around) shown
                  rw [present, otherPresent] at same
                  cases same
                  rfl

end AgreeOutside

/-- The same change of the overlay of a transaction keeps two tables in agreement. -/
theorem simulates_changeOverlay {hidden : Option TxId → Prop} {change : Overlay → Overlay}
    (sameParent : ∀ overlay, (change overlay).parent = overlay.parent)
    (shown : ¬ hidden (some tx)) (agree : AgreeOutside hidden left right) :
    (changeOverlay tx change left).1 = (changeOverlay tx change right).1 ∧
      AgreeOutside hidden (changeOverlay tx change left).2 (changeOverlay tx change right).2 := by
  have sameOpen := agree.opened tx shown
  cases present : left.overlays[tx]? with
  | none =>
      rw [opened_eq_none_iff.mpr present, opened_eq_none_iff] at sameOpen
      rw [changeOverlay_of_closed present, changeOverlay_of_closed sameOpen]
      exact ⟨rfl, agree⟩
  | some overlay =>
      have isOpen := opened_eq_some_iff.mpr ⟨overlay, present, rfl⟩
      obtain ⟨upper, otherPresent, -⟩ := opened_eq_some_iff.mp (sameOpen.trans isOpen)
      have openedLeft : ∀ other,
          (changeOverlay tx change left).2.opened other = left.opened other :=
        opened_changeOverlay sameParent
      have openedRight : ∀ other,
          (changeOverlay tx change right).2.opened other = right.opened other :=
        opened_changeOverlay sameParent
      rw [changeOverlay_of_open present] at openedLeft ⊢
      rw [changeOverlay_of_open otherPresent] at openedRight ⊢
      refine ⟨rfl, agree.rows, agree.failure, fun other otherShown => ?_,
        fun other through otherShown => ?_⟩
      · rw [openedLeft, openedRight]
        exact agree.opened other otherShown
      · have same := agree.overlays other (through.congr fun tx => (openedLeft tx).symm) otherShown
        by_cases isThis : tx = other
        · subst isThis
          rw [present, otherPresent] at same
          cases same
          simp
        · simpa [Std.ExtTreeMap.getElem?_insert, isThis] using same

/-- Two tables that agree outside of what is hidden, with all that stands in it. -/
structure AgreeFor (hidden : Option TxId → Prop) (left right : Table) : Prop where
  ordered : left.Ordered
  otherOrdered : right.Ordered
  hides : left.HidesInner hidden
  agree : AgreeOutside hidden left right

/-- Where the open transactions stay as they are, agreement is all that has to be kept. -/
theorem AgreeFor.later {hidden : Option TxId → Prop} {left' right' : Table}
    (agreeFor : AgreeFor hidden left right) (opened : ∀ tx, left'.opened tx = left.opened tx)
    (otherOpened : ∀ tx, right'.opened tx = right.opened tx)
    (agree : AgreeOutside hidden left' right') : AgreeFor hidden left' right' where
  ordered tx parent isOpen := agreeFor.ordered tx parent (opened tx ▸ isOpen)
  otherOrdered tx parent isOpen := agreeFor.otherOrdered tx parent (otherOpened tx ▸ isOpen)
  hides tx parent isOpen := agreeFor.hides tx parent (opened tx ▸ isOpen)
  agree := agree

theorem AgreeFor.changeOverlay {hidden : Option TxId → Prop} {change : Overlay → Overlay}
    (sameParent : ∀ overlay, (change overlay).parent = overlay.parent)
    (shown : ¬ hidden (some tx)) :
    Simulates (AgreeFor hidden) (changeOverlay tx change) (changeOverlay tx change) := by
  intro left right agreeFor
  obtain ⟨same, agree⟩ := simulates_changeOverlay sameParent shown agreeFor.agree
  exact ⟨same, agreeFor.later (opened_changeOverlay sameParent) (opened_changeOverlay sameParent)
    agree⟩

/-- The committed rows may change, if they change alike. -/
theorem AgreeFor.changeRows {hidden : Option TxId → Prop} {rows rows' : Rows}
    (agreeFor : AgreeFor hidden left right) (same : rows' = rows) :
    AgreeFor hidden { left with rows := rows } { right with rows := rows' } where
  ordered := agreeFor.ordered
  otherOrdered := agreeFor.otherOrdered
  hides := agreeFor.hides
  agree := by
    have sameOpen (tx : TxId) : left.opened tx = opened { left with rows := rows } tx := rfl
    exact ⟨same, agreeFor.agree.failure, agreeFor.agree.opened, fun tx through =>
      agreeFor.agree.overlays tx (through.congr sameOpen)⟩

/-- A context that is not hidden corresponds to itself in tables that agree for it. -/
theorem corresponds_agreeFor {hidden : Option TxId → Prop} {signals : Signals} {ctx : Context}
    (shown : ¬ hidden ctx.tx) : Corresponds (AgreeFor hidden) signals ctx ctx where
  precheck left right agreeFor := by
    rw [Table.precheck, Table.precheck, agreeFor.agree.failure]
  view left right agreeFor :=
    (agreeFor.agree.view_eq agreeFor.ordered agreeFor.otherOrdered agreeFor.hides shown).symm
  set key change := by
    cases place : ctx.tx with
    | some tx => exact AgreeFor.changeOverlay (fun _ => rfl) (place ▸ shown)
    | none =>
        intro left right agreeFor
        have sameRows : right.rows.change key change = left.rows.change key change := by
          rw [agreeFor.agree.rows]
        exact ⟨rfl, agreeFor.changeRows sameRows⟩
  clear := by
    cases place : ctx.tx with
    | some tx => exact AgreeFor.changeOverlay (fun _ => rfl) (place ▸ shown)
    | none => exact fun left right agreeFor => ⟨rfl, agreeFor.changeRows rfl⟩

/-- Edits in a transaction stay within it, and within every transaction that it stands in. -/
theorem agreeOutside_of_edits {legal : String → Option Bytes → Prop} {after : Table}
    (edits : Edits legal place table after) (within : table.Within top place) :
    AgreeOutside (table.Within top) table after where
  rows := (edits.frame 0).rows fun outside => Within.not_outside (outside ▸ within)
  failure := (edits.frame 0).failure
  opened tx _ := (edits.frame tx).opened tx (Nat.le_refl tx)
  overlays tx _ shown := (edits.frame tx).overlays tx (Nat.le_refl tx) fun same =>
    shown (same ▸ within)

/-- A transaction that is closed without a commit takes its own changes with it, and no others. -/
theorem agreeOutside_closing : AgreeOutside (table.Within tx) table (table.closing tx) where
  rows := rfl
  failure := rfl
  opened other shown := by
    rw [opened_closing, if_neg]
    rintro rfl
    exact shown .self
  overlays other _ shown := by
    have different : tx ≠ other := by
      rintro rfl
      exact shown .self
    simp [closing, Std.ExtTreeMap.getElem?_erase, different]

/-- A commit into another transaction stays within that one. -/
theorem agreeOutside_commit {parent : TxId} (isOpen : table.opened tx = some (some parent)) :
    AgreeOutside (table.Within parent) table (commit tx table).2 := by
  obtain ⟨overlay, present, nested⟩ := opened_eq_some_iff.mp isOpen
  have inside : table.Within parent (some tx) := .inner isOpen .self
  have closed : AgreeOutside (table.Within parent) table (table.closing tx) :=
    agreeOutside_closing.weaken fun _ => inside.trans
  rw [commit_of_nested present nested]
  cases lower : (table.closing tx).overlays[parent]? with
  | none =>
      rw [changeOverlay_of_closed lower]
      exact closed
  | some outer =>
      have sameOpened (other : TxId) :
          (changeOverlay parent overlay.onto (table.closing tx)).2.opened other =
            (table.closing tx).opened other :=
        opened_changeOverlay (Overlay.parent_onto overlay) other
      rw [changeOverlay_of_open lower] at sameOpened ⊢
      refine ⟨rfl, rfl, fun other shown => ?_, fun other through shown => ?_⟩
      · rw [sameOpened]
        exact closed.opened other shown
      · have different : parent ≠ other := by
          rintro rfl
          exact shown .self
        simpa [Std.ExtTreeMap.getElem?_insert, different] using closed.overlays other through shown

end Table

namespace Repository

variable {ι ε : Type} {schema : Schema ι ε} {repository left right : Repository}
  {hidden : Option TxId → Prop} {place : Option TxId}

/-- Every request is given the same answer in two repositories, in all contexts of a place. -/
def AnswersAlike (schema : Schema ι ε) (place : Option TxId) (left right : Repository) : Prop :=
  ∀ signals (ctx : Context) request, ctx.tx = place →
    ((stores schema signals).perform ctx request left).1 =
      ((stores schema signals).perform ctx request right).1

/-- How a transaction is begun depends on whether the one around it is open, and on the number of
the last one. -/
theorem Sound.begin_fst (sound : repository.Sound schema) {signals : Signals} {ctx : Context}
    (live : ctx.check signals = .ok ()) :
    (Repository.begin signals ctx repository).1 =
      match ctx.tx.filter fun outer => (repository.hits.opened outer).isNone with
      | some outer => .error (Table.finished outer)
      | none => .ok (ctx.withTx (repository.lastTx + 1)) := by
  cases inside : ctx.tx with
  | none =>
      rw [begin_of_open live (by simp [inside]) (by simp [inside])]
      rfl
  | some outer =>
      cases isOpen : repository.hits.opened outer with
      | none =>
          rw [begin_of_closed live inside ((sound.paired outer).trans isOpen), Option.filter_some,
            isOpen]
          rfl
      | some parent =>
          rw [begin_of_open live (by simp [inside, sound.paired, isOpen])
            (by simp [inside, isOpen]), Option.filter_some, isOpen]
          rfl

/-- Both tables of two repositories agree outside of what is hidden, and so do the numbers. -/
structure AgreeOutside (hidden : Option TxId → Prop) (left right : Repository) : Prop where
  entities : left.entities.AgreeOutside hidden right.entities
  hits : left.hits.AgreeOutside hidden right.hits
  lastTx : right.lastTx = left.lastTx

theorem AgreeOutside.weaken {more : Option TxId → Prop} (agree : left.AgreeOutside hidden right)
    (covers : ∀ place, hidden place → more place) : left.AgreeOutside more right :=
  ⟨agree.entities.weaken covers, agree.hits.weaken covers, agree.lastTx⟩

/-- Whoever is not hidden is given the same answers. -/
theorem AgreeOutside.answersAlike (agree : left.AgreeOutside hidden right)
    (sound : left.Sound schema) (otherSound : right.Sound schema)
    (hides : left.hits.HidesInner hidden) (shown : ¬ hidden place) :
    AnswersAlike schema place left right := by
  rintro signals ctx request rfl
  by_cases call : request.isCall
  · have inEntities : left.entities.AgreeFor hidden right.entities :=
      ⟨sound.entitiesOrdered, otherSound.entitiesOrdered,
        fun tx parent isOpen => hides tx parent (sound.paired tx ▸ isOpen), agree.entities⟩
    have inHits : left.hits.AgreeFor hidden right.hits :=
      ⟨sound.ordered, otherSound.ordered, hides, agree.hits⟩
    exact (simulates_call (Table.corresponds_agreeFor shown) (Table.corresponds_agreeFor shown) call
      left right ⟨inEntities, inHits, agree.lastTx.symm⟩).1
  · have sameOpen (tx : TxId) (inside : ctx.tx = some tx) :
        right.hits.opened tx = left.hits.opened tx :=
      agree.hits.opened tx (inside ▸ shown)
    cases request with
    | begin =>
        have same : (begin signals ctx left).1 = (begin signals ctx right).1 := by
          cases live : ctx.check signals with
          | error e => rw [begin_of_ended live, begin_of_ended live]
          | ok _ =>
              rw [sound.begin_fst live, otherSound.begin_fst live, agree.lastTx]
              cases inside : ctx.tx with
              | none => rfl
              | some outer => simp only [Option.filter_some, sameOpen outer inside]
        exact congrArg (Except.map _) same
    | commit =>
        have same : (commit ctx left).1 = (commit ctx right).1 := by
          cases inside : ctx.tx with
          | none => rw [commit_outside inside, commit_outside inside]
          | some tx =>
              rw [sound.commit_eq inside, otherSound.commit_eq inside, Table.commit_fst,
                Table.commit_fst, sameOpen tx inside]
              rcases isOpen : left.hits.opened tx with _ | _ | parent
              · rfl
              · rfl
              · have parentShown : ¬ hidden (some parent) := fun isHidden =>
                  shown (inside ▸ hides tx _ isOpen isHidden)
                simp only [Table.opened_closing, agree.hits.opened parent parentShown]
        exact congrArg (Except.map _) same
    | rollback =>
        have same : (rollback ctx left).1 = (rollback ctx right).1 := by
          cases inside : ctx.tx with
          | none => rw [rollback_outside inside, rollback_outside inside]
          | some tx =>
              rw [sound.rollback_eq inside, otherSound.rollback_eq inside, sameOpen tx inside]
        exact congrArg (Except.map _) same
    | _ => exact absurd rfl call

section Steps

variable {signals : Signals} {ctx : Context} {tx : TxId}

/-- A call in a transaction leaves everything outside of it as it was. -/
theorem agreeOutside_of_call {request : Request ι ε} (call : request.isCall)
    (inside : ctx.tx = some tx) (sound : repository.Sound schema) :
    repository.AgreeOutside (repository.hits.Within tx)
      ((stores schema signals).perform ctx request repository).2 := by
  have edits : Edits schema ctx.tx repository
      ((stores schema signals).perform ctx request repository).2 :=
    along_perform call repository
  rw [inside] at edits
  have inEntities := Table.agreeOutside_of_edits edits.entities .self
  have inHits := Table.agreeOutside_of_edits edits.hits .self
  exact ⟨inEntities.weaken fun _ => (Table.Within.congr_iff sound.paired).mp, inHits, edits.lastTx⟩

/-- A commit into another transaction leaves everything outside of that one as it was. -/
theorem agreeOutside_of_commit {parent : TxId} (inside : ctx.tx = some tx)
    (isOpen : repository.hits.opened tx = some (some parent)) (sound : repository.Sound schema) :
    repository.AgreeOutside (repository.hits.Within parent)
      ((stores schema signals).perform ctx .commit repository).2 := by
  have inEntities := Table.agreeOutside_commit ((sound.paired tx).trans isOpen)
  have inHits := Table.agreeOutside_commit isOpen
  change repository.AgreeOutside _ (Repository.commit ctx repository).2
  rw [sound.commit_eq inside]
  exact ⟨inEntities.weaken fun _ => (Table.Within.congr_iff sound.paired).mp, inHits, rfl⟩

/-- A rollback leaves everything outside of its transaction as it was. -/
theorem agreeOutside_of_rollback (inside : ctx.tx = some tx) (sound : repository.Sound schema) :
    repository.AgreeOutside (repository.hits.Within tx)
      ((stores schema signals).perform ctx .rollback repository).2 := by
  change repository.AgreeOutside _ (Repository.rollback ctx repository).2
  rw [sound.rollback_eq inside]
  have inEntities : repository.entities.AgreeOutside _ (repository.entities.closing tx) :=
    Table.agreeOutside_closing
  exact ⟨inEntities.weaken fun _ => (Table.Within.congr_iff sound.paired).mp,
    Table.agreeOutside_closing, rfl⟩

end Steps

end Repository

end QueryCache
