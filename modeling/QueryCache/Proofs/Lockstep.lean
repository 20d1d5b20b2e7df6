import QueryCache.Proofs.Ledger
import QueryCache.Proofs.Soundness

/-!
# Both tables in lockstep

A repository begins, commits and rolls back in one table after the other, and goes from an open
transaction to the ones around it without counting its steps. Neither goes wrong, because both
tables have the same open transactions in the same places, because a transaction stands in one of a
smaller number, and because no number is given out twice. The last is shown by following the numbers
that are given out along a run (`Repository.Numbers`).
-/

namespace QueryCache

namespace Table

variable {table other : Table} {tx : TxId} {place : Option TxId}

/-- The walk from a transaction outwards: it takes the overlay of the transaction at which it stands
and goes on at the parent of that, until it comes out or meets a transaction that is not open. -/
inductive Walk (table : Table) : Option TxId → Except Error (List Overlay) → Prop
  | outside : Walk table none (.ok [])
  | closed {tx : TxId} (absent : table.overlays[tx]? = none) :
      Walk table (some tx) (.error (finished tx))
  | inside {tx : TxId} {overlay : Overlay} {result : Except Error (List Overlay)}
      (present : table.overlays[tx]? = some overlay) (around : Walk table overlay.parent result) :
      Walk table (some tx) (result.map (overlay :: ·))

/-- Where every transaction stands in an older one the walk ends, with the chain. -/
theorem Ordered.walk_chain (ordered : table.Ordered) (place : Option TxId) :
    table.Walk place (table.chain place) := by
  cases place with
  | none => exact .outside
  | some tx =>
      induction tx using Nat.strongRecOn with
      | ind tx inductionHypothesis =>
          cases present : table.overlays[tx]? with
          | none =>
              rw [chain_of_closed present]
              exact .closed present
          | some overlay =>
              rw [chain_of_open ordered present]
              refine .inside present ?_
              cases nested : overlay.parent with
              | none => exact .outside
              | some parent => exact inductionHypothesis parent (ordered.parent_lt present nested)

/-- A walk ends in the chain or not at all. -/
theorem Walk.eq_chain (ordered : table.Ordered) {result : Except Error (List Overlay)}
    (walk : table.Walk place result) : result = table.chain place := by
  induction walk with
  | outside => rfl
  | closed absent => exact (chain_of_closed absent).symm
  | inside present _ inductionHypothesis =>
      rw [chain_of_open ordered present, inductionHypothesis]

section Outcomes

variable (same : ∀ tx, table.opened tx = other.opened tx)
include same

/-- How a transaction is begun in a table depends on which transactions are open there. -/
theorem begin_fst_congr : (begin tx place table).1 = (begin tx place other).1 := by
  cases place with
  | none => rfl
  | some outer =>
      cases isOpen : other.opened outer with
      | none => rw [begin_of_closed isOpen, begin_of_closed ((same outer).trans isOpen)]
      | some parent =>
          rw [begin_of_open (by simp [same, isOpen]), begin_of_open (by simp [isOpen])]

theorem commit_fst_congr : (commit tx table).1 = (commit tx other).1 := by
  simp only [commit_fst, opened_closing, same]

theorem rollback_fst_congr : (rollback tx table).1 = (rollback tx other).1 := by
  simp only [rollback_eq, same]

end Outcomes

end Table

section Turns

variable {ι ε α : Type}

/-- A turn in which a transaction is asked for. -/
def Turn.begins : Turn ι ε → Bool
  | .request _ _ .begin => true
  | _ => false

/-- The number of the transaction that was begun, if that is the answer. -/
def Answer.begun? : Except Error (Answer ι ε) → Option TxId
  | .ok (.context ctx) => ctx.tx
  | _ => none

theorem Answer.begun?_map {form : α → Answer ι ε}
    (noContext : ∀ value, begun? (.ok (form value)) = none) (result : Except Error α) :
    begun? (result.map form) = none := by
  cases result with
  | error e => rfl
  | ok value => exact noContext value

end Turns

namespace Repository

variable {ι ε : Type} {schema : Schema ι ε} {repository : Repository} {signals : Signals}
  {ctx : Context} {tx : TxId}

/-- The numbers of the transactions that a run begins, in the order in which it does. -/
def begun (schema : Schema ι ε) (run : List (Turn ι ε)) (repository : Repository) : List TxId :=
  (answers (take schema) run repository).filterMap Answer.begun?

/-- What becomes of the numbers of transactions between two repositories: which are given out, and
how often one was asked for. -/
structure Numbers (before : Repository) (numbers : List TxId) (asked : Nat)
    (after : Repository) : Prop where
  lastTx_le : before.lastTx ≤ after.lastTx
  le_lastTx_add : after.lastTx ≤ before.lastTx + asked
  ascending : numbers.Pairwise (· < ·)
  between : ∀ tx ∈ numbers, before.lastTx < tx ∧ tx ≤ after.lastTx
  opened : ∀ tx, (after.hits.opened tx).isSome → (before.hits.opened tx).isSome ∨ tx ∈ numbers

namespace Numbers

variable {before middle after : Repository} {numbers more : List TxId} {asked again : Nat}

theorem refl : Numbers repository [] 0 repository where
  lastTx_le := Nat.le_refl _
  le_lastTx_add := Nat.le_refl _
  ascending := .nil
  between := nofun
  opened _ isOpen := .inl isOpen

theorem trans (first : Numbers before numbers asked middle)
    (second : Numbers middle more again after) :
    Numbers before (numbers ++ more) (asked + again) after where
  lastTx_le := Nat.le_trans first.lastTx_le second.lastTx_le
  le_lastTx_add := by
    calc
      after.lastTx ≤ middle.lastTx + again := second.le_lastTx_add
      _ ≤ before.lastTx + asked + again := Nat.add_le_add_right first.le_lastTx_add again
      _ = before.lastTx + (asked + again) := Nat.add_assoc ..
  ascending := by
    refine List.pairwise_append.mpr ⟨first.ascending, second.ascending, ?_⟩
    intro earlier given later givenLater
    exact Nat.lt_of_le_of_lt (first.between earlier given).2 (second.between later givenLater).1
  between tx given := by
    rcases List.mem_append.mp given with given | given
    · obtain ⟨above, below⟩ := first.between tx given
      exact ⟨above, Nat.le_trans below second.lastTx_le⟩
    · obtain ⟨above, below⟩ := second.between tx given
      exact ⟨Nat.lt_of_le_of_lt first.lastTx_le above, below⟩
  opened tx isOpen := by
    rcases second.opened tx isOpen with wasOpen | given
    · exact (first.opened tx wasOpen).imp_right (List.mem_append_left more)
    · exact .inr (List.mem_append_right numbers given)

/-- What opens nothing gives out no number. -/
theorem of_opened (lastTx_le : before.lastTx ≤ after.lastTx)
    (le_lastTx_add : after.lastTx ≤ before.lastTx + asked)
    (opened : ∀ tx, (after.hits.opened tx).isSome → (before.hits.opened tx).isSome) :
    Numbers before [] asked after where
  lastTx_le := lastTx_le
  le_lastTx_add := le_lastTx_add
  ascending := .nil
  between := nofun
  opened tx isOpen := .inl (opened tx isOpen)

theorem ended {entities hits : Table} (opened : ∀ other, hits.opened other =
      if other = tx then none else repository.hits.opened other) :
    Numbers repository [] 0 { repository with entities, hits } := by
  refine .of_opened (Nat.le_refl _) (Nat.le_refl _) fun other isOpen => ?_
  rw [opened] at isOpen
  split at isOpen
  · cases isOpen
  · exact isOpen

/-- A number that is out is not given out again, and what it named is not opened again. -/
theorem closed (numbers : Numbers before more asked after) (out : tx ≤ before.lastTx)
    (wasClosed : before.hits.opened tx = none) : after.hits.opened tx = none := by
  rw [← Option.not_isSome_iff_eq_none]
  intro isOpen
  rcases numbers.opened tx isOpen with wasOpen | given
  · rw [wasClosed] at wasOpen
    cases wasOpen
  · exact Nat.not_le_of_lt (numbers.between tx given).1 out

end Numbers

theorem begun?_take_of_not_begins {turn : Turn ι ε} (other : turn.begins = false) :
    Answer.begun? (take schema turn repository).1 = none := by
  cases turn with
  | failEntities failure => rfl
  | failHits failure => rfl
  | request signals ctx request =>
      cases request with
      | begin => cases other
      | _ => exact Answer.begun?_map (fun _ => rfl) _

namespace Sound

variable (sound : repository.Sound schema)
include sound

theorem numbers_begin (signals : Signals) (ctx : Context) :
    let ended := Repository.take schema (.request signals ctx .begin) repository
    Numbers repository (Answer.begun? ended.1).toList 1 ended.2 := by
  change Numbers repository
    (Answer.begun? ((Repository.begin signals ctx repository).1.map _)).toList 1
    (Repository.begin signals ctx repository).2
  rcases sound.begin_cases signals ctx with ⟨e, ended⟩ | ⟨e, closed⟩ | ⟨-, begun⟩
  · rw [ended]
    exact .of_opened (Nat.le_refl _) (Nat.le_succ _) fun _ isOpen => isOpen
  · rw [closed]
    exact .of_opened (Nat.le_succ _) (Nat.le_refl _) fun _ isOpen => isOpen
  · rw [begun]
    refine ⟨Nat.le_succ _, Nat.le_refl _, List.pairwise_singleton _ _, ?_, fun tx isOpen => ?_⟩
    · intro tx given
      cases List.mem_singleton.mp given
      exact ⟨Nat.lt_succ_self _, Nat.le_refl _⟩
    · rw [Repository.opening, Table.opened_opening] at isOpen
      split at isOpen
      · rename_i newest
        exact .inr (List.mem_singleton.mpr newest)
      · exact .inl isOpen

/-- Whatever is done but to begin a transaction gives out no number. -/
theorem numbers_of_not_begins {turn : Turn ι ε} (other : turn.begins = false) :
    Numbers repository [] 0 (Repository.take schema turn repository).2 := by
  cases turn with
  | failEntities failure => exact .of_opened (Nat.le_refl _) (Nat.le_refl _) fun _ => id
  | failHits failure => exact .of_opened (Nat.le_refl _) (Nat.le_refl _) fun _ => id
  | request signals ctx request =>
      by_cases call : request.isCall
      · have edits : Edits schema ctx.tx repository
            ((stores schema signals).perform ctx request repository).2 :=
          along_perform call repository
        have lastTx := Nat.le_of_eq edits.lastTx
        refine .of_opened (Nat.le_of_eq edits.lastTx.symm) lastTx fun tx isOpen => ?_
        exact (edits.hits.frame tx).opened tx (Nat.le_refl tx) ▸ isOpen
      · cases request with
        | begin => cases other
        | commit =>
            change Numbers repository [] 0 (Repository.commit ctx repository).2
            cases inside : ctx.tx with
            | none =>
                rw [commit_outside inside]
                exact .refl
            | some tx =>
                rw [sound.commit_eq inside]
                exact .ended Table.opened_commit
        | rollback =>
            change Numbers repository [] 0 (Repository.rollback ctx repository).2
            cases inside : ctx.tx with
            | none =>
                rw [rollback_outside inside]
                exact .refl
            | some tx =>
                rw [sound.rollback_eq inside]
                exact .ended Table.opened_closing
        | _ => exact absurd rfl call

/-- A turn gives out a number if it asks for one and begins a transaction, and otherwise none. -/
theorem numbers_take (turn : Turn ι ε) :
    Numbers repository (Answer.begun? (Repository.take schema turn repository).1).toList
      turn.begins.toNat (Repository.take schema turn repository).2 := by
  cases begins : turn.begins with
  | false =>
      rw [begun?_take_of_not_begins begins]
      exact sound.numbers_of_not_begins begins
  | true =>
      unfold Turn.begins at begins
      split at begins
      · exact sound.numbers_begin _ _
      · cases begins

end Sound

/-- The numbers that a run gives out. -/
theorem Sound.numbers_after (sound : repository.Sound schema) (run : List (Turn ι ε)) :
    Numbers repository (begun schema run repository) (run.countP Turn.begins)
      (Repository.after schema run repository) := by
  induction run generalizing repository with
  | nil => exact .refl
  | cons turn run inductionHypothesis =>
      have step := sound.numbers_take turn
      have rest := inductionHypothesis (sound.take turn)
      have given : begun schema (turn :: run) repository =
          (Answer.begun? (Repository.take schema turn repository).1).toList ++
            begun schema run (Repository.take schema turn repository).2 := by
        rw [begun, answers, List.filterMap_cons]
        cases Answer.begun? (Repository.take schema turn repository).1 <;> rfl
      have asked : (turn :: run).countP Turn.begins =
          turn.begins.toNat + run.countP Turn.begins := by
        rw [List.countP_cons, Nat.add_comm]
        cases turn.begins <;> rfl
      rw [given, asked]
      exact step.trans rest

section Outcomes

variable (sound : repository.Sound schema) {table : Table}
  (same : ∀ tx, table.opened tx = repository.hits.opened tx)
include sound same

/-- A transaction is begun as a table with the open transactions of the repository begins it. -/
theorem Sound.begin_fst_eq_table (live : ctx.check signals = .ok ()) :
    (Repository.begin signals ctx repository).1 =
      (Table.begin (repository.lastTx + 1) ctx.tx table).1.map fun () =>
        ctx.withTx (repository.lastTx + 1) := by
  rw [Table.begin_fst_congr same]
  by_cases parentOpen : ∀ outer, ctx.tx = some outer → (repository.hits.opened outer).isSome
  · have inEntities outer (inside : ctx.tx = some outer) :
        (repository.entities.opened outer).isSome := by
      rw [sound.paired]
      exact parentOpen outer inside
    rw [begin_of_open live inEntities parentOpen, Table.begin_of_open parentOpen]
    rfl
  · obtain ⟨outer, failed⟩ := Classical.not_forall.mp parentOpen
    obtain ⟨inside, closed⟩ := Classical.not_imp.mp failed
    rw [Option.not_isSome_iff_eq_none] at closed
    rw [begin_of_closed live inside ((sound.paired outer).trans closed), inside,
      Table.begin_of_closed closed]
    rfl

theorem Sound.commit_fst_eq_table (inside : ctx.tx = some tx) :
    (Repository.commit ctx repository).1 = (Table.commit tx table).1 := by
  rw [sound.commit_eq inside, Table.commit_fst_congr same]

theorem Sound.rollback_fst_eq_table (inside : ctx.tx = some tx) :
    (Repository.rollback ctx repository).1 = (Table.rollback tx table).1 := by
  rw [sound.rollback_eq inside, Table.rollback_fst_congr same, Table.rollback_eq]

end Outcomes

section Leavings

variable (sound : repository.Sound schema)
include sound

/-- What beginning a transaction leaves is what it leaves of each table, and a number used up. -/
theorem Sound.begin_snd_eq_tables (live : ctx.check signals = .ok ()) :
    (Repository.begin signals ctx repository).2 =
      { entities := (Table.begin (repository.lastTx + 1) ctx.tx repository.entities).2
        hits := (Table.begin (repository.lastTx + 1) ctx.tx repository.hits).2
        lastTx := repository.lastTx + 1 } := by
  by_cases parentOpen : ∀ outer, ctx.tx = some outer → (repository.hits.opened outer).isSome
  · have inEntities outer (inside : ctx.tx = some outer) :
        (repository.entities.opened outer).isSome := by
      rw [sound.paired]
      exact parentOpen outer inside
    rw [begin_of_open live inEntities parentOpen, Table.begin_of_open inEntities,
      Table.begin_of_open parentOpen, Repository.opening]
  · obtain ⟨outer, failed⟩ := Classical.not_forall.mp parentOpen
    obtain ⟨inside, closed⟩ := Classical.not_imp.mp failed
    rw [Option.not_isSome_iff_eq_none] at closed
    have inEntities := (sound.paired outer).trans closed
    rw [begin_of_closed live inside inEntities, inside, Table.begin_of_closed inEntities,
      Table.begin_of_closed closed]

theorem Sound.commit_snd_eq_tables (inside : ctx.tx = some tx) :
    (Repository.commit ctx repository).2 =
      { repository with
        entities := (Table.commit tx repository.entities).2
        hits := (Table.commit tx repository.hits).2 } := by
  rw [sound.commit_eq inside]

theorem Sound.rollback_snd_eq_tables (inside : ctx.tx = some tx) :
    (Repository.rollback ctx repository).2 =
      { repository with
        entities := (Table.rollback tx repository.entities).2
        hits := (Table.rollback tx repository.hits).2 } := by
  rw [sound.rollback_eq inside, Table.rollback_eq, Table.rollback_eq]

end Leavings

/-- **Both tables stay in lockstep.** After any run, whatever contexts it was made in, the same
transactions are open in both tables, in the same places. None has a number above the last one, and
each stands in one of a smaller number. Numbers are given out in ascending order, at most one for
each time one is asked for; what is open has one of them, and what is closed is never opened again.
So the walk outwards ends from every place, and beginning, committing and rolling back end in either
table as they end in the repository. What they leave of the repository is what they leave of both
tables: they are carried out in both or in none, and a context that is at its end or stands outside
of transactions touches neither. -/
theorem tables_in_lockstep (schema : Schema ι ε) (run : List (Turn ι ε)) :
    let repository := after schema run .empty
    let numbers := begun schema run .empty
    (∀ tx, repository.entities.opened tx = repository.hits.opened tx) ∧
      (∀ tx, (repository.hits.opened tx).isSome → tx ≤ repository.lastTx) ∧
      (∀ tx parent, repository.hits.opened tx = some (some parent) → parent < tx) ∧
      numbers.Pairwise (· < ·) ∧ (∀ tx ∈ numbers, 0 < tx ∧ tx ≤ repository.lastTx) ∧
      repository.lastTx ≤ run.countP Turn.begins ∧
      (∀ tx, (repository.hits.opened tx).isSome → tx ∈ numbers) ∧
      (∀ tx ≤ repository.lastTx, repository.hits.opened tx = none →
        ∀ later, (after schema later repository).hits.opened tx = none) ∧
      (∀ table ∈ [repository.entities, repository.hits],
        (∀ place, table.Walk place (table.chain place)) ∧
        (∀ place result, table.Walk place result → result = table.chain place) ∧
        ∀ signals ctx,
          (ctx.check signals = .ok () →
            (begin signals ctx repository).1 =
              (Table.begin (repository.lastTx + 1) ctx.tx table).1.map fun () =>
                ctx.withTx (repository.lastTx + 1)) ∧
          ∀ tx, ctx.tx = some tx →
            (commit ctx repository).1 = (Table.commit tx table).1 ∧
            (rollback ctx repository).1 = (Table.rollback tx table).1) ∧
      ∀ signals ctx,
        (ctx.check signals = .ok () →
          (begin signals ctx repository).2 =
            { entities := (Table.begin (repository.lastTx + 1) ctx.tx repository.entities).2
              hits := (Table.begin (repository.lastTx + 1) ctx.tx repository.hits).2
              lastTx := repository.lastTx + 1 }) ∧
        (∀ e, ctx.check signals = .error e →
          begin signals ctx repository = (.error e, repository)) ∧
        (∀ tx, ctx.tx = some tx →
          (commit ctx repository).2 =
            { repository with
              entities := (Table.commit tx repository.entities).2
              hits := (Table.commit tx repository.hits).2 } ∧
          (rollback ctx repository).2 =
            { repository with
              entities := (Table.rollback tx repository.entities).2
              hits := (Table.rollback tx repository.hits).2 }) ∧
        (ctx.tx = none →
          (commit ctx repository).2 = repository ∧ (rollback ctx repository).2 = repository) := by
  intro repository numbers
  have reachable : repository.Reachable schema := ⟨run, rfl⟩
  have sound := reachable.sound
  have start : Sound schema .empty := Sound.empty
  have given := start.numbers_after run
  have fewer : repository.lastTx ≤ run.countP Turn.begins :=
    Nat.le_trans given.le_lastTx_add (Nat.le_of_eq (Nat.zero_add _))
  refine ⟨sound.paired, sound.le_lastTx, sound.ordered, given.ascending, given.between, fewer,
    fun tx isOpen => ?_, fun tx out closed later => ?_, fun table member => ?_,
    fun signals ctx => ⟨sound.begin_snd_eq_tables, fun e => begin_of_ended, fun tx inside => ?_,
      fun outside => ?_⟩⟩
  · refine (given.opened tx isOpen).resolve_left fun wasOpen => ?_
    simp [empty, Table.empty, Table.opened] at wasOpen
  · exact (sound.numbers_after later).closed out closed
  · have same tx : table.opened tx = repository.hits.opened tx := by
      simp only [List.mem_cons, List.not_mem_nil, or_false] at member
      rcases member with rfl | rfl
      · exact sound.paired tx
      · rfl
    have ordered : table.Ordered := fun tx parent isOpen =>
      sound.ordered tx parent ((same tx).symm.trans isOpen)
    refine ⟨ordered.walk_chain, fun place result => Table.Walk.eq_chain ordered,
      fun signals ctx => ⟨sound.begin_fst_eq_table same, fun tx inside => ?_⟩⟩
    exact ⟨sound.commit_fst_eq_table same inside, sound.rollback_fst_eq_table same inside⟩
  · exact ⟨sound.commit_snd_eq_tables inside, sound.rollback_snd_eq_tables inside⟩
  · rw [commit_outside outside, rollback_outside outside]
    exact ⟨rfl, rfl⟩

end Repository

end QueryCache
