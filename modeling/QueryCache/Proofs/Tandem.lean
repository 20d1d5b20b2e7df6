import QueryCache.Proofs.Correspondence
import QueryCache.Proofs.Depth
import QueryCache.Proofs.Revisions
import QueryCache.Proofs.Similarity

/-!
# The same work in two places

A backend is direct if every request is made of the repository as it is, and smooth if moreover
everything else that the cache uses leaves the repository alone and takes no notice of transactions.
There, the same work can be done in two contexts that differ in their transactions at most: where
both see the same, all calls but scans end alike, transactions open and end alike in both, and both
see the same again; and so do scans, if they list hits in the same orders.

What keeps this up through nested transactions is that the work of either context stays within its
own transaction, counted from where that was opened (`Stands`).
-/

namespace QueryCache

open QueryCache.Action

/-- Two contexts that differ in their transactions at most. -/
structure Context.Peers (left right : Context) : Prop where
  token : left.token = right.token
  deadline : left.deadline = right.deadline

namespace Context.Peers

variable {left right : Context}

theorem refl (ctx : Context) : ctx.Peers ctx := ⟨rfl, rfl⟩

theorem withTx (peers : left.Peers right) (tx other : TxId) :
    (left.withTx tx).Peers (right.withTx other) :=
  ⟨peers.token, peers.deadline⟩

theorem check (peers : left.Peers right) (signals : Signals) :
    left.check signals = right.check signals := by
  obtain ⟨token, deadline, tx⟩ := left
  obtain ⟨token', deadline', tx'⟩ := right
  obtain ⟨rfl, rfl⟩ := peers
  rfl

end Context.Peers

/-- The context of the next transaction that is begun in a repository. -/
abbrev Context.inside (ctx : Context) (repository : Repository) : Context :=
  ctx.withTx (repository.lastTx + 1)

namespace Table

/-- Two tables fail alike, and one shows in its place what the other shows in its own. -/
structure ShowAlike (place place' : Option TxId) (left right : Table) : Prop where
  ordered : left.Ordered
  ordered' : right.Ordered
  failure : left.failure = right.failure
  view : ∃ rows, left.view place = .ok rows ∧ right.view place' = .ok rows

section ShowAlike

variable {place place' : Option TxId} {left right : Table}

/-- Edits that do the same to what shows are alike. -/
theorem simulates_edits {action action' : Action Table Unit}
    (edits : action.Along (Entities.Edits place)) (edits' : action'.Along (Entities.Edits place'))
    (act : Rows → Rows)
    (acts : ∀ table rows, table.Ordered → table.view place = .ok rows →
      (action table).1 = .ok () ∧ (action table).2.view place = .ok (act rows))
    (acts' : ∀ table rows, table.Ordered → table.view place' = .ok rows →
      (action' table).1 = .ok () ∧ (action' table).2.view place' = .ok (act rows)) :
    Simulates (ShowAlike place place') action action' := by
  rintro left right ⟨ordered, ordered', failure, rows, view, view'⟩
  obtain ⟨succeeds, later⟩ := acts left rows ordered view
  obtain ⟨succeeds', later'⟩ := acts' right rows ordered' view'
  refine ⟨succeeds.trans succeeds'.symm, (edits left).ordered ordered,
    (edits' right).ordered ordered', ?_, act rows, later, later'⟩
  rw [((edits left).frame 0).failure, ((edits' right).frame 0).failure, failure]

theorem corresponds_showAlike {ctx ctx' : Context} (peers : ctx.Peers ctx') (signals : Signals) :
    Corresponds (ShowAlike ctx.tx ctx'.tx) signals ctx ctx' where
  precheck left right alike := by
    rw [Table.precheck, Table.precheck, peers.check, alike.failure]
  view left right alike := by
    obtain ⟨rows, view, view'⟩ := alike.view
    rw [view, view']
  set key change := simulates_edits (along_set trivial) (along_set trivial)
    (fun rows => rows.change key change)
    (fun _ _ ordered shown => view_set ordered shown key change)
    fun _ _ ordered shown => view_set ordered shown key change
  clear := simulates_edits along_clear along_clear (fun _ => ∅)
    (fun _ _ ordered shown => view_clear ordered shown)
    fun _ _ ordered shown => view_clear ordered shown

end ShowAlike

end Table

namespace Repository

variable {ι ε : Type} {schema : Schema ι ε} {ctx : Context} {base repository inner : Repository}
  {view later : View}

/-- Around a place where something is seen, everything is open. -/
theorem Sound.opened_of_seen (sound : repository.Sound schema) {place : Option TxId}
    (seen : repository.seen place = .ok view) :
    ∀ outer, place = some outer → (repository.hits.opened outer).isSome := by
  rintro outer rfl
  have isOpen := (exists_seen_iff sound).mp ⟨view, seen⟩
  cases isOpen with
  | inside opened _ => rw [opened]; rfl

/-- Work in the transaction of a context has led from a base to where the context sees a view. -/
structure Stands (schema : Schema ι ε) (ctx : Context) (base : Repository) (view : View)
    (repository : Repository) : Prop where
  guided : Guided schema False ctx.tx base repository
  seen : repository.seen ctx.tx = .ok view

namespace Stands

theorem sound (stands : Stands schema ctx base view repository) : repository.Sound schema :=
  stands.guided.sound

theorem of_sound (sound : repository.Sound schema) (seen : repository.seen ctx.tx = .ok view) :
    Stands schema ctx repository view repository :=
  ⟨.refl sound, seen⟩

/-- A new transaction starts from where it was opened, and shows the same. -/
theorem opening (stands : Stands schema ctx base view repository) :
    Stands schema (ctx.inside repository) (repository.opening ctx.tx) view
      (repository.opening ctx.tx) := by
  have sound : (repository.opening ctx.tx).Sound schema :=
    stands.sound.opening (stands.sound.opened_of_seen stands.seen)
  exact .of_sound sound ((seen_opening stands.sound sound).trans stands.seen)

/-- Work from one base that led to where the same is seen left the same committed. -/
theorem committed_eq {other : Repository} (stands : Stands schema ctx base view repository)
    (standsOther : Stands schema ctx base view other) : repository.committed = other.committed := by
  obtain ⟨⟨-, frame, -⟩, seen⟩ := stands
  obtain ⟨⟨-, frame', -⟩, seen'⟩ := standsOther
  cases place : ctx.tx with
  | none =>
      rw [place, seen_outside] at seen seen'
      exact Except.ok.inj (seen.trans seen'.symm)
  | some tx =>
      have inside : ctx.tx ≠ none := by simp [place]
      rw [committed, committed, frame.hits.rows inside, frame.entities.rows inside,
        frame'.hits.rows inside, frame'.entities.rows inside]

end Stands

end Repository

section Layout

variable {σ τ ρ ι ε α : Type}

/-- The orders in which scans are to list hits, one after the other. -/
abbrev Orders := Nat → Listing

/-- The orders that a request leaves: a scan uses up the first one. -/
def Request.leaves (request : Request ι ε) (orders : Orders) : Orders :=
  if request.scans then fun scan => orders (scan + 1) else orders

/-- What a state is made up of: a repository, the orders in which it is to list hits, and the rest.
-/
structure Layout (σ ρ : Type) where
  part : σ → Repository
  orders : σ → Orders
  rest : σ → ρ

/-- At most the rest is another one. -/
structure Layout.Keeps (layout : Layout σ ρ) (s u : σ) : Prop where
  part : layout.part u = layout.part s
  orders : layout.orders u = layout.orders s

theorem Layout.Keeps.trans {layout : Layout σ ρ} {s u v : σ} (first : layout.Keeps s u)
    (second : layout.Keeps u v) : layout.Keeps s v :=
  ⟨second.part.trans first.part, second.orders.trans first.orders⟩

/-- Two steps leave the repositories and the orders alone, and what they tell and do to the rest of
a state depends on the rest only, and in the same way. -/
def Aside (left : Layout σ ρ) (right : Layout τ ρ) (step : σ → α × σ) (step' : τ → α × τ) : Prop :=
  ∀ s t, left.rest s = right.rest t →
    (step s).1 = (step' t).1 ∧ left.rest (step s).2 = right.rest (step' t).2 ∧
      left.Keeps s (step s).2 ∧ right.Keeps t (step' t).2

/-- A source takes no notice of the repository and of transactions. -/
structure Origin.Aside (layout : Layout σ ρ) (source : Origin σ ι ε) : Prop where
  findById : ∀ {ctx ctx' : Context}, ctx.Peers ctx' → ∀ id,
    QueryCache.Aside layout layout (source.findById ctx id) (source.findById ctx' id)
  create : ∀ create ∈ source.create, ∀ {ctx ctx' : Context}, ctx.Peers ctx' → ∀ entity,
    QueryCache.Aside layout layout (create ctx entity) (create ctx' entity)
  update : ∀ update ∈ source.update, ∀ {ctx ctx' : Context}, ctx.Peers ctx' → ∀ entity,
    QueryCache.Aside layout layout (update ctx entity) (update ctx' entity)
  deleteById : ∀ delete ∈ source.deleteById, ∀ {ctx ctx' : Context}, ctx.Peers ctx' → ∀ id,
    QueryCache.Aside layout layout (delete ctx id) (delete ctx' id)
  deleteAll : ∀ delete ∈ source.deleteAll, ∀ {ctx ctx' : Context}, ctx.Peers ctx' →
    QueryCache.Aside layout layout (delete ctx) (delete ctx')
  findAll : ∀ findAll ∈ source.findAll, ∀ {ctx ctx' : Context}, ctx.Peers ctx' →
    QueryCache.Aside layout layout (findAll ctx) (findAll ctx')

/-- A backend that makes every request of its repository, under the signals that the rest of the
state shows and, if it is a scan, in the first of the orders. Invalidations may nest as deeply as
there are hits to see. -/
structure Backend.Direct (backend : Backend σ ι ε) (layout : Layout σ ρ) (signals : ρ → Signals) :
    Prop where
  request : ∀ ctx request s,
    let listing := layout.orders s 0
    let direct := (Repository.storesIn backend.schema listing (signals (layout.rest s))).perform
      ctx request (layout.part s)
    (backend.stores.perform ctx request s).1 = direct.1 ∧
      layout.part (backend.stores.perform ctx request s).2 = direct.2 ∧
      layout.orders (backend.stores.perform ctx request s).2 = request.leaves (layout.orders s) ∧
      layout.rest (backend.stores.perform ctx request s).2 = layout.rest s
  check : ∀ ctx s, backend.check ctx s = (ctx.check (signals (layout.rest s)), s)
  /-- What is recorded does not belong to the rest. -/
  record : ∀ event s, (backend.record event s).1 = .ok () ∧
    layout.rest (backend.record event s).2 = layout.rest s ∧
    layout.Keeps s (backend.record event s).2
  nesting : ∀ s place view, (layout.part s).Sound backend.schema →
    (layout.part s).seen place = .ok view → view.hits.size < backend.nesting s

/-- A direct backend the other parts of which leave the repository alone. -/
structure Backend.Smooth (backend : Backend σ ι ε) (layout : Layout σ ρ)
    (signals : ρ → Signals) : Prop extends backend.Direct layout signals where
  now : Aside layout layout backend.now backend.now
  source : backend.source.Aside layout

namespace Backend.Direct

open Repository

variable {backend : Backend σ ι ε} {layout : Layout σ ρ} {signals : ρ → Signals}
  (direct : backend.Direct layout signals) {ctx : Context} {s u : σ} {base : Repository}
  {view later : View}
include direct

theorem acts (ctx : Context) (request : Request ι ε) (s : σ) :
    backend.Acts layout.part ctx request s :=
  ⟨layout.orders s 0, signals (layout.rest s), (direct.request ctx request s).1,
    (direct.request ctx request s).2.1⟩

theorem hindered : backend.Hindered layout.part where
  request ctx request s := .inr (direct.acts ctx request s)
  check ctx s := by rw [direct.check]
  record event s := (direct.record event s).2.2.part

theorem rest_commit : layout.rest (backend.commit ctx s).2 = layout.rest s :=
  (direct.request ctx .commit s).2.2.2

theorem rest_rollback : layout.rest (backend.rollback ctx s).2 = layout.rest s :=
  (direct.request ctx .rollback s).2.2.2

theorem orders_begin : layout.orders (backend.begin ctx s).2 = layout.orders s :=
  (direct.request ctx .begin s).2.2.1

theorem orders_commit : layout.orders (backend.commit ctx s).2 = layout.orders s :=
  (direct.request ctx .commit s).2.2.1

theorem orders_rollback : layout.orders (backend.rollback ctx s).2 = layout.orders s :=
  (direct.request ctx .rollback s).2.2.1

theorem begin_eq (ctx : Context) (s : σ) :
    (backend.begin ctx s).1 =
        (Repository.begin (signals (layout.rest s)) ctx (layout.part s)).1 ∧
      layout.part (backend.begin ctx s).2 =
        (Repository.begin (signals (layout.rest s)) ctx (layout.part s)).2 ∧
      layout.rest (backend.begin ctx s).2 = layout.rest s := by
  obtain ⟨outcome, left, -, same⟩ := direct.request ctx .begin s
  exact ⟨eq_of_map_eq (fun _ _ equal => Answer.context.inj equal) outcome, left, same⟩

theorem begin_of_ended {e : Error} (ended : ctx.check (signals (layout.rest s)) = .error e) :
    (backend.begin ctx s).1 = .error e ∧ layout.part (backend.begin ctx s).2 = layout.part s ∧
      layout.rest (backend.begin ctx s).2 = layout.rest s := by
  have same := direct.begin_eq ctx s
  rw [Repository.begin_of_ended ended] at same
  exact same

/-- A live context that sees something begins a transaction. -/
theorem begin_of_stands (stands : Stands backend.schema ctx base view (layout.part s))
    (live : ctx.check (signals (layout.rest s)) = .ok ()) :
    (backend.begin ctx s).1 = .ok (ctx.inside (layout.part s)) ∧
      layout.part (backend.begin ctx s).2 = (layout.part s).opening ctx.tx ∧
      layout.rest (backend.begin ctx s).2 = layout.rest s := by
  have hitsOpen := stands.sound.opened_of_seen stands.seen
  have begun := begin_of_open live
    (fun outer place => by rw [stands.sound.paired]; exact hitsOpen outer place) hitsOpen
  have same := direct.begin_eq ctx s
  rw [begun] at same
  exact same

/-- A call of a store goes on with the work in the transaction of its context. -/
theorem guided_call (stands : Stands backend.schema ctx base view (layout.part s))
    {request : Request ι ε} (isCall : request.isCall) :
    Guided backend.schema False ctx.tx base
      (layout.part (backend.stores.perform ctx request s).2) := by
  have along : (backend.stores.perform ctx request).Along
      (backend.Stays layout.part False ctx.tx) := direct.hindered.along_call request isCall
  exact stands.guided.trans (along s stands.sound)

omit direct in
/-- Work in a transaction of its own has come to its end. -/
theorem atEnd_of_stands (stands : Stands backend.schema ctx base view (layout.part s))
    (inner : Stands backend.schema (ctx.inside (layout.part s)) ((layout.part s).opening ctx.tx)
      later (layout.part u)) :
    backend.AtEnd layout.part False (layout.part s) (ctx.inside (layout.part s))
      ((layout.part s).lastTx + 1) ctx.tx u :=
  .of_guided stands.sound (stands.sound.opened_of_seen stands.seen) inner.guided ctx

/-- What a transaction came to see, the context around it sees when it is committed. -/
theorem commit_of_stands (stands : Stands backend.schema ctx base view (layout.part s))
    (inner : Stands backend.schema (ctx.inside (layout.part s)) ((layout.part s).opening ctx.tx)
      later (layout.part u)) :
    (backend.commit (ctx.inside (layout.part s)) u).1 = .ok () ∧
      Stands backend.schema ctx base later
        (layout.part (backend.commit (ctx.inside (layout.part s)) u).2) := by
  have atEnd := atEnd_of_stands stands inner
  have acts := direct.acts (ctx.inside (layout.part s)) .commit u
  obtain ⟨guided, succeeds⟩ := atEnd.settled_commit acts
  refine ⟨succeeds, stands.guided.trans guided, ?_⟩
  rw [acts.commit.2, atEnd.commit_eq]
  exact seen_commit inner.sound atEnd.isOpen inner.seen

/-- When a transaction is rolled back, the context around it sees what it saw before. -/
theorem rollback_of_stands (stands : Stands backend.schema ctx base view (layout.part s))
    (inner : Stands backend.schema (ctx.inside (layout.part s)) ((layout.part s).opening ctx.tx)
      later (layout.part u)) :
    (backend.rollback (ctx.inside (layout.part s)) u).1 = .ok () ∧
      (layout.part s).Untouched (layout.part (backend.rollback (ctx.inside (layout.part s)) u).2) ∧
      Stands backend.schema ctx base view
        (layout.part (backend.rollback (ctx.inside (layout.part s)) u).2) := by
  have atEnd := atEnd_of_stands stands inner
  have acts := direct.acts (ctx.inside (layout.part s)) .rollback u
  obtain ⟨guided, untouched⟩ := atEnd.guided_rollback acts ctx.tx
  obtain ⟨⟨sound, frame, -⟩, -⟩ :=
    atEnd.guided_rollback acts (some ((layout.part s).lastTx + 1))
  refine ⟨?_, untouched, stands.guided.trans guided, ?_⟩
  · rw [acts.rollback.1, inner.sound.rollback_eq atEnd.inside, atEnd.isOpen]
    rfl
  · have older outer (place : ctx.tx = some outer) : outer ≤ (layout.part s).lastTx :=
      stands.sound.le_lastTx outer (stands.sound.opened_of_seen stands.seen outer place)
    obtain ⟨hits, copies⟩ := seen_eq_ok.mp stands.seen
    rw [seen_eq_ok, ← hits, ← copies]
    exact ⟨frame.hits.view_eq stands.sound.ordered sound.ordered (Nat.lt_succ_self _) older,
      frame.entities.view_eq stands.sound.entitiesOrdered sound.entitiesOrdered
        (Nat.lt_succ_self _) older⟩

/-- A context sees no more hits than invalidations may nest. -/
theorem nestsWithin [DecidableEq ι]
    (stands : Stands backend.schema ctx base view (layout.part s)) :
    backend.NestsWithin ctx (view.hits.size + 1) s := by
  have enough := direct.nesting s ctx.tx view stands.sound stands.seen
  constructor
  · intro queryId
    exact direct.hindered.hitWithin_eq stands.sound stands.seen enough (Nat.lt_succ_self _) queryId
  · intro id
    exact direct.hindered.entityWithin_eq stands.sound stands.seen enough (Nat.lt_succ_self _) id

end Backend.Direct

/-- Two places at which the same work is done: a context each, and a repository each from which the
work started. The contexts differ in their transactions at most, and where the work started, the
tables failed alike. -/
structure Tandem where
  here : Context
  there : Context
  hereBase : Repository
  thereBase : Repository
  peers : here.Peers there
  hitFailure : hereBase.hits.failure = thereBase.hits.failure
  entityFailure : hereBase.entities.failure = thereBase.entities.failure

/-- The rest of both states is the same, and at either place the work has come to where the context
sees the same. -/
structure Tandem.Level (k : Tandem) (schema : Schema ι ε) (left : Layout σ ρ) (right : Layout τ ρ)
    (s : σ) (t : τ) : Prop where
  rest : left.rest s = right.rest t
  stands : ∃ view, Repository.Stands schema k.here k.hereBase view (left.part s) ∧
    Repository.Stands schema k.there k.thereBase view (right.part t)

/-- Moreover, the orders of the scans to come agree. -/
structure Tandem.Abreast (k : Tandem) (agree : Orders → Orders → Prop) (schema : Schema ι ε)
    (left : Layout σ ρ) (right : Layout τ ρ) (s : σ) (t : τ) : Prop
    extends k.Level schema left right s t where
  orders : agree (left.orders s) (right.orders t)

/-- The places of the transactions that are begun at both places next. -/
def Tandem.inside (k : Tandem) (left right : Repository)
    (hitFailure : left.hits.failure = right.hits.failure)
    (entityFailure : left.entities.failure = right.entities.failure) : Tandem where
  here := k.here.inside left
  there := k.there.inside right
  hereBase := left.opening k.here.tx
  thereBase := right.opening k.there.tx
  peers := k.peers.withTx _ _
  hitFailure := hitFailure
  entityFailure := entityFailure

section Level

open Repository

variable {k : Tandem} {backend : Backend σ ι ε} {other : Backend τ ι ε} {left : Layout σ ρ}
  {right : Layout τ ρ} {agree : Orders → Orders → Prop} {signals : ρ → Signals} {s : σ} {t : τ}
  {view : View}

/-- What is done aside keeps both places level. -/
theorem Aside.level {step : σ → α × σ} {step' : τ → α × τ} (aside : Aside left right step step')
    {schema : Schema ι ε} (level : k.Level schema left right s t) :
    (step s).1 = (step' t).1 ∧ k.Level schema left right (step s).2 (step' t).2 := by
  obtain ⟨told, sameRest, kept, kept'⟩ := aside s t level.rest
  refine ⟨told, sameRest, ?_⟩
  rw [kept.part, kept'.part]
  exact level.stands

/-- It keeps them abreast as well. -/
theorem Aside.abreast {step : σ → α × σ} {step' : τ → α × τ} (aside : Aside left right step step')
    (schema : Schema ι ε) :
    TellAlike (k.Abreast agree schema left right) (k.Abreast agree schema left right) step
      step' := by
  intro s t abreast
  obtain ⟨told, level⟩ := aside.level abreast.toLevel
  obtain ⟨-, -, kept, kept'⟩ := aside s t abreast.rest
  refine ⟨told, level, ?_⟩
  rw [kept.orders, kept'.orders]
  exact abreast.orders

/-- At places that are level, the tables show and fail alike. -/
theorem Tandem.related {schema : Schema ι ε} {left right : Repository}
    (here : Stands schema k.here k.hereBase view left)
    (there : Stands schema k.there k.thereBase view right) :
    Related (Table.ShowAlike k.here.tx k.there.tx) (Table.ShowAlike k.here.tx k.there.tx)
      (fun _ _ => True) left right := by
  obtain ⟨hits, copies⟩ := seen_eq_ok.mp here.seen
  obtain ⟨hits', copies'⟩ := seen_eq_ok.mp there.seen
  have frame := here.guided.frame
  have frame' := there.guided.frame
  refine ⟨⟨here.sound.entitiesOrdered, there.sound.entitiesOrdered, ?_, _, copies, copies'⟩,
    ⟨here.sound.ordered, there.sound.ordered, ?_, _, hits, hits'⟩, trivial⟩
  · rw [frame.entities.failure, frame'.entities.failure, k.entityFailure]
  · rw [frame.hits.failure, frame'.hits.failure, k.hitFailure]

namespace Backend.Direct

variable (direct : backend.Direct left signals) (direct' : other.Direct right signals)
  (same : other.schema = backend.schema)
include direct direct' same

/-- A call of a store ends alike at places that are level, if a scan lists hits in the same order at
both, and keeps them level. -/
theorem call_level {request : Request ι ε} (isCall : request.isCall)
    (level : k.Level backend.schema left right s t)
    (listed : request.scans → left.orders s 0 = right.orders t 0) :
    (backend.stores.perform k.here request s).1 = (other.stores.perform k.there request t).1 ∧
      k.Level backend.schema left right (backend.stores.perform k.here request s).2
        (other.stores.perform k.there request t).2 := by
  obtain ⟨sameRest, view, here, there⟩ := level
  obtain ⟨outcome, kept, -, restLeft⟩ := direct.request k.here request s
  obtain ⟨outcome', kept', -, restRight⟩ := direct'.request k.there request t
  have listing : ∀ table, (Repository.storesIn backend.schema (right.orders t 0)
      (signals (left.rest s))).perform k.there request table =
      (Repository.storesIn backend.schema (left.orders s 0)
        (signals (left.rest s))).perform k.there request table := by
    intro table
    cases request with
    | findHits => rw [listed rfl]
    | _ => rfl
  have corresponds := Table.corresponds_showAlike k.peers (signals (left.rest s))
  obtain ⟨sameOutcome, entities, hits, -⟩ :=
    Repository.simulates_call corresponds corresponds isCall _ _ (Tandem.related here there)
  rw [← sameRest, same, listing] at outcome' kept'
  rw [← kept, ← kept'] at entities hits
  obtain ⟨rows, seenHits, seenHits'⟩ := hits.view
  obtain ⟨copies, seenCopies, seenCopies'⟩ := entities.view
  refine ⟨outcome.trans (sameOutcome.trans outcome'.symm), ?_, ⟨rows, copies⟩, ?_, ?_⟩
  · rw [restLeft, restRight, sameRest]
  · exact ⟨direct.guided_call here isCall, seen_eq_ok.mpr ⟨seenHits, seenCopies⟩⟩
  · refine ⟨?_, seen_eq_ok.mpr ⟨seenHits', seenCopies'⟩⟩
    exact same ▸ direct'.guided_call (same ▸ there) isCall

/-- At places that are level, either no transaction is begun at both, or one at each, and the places
of these are level. -/
theorem begin_level (here : Stands backend.schema k.here k.hereBase view (left.part s))
    (there : Stands backend.schema k.there k.thereBase view (right.part t))
    (sameRest : left.rest s = right.rest t) :
    (∃ e, (backend.begin k.here s).1 = .error e ∧ (other.begin k.there t).1 = .error e ∧
      k.Level backend.schema left right (backend.begin k.here s).2 (other.begin k.there t).2) ∨
    ∃ hitFailure entityFailure,
      let inner := k.inside (left.part s) (right.part t) hitFailure entityFailure
      (backend.begin k.here s).1 = .ok inner.here ∧
        (other.begin k.there t).1 = .ok inner.there ∧
        inner.Level backend.schema left right (backend.begin k.here s).2
          (other.begin k.there t).2 := by
  have live' := k.peers.check (signals (left.rest s))
  cases live : k.here.check (signals (left.rest s)) with
  | error e =>
      rw [live, sameRest] at live'
      obtain ⟨fails, kept, restLeft⟩ := direct.begin_of_ended live
      obtain ⟨fails', kept', restRight⟩ := direct'.begin_of_ended live'.symm
      refine .inl ⟨e, fails, fails', ?_, view, ?_, ?_⟩
      · rw [restLeft, restRight, sameRest]
      · rw [kept]
        exact here
      · rw [kept']
        exact there
  | ok _ =>
      rw [live, sameRest] at live'
      obtain ⟨begun, kept, restLeft⟩ := direct.begin_of_stands here live
      obtain ⟨begun', kept', restRight⟩ := direct'.begin_of_stands (same ▸ there) live'.symm
      obtain ⟨entities, hits, -⟩ := Tandem.related here there
      refine .inr ⟨hits.failure, entities.failure, begun, begun', ?_, view, ?_, ?_⟩
      · rw [restLeft, restRight, sameRest]
      · rw [kept]
        exact here.opening
      · rw [kept']
        exact there.opening

/-- However the work in them ended, transactions that were begun at places that were level end
alike, and leave the places level. -/
theorem finish_level {u : σ} {v : τ}
    (here : Stands backend.schema k.here k.hereBase view (left.part s))
    (there : Stands backend.schema k.there k.thereBase view (right.part t))
    {hitFailure entityFailure}
    (level : (k.inside (left.part s) (right.part t) hitFailure entityFailure).Level
      backend.schema left right u v) {outcome outcome' : Except Error Unit}
    (sameOutcome : outcome = outcome') :
    let done := backend.finish (k.here.inside (left.part s)) outcome u
    let done' := other.finish (k.there.inside (right.part t)) outcome' v
    done.1 = done'.1 ∧ k.Level backend.schema left right done.2 done'.2 := by
  subst sameOutcome
  obtain ⟨sameRest, later, inner, inner'⟩ := level
  cases outcome with
  | ok _ =>
      obtain ⟨succeeds, stands⟩ := direct.commit_of_stands here inner
      obtain ⟨succeeds', stands'⟩ := direct'.commit_of_stands (same ▸ there) (same ▸ inner')
      refine ⟨succeeds.trans succeeds'.symm, ?_, later, stands, same ▸ stands'⟩
      exact direct.rest_commit.trans (sameRest.trans direct'.rest_commit.symm)
  | error e =>
      obtain ⟨-, -, stands⟩ := direct.rollback_of_stands here inner
      obtain ⟨-, -, stands'⟩ := direct'.rollback_of_stands (same ▸ there) (same ▸ inner')
      refine ⟨rfl, ?_, view, stands, same ▸ stands'⟩
      exact direct.rest_rollback.trans (sameRest.trans direct'.rest_rollback.symm)

omit direct direct' same in
theorem orders_finish (direct : backend.Direct left signals) {inner : Context}
    (outcome : Except Error Unit) {u : σ} :
    left.orders (backend.finish inner outcome u).2 = left.orders u := by
  cases outcome with
  | ok _ => exact direct.orders_commit
  | error e => exact direct.orders_rollback

/-- Transactions for work that is alike at places that are abreast are alike. -/
theorem simulates_transact {work : Context → Action σ Unit} {work' : Context → Action τ Unit}
    (works : ∀ inner : Tandem, Simulates (inner.Abreast agree backend.schema left right)
      (work inner.here) (work' inner.there)) :
    Simulates (k.Abreast agree backend.schema left right) (backend.transact k.here work)
      (other.transact k.there work') := by
  rintro s t ⟨⟨sameRest, view, here, there⟩, agrees⟩
  have begins := direct.begin_level direct' same here there sameRest
  have orders : agree (left.orders (backend.begin k.here s).2)
      (right.orders (other.begin k.there t).2) := by
    rwa [direct.orders_begin, direct'.orders_begin]
  rw [transact, transact, bind_apply, bind_apply]
  generalize backend.begin k.here s = ended at begins orders ⊢
  generalize other.begin k.there t = ended' at begins orders ⊢
  obtain ⟨_, u⟩ := ended
  obtain ⟨_, v⟩ := ended'
  rcases begins with ⟨e, rfl, rfl, level⟩ | ⟨_, _, rfl, rfl, level⟩
  · exact ⟨rfl, level, orders⟩
  · obtain ⟨sameOutcome, done⟩ := works _ u v ⟨level, orders⟩
    obtain ⟨ends, levelDone⟩ :=
      direct.finish_level direct' same here there done.toLevel sameOutcome
    refine ⟨ends, levelDone, ?_⟩
    have agreeDone := done.orders
    rwa [← direct.orders_finish, ← direct'.orders_finish] at agreeDone

/-- Direct backends are matched at places that are abreast. -/
theorem matched :
    backend.Matched (fun k : Tandem => k.Abreast agree backend.schema left right) Tandem.here
      Tandem.there other where
  schema := same.symm
  perform k request isCall unlisting s t abreast := by
    obtain ⟨sameOutcome, level⟩ := direct.call_level direct' same isCall abreast.toLevel
      fun lists => absurd (unlisting.symm.trans lists) Bool.false_ne_true
    refine ⟨sameOutcome, level, ?_⟩
    obtain ⟨-, -, orders, -⟩ := direct.request k.here request s
    obtain ⟨-, -, orders', -⟩ := direct'.request k.there request t
    rw [orders, orders', Request.leaves, Request.leaves, unlisting]
    exact abreast.orders
  check k s t abreast := by
    rw [direct.check, direct'.check, k.peers.check, abreast.rest]
    exact ⟨rfl, abreast⟩
  record k event s t abreast := by
    obtain ⟨succeeds, sameRest, kept⟩ := direct.record event s
    obtain ⟨succeeds', sameRest', kept'⟩ := direct'.record event t
    obtain ⟨⟨rest, stands⟩, orders⟩ := abreast
    refine ⟨succeeds.trans succeeds'.symm, ⟨?_, ?_⟩, ?_⟩
    · rw [sameRest, sameRest', rest]
    · rw [kept.part, kept'.part]
      exact stands
    · rw [kept.orders, kept'.orders]
      exact orders
  transact k work work' works := direct.simulates_transact direct' same works

/-- If the orders of the scans are the same, they are similar. -/
theorem similar [DecidableEq ι] :
    backend.Similar (fun k : Tandem => k.Abreast Eq backend.schema left right) Tandem.here
      Tandem.there other where
  toMatched := direct.matched direct' same
  findHits k s t abreast := by
    have isCall : (Request.findHits : Request ι ε).isCall := rfl
    obtain ⟨sameOutcome, level⟩ := direct.call_level direct' same isCall abreast.toLevel
      fun _ => congrFun abreast.orders 0
    obtain ⟨-, -, orders, -⟩ := direct.request k.here .findHits s
    obtain ⟨-, -, orders', -⟩ := direct'.request k.there .findHits t
    refine ⟨eq_of_map_eq (fun _ _ equal => Answer.hits.inj equal) sameOutcome, level, ?_⟩
    exact orders.trans ((congrArg Request.findHits.leaves abreast.orders).trans orders'.symm)
  depth k s t abreast := by
    obtain ⟨view, here, there⟩ := abreast.stands
    exact ⟨view.hits.size + 1, direct.nestsWithin here, direct'.nestsWithin (same ▸ there)⟩

end Backend.Direct

end Level

end Layout

end QueryCache
