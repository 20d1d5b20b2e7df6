import QueryCache.Proofs.Requests
import QueryCache.Simulation.World

/-!
# Hindered backends

A backend is hindered if any call of its stores may fail instead of being made, and a call that is
made may find contexts ended at any moment. Each scan may list hits in an order of its own.

What a cache in a world asks of its stores passes a gate. A gate that only hinders makes the world
a hindered backend on its repository; a gate that lets every call pass makes it the repository
itself, under the signals of the world.
-/

namespace QueryCache

section Hindered

variable {σ ι ε : Type} (backend : Backend σ ι ε) (part : σ → Repository)

/-- A request is made of the repository, under the signals of the moment; a scan lists hits in any
order. -/
def Backend.Acts (ctx : Context) (request : Request ι ε) (s : σ) : Prop :=
  ∃ listing signals,
    (backend.stores.perform ctx request s).1 =
      ((Repository.storesIn backend.schema listing signals).perform ctx request (part s)).1 ∧
    part (backend.stores.perform ctx request s).2 =
      ((Repository.storesIn backend.schema listing signals).perform ctx request (part s)).2

/-- A request fails instead of being made. -/
def Backend.Refuses (ctx : Context) (request : Request ι ε) (s : σ) : Prop :=
  (∃ e, (backend.stores.perform ctx request s).1 = .error e) ∧
    part (backend.stores.perform ctx request s).2 = part s

/-- A backend on a repository, any of whose calls may fail instead of being made. Checks of
contexts may end as they like. -/
structure Backend.Hindered : Prop where
  request : ∀ ctx request s, backend.Refuses part ctx request s ∨ backend.Acts part ctx request s
  check : ∀ ctx s, part (backend.check ctx s).2 = part s
  record : ∀ event s, part (backend.record event s).2 = part s

/-- The ends of transactions are never kept from being made. -/
def Backend.EndsAct : Prop :=
  ∀ ctx s, backend.Acts part ctx .commit s ∧ backend.Acts part ctx .rollback s

end Hindered

namespace Simulation

open QueryCache.Action World

variable {γ ι ε α β : Type}

/-- A decision that at most keeps a call from being made, ends its context or lets time pass. -/
def Decision.Hinders : Decision ι → Prop
  | .pass | .fail _ | .cancelBefore | .cancelAfter | .delayBefore _ | .delayAfter _ => True
  | _ => False

/-- A gate all of whose decisions at most hinder. -/
def Gate.Hinders (gate : Gate γ ι) : Prop :=
  ∀ call state, (gate.decide call state).1.Hinders

/-- A gate that lets every call pass. -/
def Gate.Passes (gate : Gate γ ι) : Prop :=
  ∀ call state, (gate.decide call state).1 = .pass

theorem Gate.Passes.hinders {gate : Gate γ ι} (passes : gate.Passes) : gate.Hinders := by
  intro call state
  rw [passes]
  trivial

/-- A gate that never keeps the end of a transaction from being made. -/
def Gate.EndsPass (gate : Gate γ ι) : Prop :=
  ∀ call state e, call.method = .commit ∨ call.method = .rollback →
    (gate.decide call state).1 ≠ .fail e

/-- A call of the world is made of the repository. -/
def Made (call : Action (World γ ε) α) (direct : Signals → Action Repository α)
    (world : World γ ε) : Prop :=
  ∃ signals, (call world).1 = (direct signals world.repository).1 ∧
    (call world).2.repository = (direct signals world.repository).2

theorem Made.map {call : Action (World γ ε) α} {direct : Signals → Action Repository α}
    {world : World γ ε} (made : Made call direct world) (form : α → β) :
    Made (call.map form) (fun signals => (direct signals).map form) world := by
  obtain ⟨signals, outcome, same⟩ := made
  exact ⟨signals, congrArg (Except.map form) outcome, same⟩

/-- A call of the world fails instead of being made, or is made of the repository. -/
def MadeOrRefused (call : Action (World γ ε) α) (direct : Signals → Action Repository α)
    (world : World γ ε) : Prop :=
  ((∃ e, (call world).1 = .error e) ∧ (call world).2.repository = world.repository) ∨
    Made call direct world

theorem MadeOrRefused.map {call : Action (World γ ε) α} {direct : Signals → Action Repository α}
    {world : World γ ε} (obtained : MadeOrRefused call direct world) (form : α → β) :
    MadeOrRefused (call.map form) (fun signals => (direct signals).map form) world := by
  rcases obtained with ⟨⟨e, failed⟩, same⟩ | made
  · exact .inl ⟨⟨e, map_eq_error_iff.mpr failed⟩, same⟩
  · exact .inr (made.map form)

section Carried

variable {gate : Gate γ ι} {world : World γ ε} {direct : Signals → Context → Action Repository α}

/-- A call that is not kept from being made is made, sooner or later. -/
theorem made_carryOut {decision : Decision ι} (hinders : decision.Hinders)
    (notRefused : ∀ e, decision ≠ .fail e) (direct : Signals → Context → Action Repository α)
    (ctx : Context) (nothing : α) (world : World γ ε) :
    Made (carryOut decision ctx nothing fun ctx => onRepository fun signals => direct signals ctx)
      (fun signals => direct signals ctx) world := by
  cases decision with
  | pass => exact ⟨world.signals, rfl, rfl⟩
  | fail e => exact absurd rfl (notRefused e)
  | cancelBefore => exact ⟨world.signals.cancel ctx, rfl, rfl⟩
  | delayBefore milliseconds => exact ⟨world.signals.advance milliseconds, rfl, rfl⟩
  | cancelAfter => exact ⟨world.signals, rfl, rfl⟩
  | delayAfter milliseconds => exact ⟨world.signals, rfl, rfl⟩
  | _ => cases hinders

theorem madeOrRefused_carryOut {decision : Decision ι} (hinders : decision.Hinders)
    (direct : Signals → Context → Action Repository α) (ctx : Context) (nothing : α)
    (world : World γ ε) :
    MadeOrRefused (carryOut decision ctx nothing fun ctx =>
      onRepository fun signals => direct signals ctx)
      (fun signals => direct signals ctx) world := by
  by_cases refused : ∃ e, decision = .fail e
  · obtain ⟨e, rfl⟩ := refused
    exact .inl ⟨⟨e, rfl⟩, rfl⟩
  · exact .inr (made_carryOut hinders (fun e same => refused ⟨e, same⟩) direct ctx nothing world)

/-- The gate changes its own state only. -/
theorem ask_apply (method : Method) (queryId : Option String) (world : World γ ε) :
    ask gate method queryId world =
      (.ok (gate.decide ⟨method, queryId⟩ world.gate).1,
        { world with gate := (gate.decide ⟨method, queryId⟩ world.gate).2 }) := rfl

theorem made_ask {method : Method} {queryId : Option String}
    {direct : Signals → Action Repository α} {call : Decision ι → Action (World γ ε) α}
    (made : Made (call (gate.decide ⟨method, queryId⟩ world.gate).1) direct
      { world with gate := (gate.decide ⟨method, queryId⟩ world.gate).2 }) :
    Made (ask gate method queryId >>= call) direct world := made

theorem madeOrRefused_ask {method : Method} {queryId : Option String}
    {direct : Signals → Action Repository α} {call : Decision ι → Action (World γ ε) α}
    (obtained : MadeOrRefused (call (gate.decide ⟨method, queryId⟩ world.gate).1) direct
      { world with gate := (gate.decide ⟨method, queryId⟩ world.gate).2 }) :
    MadeOrRefused (ask gate method queryId >>= call) direct world := obtained

theorem madeOrRefused_gated (hinders : gate.Hinders) (method : Method) (queryId : Option String)
    (ctx : Context) (nothing : α) :
    MadeOrRefused (gated gate method queryId ctx nothing fun ctx =>
      onRepository fun signals => direct signals ctx) (fun signals => direct signals ctx) world :=
  madeOrRefused_carryOut (hinders ⟨method, queryId⟩ world.gate) direct ctx nothing
    { world with gate := (gate.decide ⟨method, queryId⟩ world.gate).2 }

theorem madeOrRefused_gatedFindById (hinders : gate.Hinders) (ctx : Context) (id : ι)
    {direct : Signals → ι → Context → Action Repository (Option ε)} :
    MadeOrRefused (gatedFindById gate ctx id fun id ctx =>
      onRepository fun signals => direct signals id ctx) (fun signals => direct signals id ctx)
      world := by
  have decided := hinders ⟨.entitiesFindById, none⟩ world.gate
  refine madeOrRefused_ask ?_
  generalize gate.decide ⟨.entitiesFindById, none⟩ world.gate = answer at decided
  obtain ⟨decision, state⟩ := answer
  have carried := madeOrRefused_carryOut decided (fun signals ctx => direct signals id ctx) ctx none
    { world with gate := state }
  cases decision with
  | redirect other => cases decided
  | _ => exact carried

theorem madeOrRefused_gatedFindByIds (hinders : gate.Hinders) (ctx : Context)
    {direct : Signals → Context → Action Repository (List ε)} :
    MadeOrRefused (gatedFindByIds gate ctx fun ctx =>
      onRepository fun signals => direct signals ctx)
      (fun signals => direct signals ctx) world := by
  have decided := hinders ⟨.entitiesFindByIds, none⟩ world.gate
  refine madeOrRefused_ask ?_
  generalize gate.decide ⟨.entitiesFindByIds, none⟩ world.gate = answer at decided
  obtain ⟨decision, state⟩ := answer
  have carried := madeOrRefused_carryOut decided direct ctx [] { world with gate := state }
  cases decision with
  | reverse => cases decided
  | _ => exact carried

theorem madeOrRefused_gatedBegin (hinders : gate.Hinders) (ctx : Context)
    {direct : Signals → Context → Action Repository Context} :
    MadeOrRefused (gatedBegin gate ctx fun ctx =>
      onRepository fun signals => direct signals ctx)
      (fun signals => direct signals ctx) world := by
  have decided := hinders ⟨.begin, none⟩ world.gate
  refine madeOrRefused_ask ?_
  generalize gate.decide ⟨.begin, none⟩ world.gate = answer at decided
  obtain ⟨decision, state⟩ := answer
  have carried := madeOrRefused_carryOut decided direct ctx ctx { world with gate := state }
  cases decision with
  | swallow => cases decided
  | _ => exact carried

/-- The end of a transaction, unless it is kept from being made. -/
theorem made_gatedEnd (hinders : gate.Hinders) (method : Method) (ctx : Context)
    {direct : Context → Action Repository Unit} {other : Context → Action (World γ ε) Unit}
    (notRefused : ∀ e, (gate.decide ⟨method, none⟩ world.gate).1 ≠ .fail e) :
    Made (gatedEnd gate method ctx (fun ctx => onRepository fun _ => direct ctx) other)
      (fun _ => direct ctx) world := by
  have decided := hinders ⟨method, none⟩ world.gate
  refine made_ask ?_
  generalize gate.decide ⟨method, none⟩ world.gate = answer at decided notRefused
  obtain ⟨decision, state⟩ := answer
  have carried := made_carryOut decided notRefused (fun _ ctx => direct ctx) ctx ()
    { world with gate := state }
  cases decision with
  | swap => cases decided
  | _ => exact carried

theorem madeOrRefused_gatedEnd (hinders : gate.Hinders) (method : Method) (ctx : Context)
    {direct : Context → Action Repository Unit} {other : Context → Action (World γ ε) Unit} :
    MadeOrRefused (gatedEnd gate method ctx (fun ctx => onRepository fun _ => direct ctx) other)
      (fun _ => direct ctx) world := by
  by_cases refused : ∃ e, (gate.decide ⟨method, none⟩ world.gate).1 = .fail e
  · obtain ⟨e, refused⟩ := refused
    refine madeOrRefused_ask ?_
    rw [refused]
    exact .inl ⟨⟨e, rfl⟩, rfl⟩
  · exact .inr (made_gatedEnd hinders method ctx fun e same => refused ⟨e, same⟩)

end Carried

/-- Where the gate only hinders, a request is made of the repository or fails instead. -/
theorem Setting.madeOrRefused_perform [DecidableEq ι] (setting : Setting γ ι ε)
    (hinders : setting.gate.Hinders) (ctx : Context) (request : Request ι ε) (world : World γ ε) :
    MadeOrRefused (setting.backend.stores.perform ctx request)
      (fun signals => (Repository.stores setting.schema signals).perform ctx request) world := by
  cases request with
  | begin => exact (madeOrRefused_gatedBegin hinders ctx).map _
  | commit => exact (madeOrRefused_gatedEnd hinders .commit ctx).map _
  | rollback => exact (madeOrRefused_gatedEnd hinders .rollback ctx).map _
  | findEntity id => exact (madeOrRefused_gatedFindById hinders ctx id).map _
  | findEntities ids => exact (madeOrRefused_gatedFindByIds hinders ctx).map _
  | createEntity entity => exact (madeOrRefused_gated hinders .entitiesCreate none ctx ()).map _
  | updateEntity entity => exact (madeOrRefused_gated hinders .entitiesUpdate none ctx ()).map _
  | upsertEntities entities =>
      exact (madeOrRefused_gated hinders .entitiesUpsert none ctx ()).map _
  | deleteEntity id => exact (madeOrRefused_gated hinders .entitiesDeleteById none ctx ()).map _
  | deleteEntities => exact (madeOrRefused_gated hinders .entitiesDeleteAll none ctx ()).map _
  | createHit hit => exact (madeOrRefused_gated hinders .hitsCreate _ ctx ()).map _
  | updateHit hit => exact (madeOrRefused_gated hinders .hitsUpdate _ ctx ()).map _
  | findHit queryId => exact (madeOrRefused_gated hinders .hitsFindById _ ctx none).map _
  | findHits => exact (madeOrRefused_gated hinders .hitsFindAll none ctx []).map _
  | deleteHit queryId => exact (madeOrRefused_gated hinders .hitsDeleteById _ ctx ()).map _
  | deleteHits => exact (madeOrRefused_gated hinders .hitsDeleteAll none ctx ()).map _

/-- A world whose gate only hinders is a hindered backend on its repository. -/
theorem Setting.hindered [DecidableEq ι] (setting : Setting γ ι ε)
    (hinders : setting.gate.Hinders) : setting.backend.Hindered World.repository where
  request ctx request world :=
    (setting.madeOrRefused_perform hinders ctx request world).imp_right fun made =>
      ⟨.ascending, made⟩
  check ctx world := rfl
  record event world := by
    change (if setting.records then { world with events := world.events ++ [event] } else world :
      World γ ε).repository = world.repository
    split <;> rfl

/-- Where the gate lets the ends of transactions pass, they are made. -/
theorem Setting.endsAct [DecidableEq ι] (setting : Setting γ ι ε)
    (hinders : setting.gate.Hinders) (endsPass : setting.gate.EndsPass) :
    setting.backend.EndsAct World.repository := by
  intro ctx world
  constructor
  · have notRefused e := endsPass ⟨.commit, none⟩ world.gate e (.inl rfl)
    exact ⟨.ascending, (made_gatedEnd hinders .commit ctx notRefused).map _⟩
  · have notRefused e := endsPass ⟨.rollback, none⟩ world.gate e (.inr rfl)
    exact ⟨.ascending, (made_gatedEnd hinders .rollback ctx notRefused).map _⟩

end Simulation

end QueryCache
