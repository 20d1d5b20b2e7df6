import Std.Data.ExtTreeMap
import QueryCache.Error

/-!
# Gates and faults

Every call of a repository can be made to pass a gate, which decides what becomes of it. A gate
has a state of its own, so that its decisions may depend on the calls before; any schedule of
failures, cancellations and delays can be given as a gate.

A fault plan is a gate that follows a list of faults. Each fault counts the calls it matches and
strikes at one of them, or at all.
-/

namespace QueryCache.Simulation

/-- The calls of a repository. -/
inductive Method
  | entitiesCreate
  | entitiesUpdate
  | entitiesFindById
  | entitiesFindByIds
  | entitiesUpsert
  | entitiesDeleteById
  | entitiesDeleteAll
  | hitsCreate
  | hitsUpdate
  | hitsFindById
  | hitsFindAll
  | hitsDeleteById
  | hitsDeleteAll
  | begin
  | commit
  | rollback
  deriving DecidableEq, Repr

/-- The name of a method. -/
def Method.name : Method → String
  | .entitiesCreate => "entities.create"
  | .entitiesUpdate => "entities.update"
  | .entitiesFindById => "entities.find_by_id"
  | .entitiesFindByIds => "entities.find_by_ids"
  | .entitiesUpsert => "entities.upsert"
  | .entitiesDeleteById => "entities.delete_by_id"
  | .entitiesDeleteAll => "entities.delete_all"
  | .hitsCreate => "hits.create"
  | .hitsUpdate => "hits.update"
  | .hitsFindById => "hits.find_by_id"
  | .hitsFindAll => "hits.find_all"
  | .hitsDeleteById => "hits.delete_by_id"
  | .hitsDeleteAll => "hits.delete_all"
  | .begin => "begin_tx"
  | .commit => "commit_tx"
  | .rollback => "rollback_tx"

/-- A call that comes to the gate, with the query it concerns if it concerns one. -/
structure Call where
  method : Method
  queryId : Option String
  deriving DecidableEq, Repr

/-- What becomes of a call. A method treats a decision that it does not know as `pass`. -/
inductive Decision (ι : Type)
  /-- The call is made. -/
  | pass
  /-- The call is not made and fails. -/
  | fail (e : Error)
  /-- The context is cancelled, then the call is made. -/
  | cancelBefore
  /-- The call is made, then the context is cancelled. -/
  | cancelAfter
  /-- Time passes, then the call is made. -/
  | delayBefore (milliseconds : Nat)
  /-- The call is made, then time passes. -/
  | delayAfter (milliseconds : Nat)
  /-- The call is not made and succeeds with nothing. -/
  | skip
  /-- The call is made outside of the transaction and without the deadline of its context. -/
  | detach
  /-- The call is made; if it fails, it succeeds with nothing instead. -/
  | swallow
  /-- A commit becomes a rollback and a rollback a commit. -/
  | swap
  /-- Entities come back in reverse. -/
  | reverse
  /-- Another entity is looked up. -/
  | redirect (id : ι)
  deriving DecidableEq, Repr

/-- What decides on calls. -/
structure Gate (γ ι : Type) where
  decide : Call → γ → Decision ι × γ
  /-- How often, at most, hits that were removed are found again further down in nested
  invalidations because the gate kept their removal back or out of sight. -/
  revivals : γ → Nat

/-- The gate that lets every call pass. -/
def Gate.opened {ι : Type} : Gate Unit ι := ⟨fun _ state => (.pass, state), fun _ => 0⟩

/-- A fault: the method it concerns, the query if it is limited to one, the number of the call at
which it strikes, if not at all, what it does, and how many calls it has matched. -/
structure Fault (ι : Type) where
  method : String
  queryId : Option String
  nth : Option Nat
  decision : Decision ι
  matched : Nat
  deriving DecidableEq, Repr

namespace Fault

variable {ι : Type}

/-- A fault concerns a call. -/
def concerns (fault : Fault ι) (call : Call) : Bool :=
  fault.method = call.method.name && (fault.queryId.isNone || fault.queryId = call.queryId)

/-- The fault with one more matched call. -/
def count (fault : Fault ι) : Fault ι := { fault with matched := fault.matched + 1 }

/-- A fault that has counted a call strikes at it. -/
def strikes (fault : Fault ι) : Bool := fault.nth.isNone || fault.nth = some fault.matched

/-- The faults after a call, and the decision of the first that strikes. -/
def meet (call : Call) : List (Fault ι) → Decision ι × List (Fault ι)
  | [] => (.pass, [])
  | fault :: faults =>
      let (later, faults) := meet call faults
      if fault.concerns call then
        let fault := fault.count
        (if fault.strikes then fault.decision else later, fault :: faults)
      else (later, fault :: faults)

end Fault

/-- Counts by names. -/
abbrev Counts := Std.ExtTreeMap String Nat

/-- Counts with one more of a name. -/
def Counts.add (counts : Counts) (name : String) : Counts :=
  counts.insert name (counts[name]?.getD 0 + 1)

/-- The faults to come, the calls by method, and the removals of hits by query. -/
structure FaultPlan (ι : Type) where
  faults : List (Fault ι)
  calls : Counts
  removals : Counts

namespace FaultPlan

variable {ι : Type}

/-- The plan of the given faults, before any call. -/
def ofFaults (faults : List (Fault ι)) : FaultPlan ι := ⟨faults, ∅, ∅⟩

/-- The plan with other faults; the counts of calls go on. -/
def replaceFaults (faults : List (Fault ι)) (plan : FaultPlan ι) : FaultPlan ι :=
  { plan with faults }

/-- The plan after a call, and what becomes of it. -/
def decide (call : Call) (plan : FaultPlan ι) : Decision ι × FaultPlan ι :=
  let (decision, faults) := Fault.meet call plan.faults
  let removals :=
    match call.method, call.queryId with
    | .hitsDeleteById, some queryId => plan.removals.add queryId
    | _, _ => plan.removals
  (decision, ⟨faults, plan.calls.add call.method.name, removals⟩)

/-- The number of calls that the faults let pass before the last of them has struck, if each of
them strikes. A fault that strikes at every call counts as one. -/
def patience (plan : FaultPlan ι) : Nat :=
  plan.faults.foldr (fun fault calls => fault.nth.getD 1 + calls) 0

/-- The gate that follows a fault plan. -/
def gate : Gate (FaultPlan ι) ι := ⟨decide, patience⟩

end FaultPlan

end QueryCache.Simulation
