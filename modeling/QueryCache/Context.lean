import QueryCache.Error

/-!
# Contexts

A context accompanies a call: it says who may call it off, until when it has to be done, and in
which transaction it takes place. Tokens stand for those who may call off; many contexts can
share one. Time is counted in milliseconds.
-/

namespace QueryCache

/-- The number of a transaction. -/
abbrev TxId := Nat

/-- The name of a transaction in messages. -/
def txName (tx : TxId) : String := "tx#" ++ toString tx

/-- What accompanies a call. -/
structure Context where
  token : Nat
  deadline : Option Nat
  tx : Option TxId
  deriving DecidableEq, Repr, Inhabited

/-- What contexts can observe: the time, the tokens that were cancelled, and how many tokens are
in use. -/
structure Signals where
  now : Nat
  cancelled : List Nat
  issued : Nat
  deriving DecidableEq, Repr, Inhabited

namespace Context

/-- A context of a token alone. -/
def ofToken (token : Nat) : Context := ⟨token, none, none⟩

/-- The first context: its token is number 0. -/
def root : Context := ofToken 0

/-- The same context, with a transaction. -/
def withTx (ctx : Context) (tx : TxId) : Context := { ctx with tx := some tx }

/-- The token of a context without its deadline and transaction. -/
def detached (ctx : Context) : Context := ofToken ctx.token

/-- The token of a context was cancelled. -/
def isCancelled (ctx : Context) (signals : Signals) : Bool :=
  signals.cancelled.contains ctx.token

/-- A call may go on unless its token was cancelled or its deadline has come. -/
def check (ctx : Context) (signals : Signals) : Except Error Unit :=
  if ctx.isCancelled signals then .error .cancelled
  else
    match ctx.deadline with
    | some deadline =>
        if deadline ≤ signals.now then .error (.timeout "context deadline exceeded") else .ok ()
    | none => .ok ()

end Context

namespace Signals

/-- The time 0, with the token of the first context in use. -/
def initial : Signals := ⟨0, [], 1⟩

/-- The token of a context is cancelled; cancelling it again changes nothing. -/
def cancel (signals : Signals) (ctx : Context) : Signals :=
  if ctx.isCancelled signals then signals
  else { signals with cancelled := ctx.token :: signals.cancelled }

/-- Time passes. -/
def advance (signals : Signals) (milliseconds : Nat) : Signals :=
  { signals with now := signals.now + milliseconds }

/-- A context of a token that nobody else has. -/
def fresh (signals : Signals) : Context := .ofToken signals.issued

/-- One more token is in use. -/
def issue (signals : Signals) : Signals :=
  { signals with issued := signals.issued + 1 }

end Signals

end QueryCache
