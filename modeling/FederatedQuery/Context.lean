/-! Execution contexts: a label for logs and a signal by which executions are cancelled.
Copies of a context listen to one signal.
-/

namespace FederatedQuery

/-- A context, with the number of the signal that it listens to. -/
structure Context where
  label : Option String
  signal : Nat
deriving DecidableEq

namespace Context

/-- The label, or a dash if there is none. -/
def labelText (context : Context) : String := context.label.getD "-"

/-- The context under another label. It listens to the same signal. -/
def withLabel (context : Context) (label : String) : Context :=
  { context with label := some label }

end Context

/-- How many signals there are, and which of them have been given. -/
structure Signals where
  count : Nat
  given : List Nat
deriving DecidableEq

namespace Signals

/-- No signal at all. -/
def empty : Signals := ⟨0, []⟩

/-- A new context without a label, on a signal of its own. -/
def newContext (signals : Signals) : Context × Signals :=
  (⟨none, signals.count⟩, { signals with count := signals.count + 1 })

/-- Cancels every execution under the context and under its copies. -/
def cancel (signals : Signals) (context : Context) : Signals :=
  { signals with given := context.signal :: signals.given }

/-- The context has been cancelled. -/
def isCancelled (signals : Signals) (context : Context) : Bool :=
  signals.given.contains context.signal

end Signals

end FederatedQuery
