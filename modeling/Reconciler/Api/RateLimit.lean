import Reconciler.Fault
import Reconciler.Number.Arithmetic

/-! # Spacing of calls

Calls to the API server start at least `1 / rate` seconds apart. Before a call starts, the limiter waits
for what is missing since the start of the call before; then it remembers the time. How long the call
takes, and whether it succeeds, is of no interest.
-/

namespace Reconciler

/-- A monad in which one can tell the time and wait. -/
class Clocked (m : Type → Type) where
  /-- The time in seconds. -/
  seconds : m Rat
  /-- Waits for a time in seconds. -/
  sleep : Rat → m Unit

/-- What the limiter remembers: when the last call started. -/
structure Limiter where
  lastStart : Rat
deriving DecidableEq

namespace Limiter

/-- Nothing has started yet: the beginning of time counts. -/
def fresh : Limiter := ⟨0⟩

/-- How long to wait at a time, if at all, for calls to be an interval apart. -/
def wait? (a : Arithmetic) (interval now : Rat) (l : Limiter) : Option Rat :=
  let elapsed := a.sub now l.lastStart
  if elapsed < interval then some (a.sub interval elapsed) else none

/-- Waits until the next call may start, and remembers the start. A rate of zero is a fault. -/
def awaitTurn {m : Type → Type} [Monad m] [Clocked m] (a : Arithmetic) (rate : Rat) :
    StateT Limiter m (Except Fault Unit) := do
  let now ← (Clocked.seconds : m Rat)
  if rate = 0 then
    return .error .divisionByZero
  else
    match (← get).wait? a (a.div 1 rate) now with
    | some delay => (Clocked.sleep delay : m Unit)
    | none => pure ()
    set (⟨← (Clocked.seconds : m Rat)⟩ : Limiter)
    return .ok ()

/-- Makes a call when it may start. -/
def spaced {m : Type → Type} [Monad m] [Clocked m] {α : Type} (a : Arithmetic) (rate : Rat)
    (call : m (Except Failure α)) : StateT Limiter m (Except Failure α) := do
  match ← awaitTurn a rate with
  | .error f => return .error (f : Failure)
  | .ok () => (call : m (Except Failure α))

end Limiter

end Reconciler
