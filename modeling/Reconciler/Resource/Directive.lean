import Reconciler.Fault

/-! # Directives

The outcome of a pass, as an instruction to whoever schedules the next one.
-/

namespace Reconciler

/-- What to do after a pass. A delay is always positive: see `Directive.after`. -/
inductive Directive where
  /-- Nothing is left to do. -/
  | done
  /-- Run another pass right away. -/
  | requeueNow
  /-- Run another pass after `delay` seconds. -/
  | requeueAfter (delay : Rat)
  /-- The pass failed; run another one with backoff. -/
  | failed (error : Option Failure)
deriving DecidableEq, Repr

namespace Directive

/-- The directive to come back after a delay, which must be positive. -/
def after (seconds : Rat) : Except Fault Directive :=
  if seconds ≤ 0 then .error (.badValue "requeue delay must be positive")
  else .ok (.requeueAfter seconds)

/-- The directive to come back after a delay that is given as a value. It must be a number, and a whole
number must be within the range of double precision. -/
def afterValue (seconds : Value) : Except Fault Directive :=
  match seconds.number? with
  | none => .error .wrongShape
  | some q =>
    let rounded := Binary64.ofRat q
    if 0 < q && rounded.infinite then .error .tooLarge else after rounded.toRat

/-- The name of the action a directive asks for. -/
def action : Directive → String
  | done => "Done"
  | requeueNow => "RequeueNow"
  | requeueAfter _ => "RequeueAfter"
  | failed _ => "Error"

/-- Whether nothing is left to do. -/
def isDone : Directive → Bool
  | done => true
  | _ => false

/-- The delay a directive carries; zero where it has no meaning. -/
def delay : Directive → Rat
  | requeueAfter d => d
  | _ => 0

/-- The failure a directive carries. -/
def error? : Directive → Option Failure
  | failed e => e
  | _ => none

/-- The label a finished pass is counted under. -/
def label : Directive → String
  | done => "success"
  | requeueNow => "requeue"
  | requeueAfter _ => "requeue_after"
  | failed _ => "error"

end Directive

end Reconciler
