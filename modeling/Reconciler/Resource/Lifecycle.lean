import Reconciler.Access

/-! # The provisioning lifecycle

A provisioning request moves through stages kept in `status.lifecycleStage`:

    Unset → Creating → Ready | Failed

Stages only move forward, and `Ready` and `Failed` are final. What moves a request out of `Creating` is
the outcome of its job, read from the conditions of that job.
-/

namespace Reconciler

/-! ## Stages -/

/-- The stage of a provisioning request. -/
inductive Stage where
  | unset | creating | ready | failed
deriving DecidableEq, Repr

namespace Stage

def name : Stage → String
  | unset => ""
  | creating => "Creating"
  | ready => "Ready"
  | failed => "Failed"

def all : List Stage := [unset, creating, ready, failed]

/-- The stage stored under a value. -/
def ofValue (v : Value) : Except Fault Stage :=
  if v.isText "" then .ok unset
  else if v.isText "Creating" then .ok creating
  else if v.isText "Ready" then .ok ready
  else if v.isText "Failed" then .ok failed
  else .error (.badValue s!"{v.quoted} is not a valid LifecycleStage")

/-- The stage in a status, which may be absent, and so may be the stage in it. -/
def ofStatus (status : Value) : Except Fault Stage := do
  let stored ← (status.orElse (.object [])).fieldOrNull "lifecycleStage"
  ofValue (stored.orElse (.text ""))

/-- Whether no other stage follows. -/
def isFinal : Stage → Bool
  | ready | failed => true
  | _ => false

/-- Whether a request may move from one stage to another; staying is allowed. -/
def canAdvanceTo : Stage → Stage → Bool
  | unset, creating | creating, ready | creating, failed => true
  | current, target => target = current

end Stage

/-! ## Outcomes of jobs -/

/-- How a one-shot job stands. -/
inductive JobOutcome where
  | running | complete | failed
deriving DecidableEq, Repr

namespace JobOutcome

def name : JobOutcome → String
  | running => "Running"
  | complete => "Complete"
  | failed => "Failed"

/-- The stage of a request whose job has this outcome. -/
def stage : JobOutcome → Stage
  | running => .creating
  | complete => .ready
  | failed => .failed

def conditionsOf (job : Value) : Except Fault (List Value) := do
  let status ← job.fieldOrNull "status"
  let conditions ← (status.orElse (.object [])).fieldOrNull "conditions"
  (conditions.orElse (.list [])).elements

/-- The types of the conditions that hold. A condition without a status holds. -/
def activeTypes : List Value → Except Fault (List Value)
  | [] => .ok []
  | condition :: rest => do
    let status ← condition.fieldOr "status" (.text "True")
    if status.isText "True" then
      let type ← condition.fieldOrNull "type"
      if type.nameable then
        let types ← activeTypes rest
        return type :: types
      else throw .wrongShape
    else activeTypes rest

/-- The outcome of a job. A failure counts more than a completion. -/
def ofJob (job : Value) : Except Fault JobOutcome := do
  let active ← activeTypes (← conditionsOf job)
  if active.any (·.isText "Failed") then return failed
  else if active.any (·.isText "Complete") then return complete
  else return running

/-- The explanation in the first condition of type `Failed`: its message, or else its reason. -/
def explanation : List Value → Except Fault Value
  | [] => .ok .null
  | condition :: rest => do
    let type ← condition.fieldOrNull "type"
    if type.isText "Failed" then
      let message ← condition.fieldOrNull "message"
      if message.truthy then return message else condition.fieldOrNull "reason"
    else explanation rest

/-- Why a job failed; null when it does not say. -/
def failureReason (job : Value) : Except Fault Value := do
  explanation (← conditionsOf job)

end JobOutcome

end Reconciler
