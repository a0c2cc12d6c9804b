import Reconciler.Resource.Instant
import Reconciler.Resource.Names
import Reconciler.Value

/-! # Conditions

A status keeps a list of conditions, each a small object with a type. Recording a condition replaces
the first one of its type where it stands, or adds it at the end; no other entry is touched. The time
of the last transition is kept as long as the status stays the same.
-/

namespace Reconciler

/-- One entry of a condition list. Any of its fields may be absent. -/
abbrev Condition := Fields

namespace Condition

/-- A field of a condition; null when it is absent. -/
def part (c : Condition) (key : String) : Value :=
  (Fields.find? key c).getD .null

/-- Whether a condition has a type. -/
def isOf (type : Value) (c : Condition) : Bool :=
  (c.part "type").same type

/-- What is to be recorded about a condition. A null generation is not recorded. -/
structure Report where
  type : Value
  status : Value
  reason : Value
  message : Value
  generation : Value := .null

/-- The entry for a report, with a time of transition. -/
def Report.entry (r : Report) (transition : Value) : Condition :=
  [("type", r.type), ("status", r.status), ("reason", r.reason), ("message", r.message),
   ("lastTransitionTime", transition)]
    ++ (if r.generation.isNull then [] else [("observedGeneration", r.generation)])

/-- The time of transition when a report replaces an entry. -/
def transitionAfter (old : Condition) (r : Report) (now : Value) : Value :=
  if (old.part "status").same r.status then (Fields.find? "lastTransitionTime" old).getD now
  else now

/-- Records a report in a list of conditions. -/
def record (r : Report) (now : Value) : List Condition → List Condition
  | [] => [r.entry now]
  | c :: rest =>
    if c.isOf r.type then r.entry (transitionAfter c r now) :: rest
    else c :: record r now rest

/-- Whether the first condition with this type and status has the given message. Without a message,
whether there is such a condition. -/
def has (type status : Value) (message : Option Value) : List Condition → Bool
  | [] => false
  | c :: rest =>
    if c.isOf type && (c.part "status").same status then
      match message with
      | none => true
      | some m => (c.part "message").same m
    else has type status message rest

/-! ## The conditions of a provisioning request -/

def ready (status : Bool) (message : Value) (generation : Value) : Report where
  type := .text ConditionType.ready
  status := .text (if status then "True" else "False")
  reason := .text (if status then "Ready" else "NotReady")
  message
  generation

def provisionerMissing (message : Value) (generation : Value) : Report where
  type := .text ConditionType.provisionerNotFound
  status := .text "True"
  reason := .text "ProvisionerNotFound"
  message
  generation

def provisionerFound (generation : Value) : Report where
  type := .text ConditionType.provisionerNotFound
  status := .text "False"
  reason := .text "ProvisionerFound"
  message := .text "Provisioner is available"
  generation

def jobFailed (message : Value) (generation : Value) : Report where
  type := .text ConditionType.jobFailed
  status := .text "True"
  reason := .text "JobFailed"
  message
  generation

/-- Marks the provisioner as found, if it was ever missing. -/
def clearProvisionerMissing (generation now : Value) (conditions : List Condition) :
    List Condition :=
  if conditions.any (isOf (.text ConditionType.provisionerNotFound)) then
    record (provisionerFound generation) now conditions
  else conditions

end Condition

end Reconciler
