import Reconciler.Handler.All

/-! # Scheduling

Between the handlers and the framework that calls them stands a thin layer: it runs one pass for each
call, tells the framework when to call again, and wakes the owner of a child that changed by marking it
with an annotation.

* `backoff`: the delay after a failed pass;
* `apply`: what a directive means to the framework;
* `handle`: one call of the framework;
* `owningResource`, `nudgeOwner`, `childEvent`: from a changed child to its owner.
-/

namespace Reconciler

/-! ## Directives -/

/-- The delay after a failed pass: doubled with every retry up to a limit, plus up to a tenth of itself
by chance. A number of retries or a power of two beyond the range of double precision is a fault. -/
def backoff (settings : Settings) (retry : Int) (jitter : Rat) : Except Fault Rat :=
  let n := retry.toNat
  if (Binary64.ofFraction false n 1).infinite then .error .tooLarge
  else if 1024 ≤ n then .error .overflow
  else
    let a := settings.arithmetic
    let doubled := a.mul settings.minRetryDelay (powerOfTwo n : Rat)
    let delay := if doubled ≤ settings.maxRetryDelay then doubled else settings.maxRetryDelay
    .ok (a.add delay (a.mul (a.mul delay (a.round (1 / 10))) jitter))

/-- What the framework is told after a call. -/
inductive Verdict where
  /-- The call is over. -/
  | finished
  /-- Call again after a delay, for a reason. -/
  | again (message : String) (delay : Rat) (source : Option Fault)
  /-- The call itself failed. -/
  | broken (f : Failure)
deriving DecidableEq, Repr

/-- What a directive means to the framework. -/
def apply (settings : Settings) (directive : Directive) (retry : Int) (jitter : Rat) : Verdict :=
  match directive with
  | .done => .finished
  | .requeueNow => .again "Converging, requeued" 0 none
  | .requeueAfter delay => .again s!"Waiting {sixSignificant delay}s before next check" delay none
  | .failed error =>
    let fault := match error with
      | some f => f.fault
      | none => .plain .runtime "reconciliation failed"
    match backoff settings retry jitter with
    | .ok delay => .again fault.sanitized delay (some fault)
    | .error f => .broken f

/-! ## Calls -/

/-- Whether the failure of a pass is told to the users of the resource. Waiting for a dependency is
not: the resource has a condition for it. -/
def tellsUsers (f : Failure) : Bool :=
  !f.belongsTo .dependencyMissing

/-- One call of the framework for a resource it hands over. -/
def handle (settings : Settings) (h : Handler) (body : Value) (retry : Int) (jitter : Rat) :
    SafePass Verdict := do
  match body.require "metadata" >>= Identity.ofMeta with
  | .error f => return .broken f
  | .ok id =>
    let directive ← h.reconcile settings id
    match directive.error? with
    | some f => if tellsUsers f then Handler.reportFailure body f
    | none => pure ()
    return apply settings directive retry jitter

/-! ## Owners -/

/-- The first reference to a controller among the given kinds of the operator's own group. -/
def controllerAmong (kinds : List Value) : List Value → Except Fault (Option Value)
  | [] => .ok none
  | ref :: rest => do
    if (← ref.fieldOrNull "controller").truthy then
      if (← ref.fieldOrNull "apiVersion").isText apiGroupVersion then
        let kind ← ref.fieldOrNull "kind"
        if kinds.any kind.same then return some ref else controllerAmong kinds rest
      else controllerAmong kinds rest
    else controllerAmong kinds rest

/-- Kind and identity of the resource that controls an object. -/
def owningResource (body : Value) (kinds : List Value) :
    Except Fault (Option (Value × Identity)) := do
  let metadata ← body.fieldOr "metadata" (.object [])
  let references ← ((← metadata.fieldOrNull "ownerReferences").orElse (.list [])).elements
  match ← controllerAmong kinds references with
  | none => return none
  | some ref =>
    let kind ← ref.require "kind"
    let ns ← metadata.fieldOr "namespace" (.text "default")
    let name ← ref.require "name"
    return some (kind, ⟨ns, name⟩)

/-- What identifies one version of a child. -/
def childMarker (body : Value) : Except Fault String := do
  let metadata ← body.require "metadata"
  let kind ← body.fieldOr "kind" (.text "Object")
  let name ← metadata.require "name"
  let version ← metadata.fieldOr "resourceVersion" (.text "")
  return s!"{kind.shown}/{name.shown}@{version.shown}"

/-- Marks the owner of a changed child with the child's version, so that the framework sees a change of
the owner. Answers with the owner that was marked. A store that fails is no failure: the owner is
looked at again in time anyway. -/
def nudgeOwner (body : Value) (kinds : List Value) : Pass (Option Identity) := do
  match ← Pass.lift (owningResource body kinds) with
  | none => return none
  | some (kind, id) =>
    let marker ← Pass.lift (childMarker body)
    let annotations : Value := .object [(childChangedKey, .text marker)]
    match ← (Pass.call (.annotate kind id.ns id.name annotations)).outcome with
    | .ok _ => return some id
    | .error f =>
      if f.belongsTo .notFound then
        SafePass.trace (.log (.text .debug s!"Owner {kind.shown} {id.shown} of {marker} is gone"))
        return none
      else if f.belongsTo .store then
        SafePass.trace (.log (.text .warning
          s!"Could not annotate {kind.shown} {id.shown} after {marker} changed: {f.sanitized}"))
        return none
      else throw f

/-- The kinds of owners that are woken by their children. -/
def ownerKinds : List Value := [.text Kind.starlane, .text Kind.postgres]

/-- Whether an event about a child is about a change. Listings and creations are not: the passes of the
owner cover them. -/
def isChange (type : Value) : Bool :=
  type.isText "MODIFIED" || type.isText "DELETED"

/-- Reacts to an event about a child. -/
def childEvent (body type : Value) : Pass Unit := do
  if isChange type then
    let body ← Pass.lift body.asObject
    let _ ← nudgeOwner (.object body) ownerKinds

end Reconciler
