import Reconciler.Handler.Pass
import Reconciler.Settings
import Reconciler.Text.LowerCase

/-! # Reconciling a resource

A handler knows one kind of resource and how to run a pass over one of them. `Handler.reconcile` puts
around a pass what all passes have in common: a span, the measurements, and the reading of its failure.
Nothing leaves it but a directive:

* the resource itself is missing: there is nothing to do;
* a conflict: another pass right away;
* any other failure: a failed pass.

Every way through it counts the pass once and times it once.
-/

namespace Reconciler

/-- How resources of a kind are handled. -/
structure Handler where
  kind : String
  /-- One pass over a resource. -/
  converge : Identity → Pass Directive

namespace Handler

/-- Whether a failure says that the resource itself does not exist. -/
def missesItself (h : Handler) (id : Identity) (f : Failure) : Bool :=
  match f.fault with
  | .notFound kind ns name => kind.isText h.kind && ns.same id.ns && name.same id.name
  | _ => false

/-- The span that covers a pass. -/
def openSpan (h : Handler) (id : Identity) : Trace :=
  .openSpan ("reconcile_" ++ lowerCase h.kind)
    ([("resource.name", id.name), ("resource.namespace", id.ns)]
      ++ (if h.kind = "" then [] else [("resource.kind", .text h.kind)]))

/-- Measures the time since the start of a pass. -/
def time (settings : Settings) (h : Handler) (start : Rat) : SafePass Unit := do
  let now ← SafePass.seconds
  SafePass.trace (.observe (.passes h.kind) (settings.arithmetic.sub now start))

/-- Accounts for a failed pass. A missing dependency is something to wait for, anything else is an
error. -/
def fail (h : Handler) (id : Identity) (f : Failure) : SafePass Directive := do
  if f.belongsTo .dependencyMissing then
    SafePass.log h.kind .warning id
      (.warning s!"Waiting on missing dependency: {f.sanitized}" "DependencyMissing")
  else
    SafePass.log h.kind .error id (.error "Reconciliation failed" "ReconciliationFailed" f)
  SafePass.count (.faults h.kind f.className)
  SafePass.count (.passes h.kind "error")
  return .failed (some f)

/-- Accounts for a pass that came to a directive. -/
def finish (h : Handler) (id : Identity) (directive : Directive) : SafePass Directive := do
  match directive with
  | .failed (some f) => h.fail id f
  | other =>
    SafePass.count (.passes h.kind other.label)
    return other

/-- Runs one pass over a resource. -/
def reconcile (settings : Settings) (h : Handler) (id : Identity) : SafePass Directive := do
  let start ← SafePass.seconds
  SafePass.trace (h.openSpan id)
  match ← (h.converge id).run with
  | .ok directive =>
    SafePass.trace (.closeSpan none)
    h.time settings start
    h.finish id directive
  | .error f =>
    -- the span keeps the failure, whatever the pass makes of it
    SafePass.trace (.closeSpan (some f))
    if h.missesItself id f then
      SafePass.log h.kind .info id
        (.info s!"{h.kind} not found, assuming it was deleted" "NotFound")
      h.time settings start
      h.finish id .done
    else if f.belongsTo .conflict then
      SafePass.log h.kind .info id (.info s!"Conflict, re-reading: {f.sanitized}" "Conflict")
      SafePass.count (.passes h.kind "conflict")
      h.time settings start
      return .requeueNow
    else
      let directive ← h.fail id f
      h.time settings start
      return directive

/-- Posts the event that tells about a failed pass. -/
def reportFailure (object : Value) (f : Failure) : SafePass Unit :=
  SafePass.post (.reconcileFailed object s!"Reconciliation failed: {f.sanitized}")

end Handler

end Reconciler
