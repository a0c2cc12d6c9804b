import Reconciler.Observe.Trace
import Reconciler.Program.Basic
import Reconciler.Random
import Reconciler.Resource.Directive
import Reconciler.Resource.Identity
import Reconciler.Resource.Instant
import Reconciler.Resource.Names
import Reconciler.Store.Call

/-! # Passes

A pass is one look at a resource: a program that talks to the store, tells the time, draws passwords
and leaves traces, and that may fail. Store calls answer with an object or with a failure, and both
answers are just answers: what a failing store call means is decided by the pass.
-/

namespace Reconciler

/-! ## What a pass may ask -/

/-- A question of a pass to its environment. -/
inductive PassOp where
  /-- A store call. -/
  | store (call : StoreCall)
  /-- The calendar time. -/
  | instant
  /-- The time in seconds. -/
  | seconds
  /-- Randomness. -/
  | random (op : RandomOp)
  /-- Something to leave behind. -/
  | trace (t : Trace)

namespace PassOp

def Answer : PassOp → Type
  | store _ => Except Failure Value
  | instant => Instant
  | seconds => Rat
  | random op => op.Answer
  | trace _ => Unit

end PassOp

def passSignature : Signature := ⟨PassOp, PassOp.Answer⟩

/-- A pass that cannot fail. -/
abbrev SafePass := Program passSignature

abbrev Pass := ExceptT Failure SafePass

/-! ## Asking -/

namespace SafePass

def instant : SafePass Instant := .query (S := passSignature) .instant

def seconds : SafePass Rat := .query (S := passSignature) .seconds

def trace (t : Trace) : SafePass Unit := .query (S := passSignature) (.trace t)

def count (c : Counter) : SafePass Unit := trace (.count c)

def post (e : ClusterEvent) : SafePass Unit := trace (.event e)

def call (c : StoreCall) : SafePass (Except Failure Value) := .query (S := passSignature) (.store c)

end SafePass

namespace Pass

/-- Calls the store; its failure is the failure of the pass. -/
def call (c : StoreCall) : Pass Value := .mk (SafePass.call c)

def get (kind : String) (ns name : Value) : Pass Value := call (.get (.text kind) ns name)

def lift {α : Type} (read : Except Fault α) : Pass α :=
  match read with
  | .ok a => pure a
  | .error f => throw (f : Failure)

instance : MonadLift (Except Fault) Pass := ⟨lift⟩

def draw {α : Type} (d : Draw α) : Pass α :=
  .mk do
    let result ← d.run.run (m := SafePass) fun op => .query (S := passSignature) (.random op)
    match result with
    | .ok a => return .ok a
    | .error f => return .error (f : Failure)

/-- The result of a pass, whether it is a value or a failure. -/
def outcome {α : Type} (p : Pass α) : Pass (Except Failure α) := .mk do
  return .ok (← p.run)

end Pass

/-! ## Logging -/

/-- Who a record is about: name, namespace and uid, as far as metadata has them. -/
def loggedIdentity (metadata : Value) : Except Fault (Value × Value × Value) := do
  let name ← metadata.fieldOr "name" (.text "unknown")
  let ns ← metadata.fieldOr "namespace" (.text "default")
  let uid ← metadata.fieldOr "uid" (.text "unknown")
  return (name, ns, uid)

/-- What a record of a pass says beside whom it is about. -/
structure Remark where
  message : String
  event : Value
  reason : Value
  extra : Fields := []

/-- The record of a remark about a resource of a kind. -/
def Remark.entry (r : Remark) (level : Level) (kind : String) (name ns uid : Value) : LogEntry :=
  let e : ResourceEvent :=
    { controller := .text operatorName
      kind := .text kind
      name
      ns
      uid
      event := r.event
      reason := r.reason
      message := r.message }
  .event level (e.fields r.extra)

namespace Remark

/-- A plain remark. -/
def info (message reason : String) (extra : Fields := []) : Remark :=
  ⟨message, .text "info", .text reason, extra⟩

/-- A remark about something to look at. -/
def warning (message reason : String) (extra : Fields := []) : Remark :=
  ⟨message, .text "warning", .text reason, extra⟩

/-- What an error remark adds about a failure. -/
def blame (f : Failure) : Fields :=
  [("error", .text f.sanitized), ("error_type", .text f.className)]

/-- A remark about a failure. -/
def error (message reason : String) (f : Failure) : Remark :=
  ⟨message, .text "error", .text reason, blame f⟩

end Remark

/-- Logs a remark about a resource with some metadata. -/
def Pass.log (kind : String) (level : Level) (metadata : Value) (r : Remark) : Pass Unit := do
  let (name, ns, uid) ← Pass.lift (loggedIdentity metadata)
  SafePass.trace (.log (r.entry level kind name ns uid))

/-- Logs a remark about a resource of which only the identity is known. -/
def SafePass.log (kind : String) (level : Level) (id : Identity) (r : Remark) : SafePass Unit :=
  SafePass.trace (.log (r.entry level kind id.name id.ns (.text "unknown")))

end Reconciler
