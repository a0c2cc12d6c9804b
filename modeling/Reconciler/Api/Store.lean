import Reconciler.Api.Call
import Reconciler.Api.RateLimit
import Reconciler.Observe.Trace
import Reconciler.Program.Basic
import Reconciler.Settings

/-! # The store over the API server

A store call becomes calls to the API server: one, and another for each time the server says that it is
throttling, up to a limit. The answer that is not tried again decides the result:

* an object is the result;
* a refusal becomes a missing object, a conflict, a taken name, or a store fault with its status;
* a broken connection becomes a store fault without a status.

Every attempt is counted once, by its outcome, and every store call is timed once.
-/

namespace Reconciler

/-! ## What the store may ask -/

/-- A question of the store to its environment. -/
inductive ApiOp where
  /-- A call to the API server. -/
  | call (c : ApiCall)
  /-- The time in seconds. -/
  | seconds
  /-- A wait. -/
  | sleep (seconds : Rat)
  /-- Something to leave behind. -/
  | trace (t : Trace)

namespace ApiOp

def Answer : ApiOp → Type
  | call _ => Except Failure Value
  | seconds => Rat
  | sleep _ => Unit
  | trace _ => Unit

end ApiOp

def apiSignature : Signature := ⟨ApiOp, ApiOp.Answer⟩

abbrev ApiProgram := Program apiSignature

instance : Clocked ApiProgram where
  seconds := .query (S := apiSignature) .seconds
  sleep s := .query (S := apiSignature) (.sleep s)

/-! ## Refusals -/

/-- Whether a text mentions the rate limit, in any letter case. -/
def mentionsRateLimit (text : String) : Bool :=
  Value.occursIn "rate limit".toList (text.toList.map Char.toLower)

/-- Whether a refusal with a status and a text says that the server is throttling. -/
def Fault.throttling (status : Value) (text : String) : Bool :=
  status.same (.integer 429) || (status.same (.integer 503) && mentionsRateLimit text)

/-- Whether a fault is a broken connection. -/
def Fault.disconnected : Fault → Bool
  | .plain .http _ | .plain .os _ | .plain .connection _ => true
  | _ => false

namespace ApiStore

/-- What is done with which object, and under which name it is measured. -/
structure Operation where
  name : String
  kind : String
  address : Address
  call : ApiCall
deriving Repr

namespace Operation

/-- The name an operation is measured under. -/
def metric (o : Operation) : String :=
  s!"{o.name}_{o.kind.toLower}"

/-- The store fault of a failed operation. -/
def failed (o : Operation) (f : Fault) (status : Value) : Fault :=
  .store s!"{o.name} {o.address.shown} failed: {f.sanitized}" status

/-- What a refusal means, and how it is counted. -/
def refused (o : Operation) (f : Fault) (status : Value) : String × Fault :=
  if status.same (.integer 404) then ("not_found", Fault.missing o.address)
  -- the server has one status for a name that is taken and for a version that is outdated
  else if status.same (.integer 409) then
    ("conflict",
      if o.name = "create" then .alreadyExists s!"{o.address.shown} already exists"
      else .conflict s!"{o.address.shown} was modified concurrently")
  else ("error", o.failed f status)

end Operation

/-- The address an object gives itself. -/
def addressOf (object : Value) : Except Fault Address := do
  let metadata ← object.fieldOr "metadata" (.object [])
  let kind ← object.require "kind"
  let ns ← metadata.fieldOr "namespace" (.text "default")
  let name ← metadata.require "name"
  return ⟨kind, ns, name⟩

/-- The operation on an object that gives itself its address. -/
def onObject (name : String) (verb : Verb) (object : Value) : Except Fault Operation := do
  let a ← addressOf object
  let (kind, served) ← Served.ofKind a.kind
  return ⟨name, kind, a, ⟨verb, served, a.ns, a.name, object⟩⟩

def operation : StoreCall → Except Fault Operation
  | .get kind ns name => do
    let (k, served) ← Served.ofKind kind
    return ⟨"get", k, ⟨kind, ns, name⟩, ⟨.read, served, ns, name, .null⟩⟩
  | .create object => onObject "create" .create object
  | .update object => onObject "update" .replace object
  | .updateStatus object => onObject "update_status" .replaceStatus object
  | .annotate kind ns name annotations => do
    let (k, served) ← Served.ofKind kind
    let body : Value := .object [("metadata", .object [("annotations", annotations)])]
    return ⟨"annotate", k, ⟨kind, ns, name⟩, ⟨.patch, served, ns, name, body⟩⟩

/-! ## Attempts -/

/-- A program of the store that remembers when the last call started. -/
abbrev Attempt := StateT Limiter ApiProgram

def ask (op : ApiOp) : Attempt (apiSignature.Answer op) :=
  StateT.lift (.query (S := apiSignature) op)

/-- Counts an attempt by its outcome. -/
def count (o : Operation) (result : String) : Attempt Unit :=
  ask (.trace (.count (.apiCalls o.metric result)))

def attempt (settings : Settings) (o : Operation) : Attempt (Except Failure Value) :=
  Limiter.spaced settings.arithmetic settings.callRate
    (.query (S := apiSignature) (.call o.call) : ApiProgram (Except Failure Value))

/-- What the answer to the last attempt means. -/
def conclude (o : Operation) : Except Failure Value → Attempt (Except Failure Value)
  | .ok object => do
    count o "success"
    return .ok object
  | .error f => do
    match f.fault with
    | .refusal status _ _ _ =>
      let (result, meant) := o.refused f.fault status
      count o result
      return .error ⟨meant, some f.fault⟩
    | fault =>
      if fault.disconnected then
        count o "error"
        return .error ⟨o.failed fault .null, some fault⟩
      else return .error f

/-- Whether an answer is a refusal because of throttling. -/
def throttled : Except Failure Value → Bool
  | .error ⟨.refusal status _ _ text, _⟩ => Fault.throttling status text
  | _ => false

/-- Attempts until the answer counts: at most `retries` more, the next after `2 ^ made` seconds. -/
def attempts (settings : Settings) (o : Operation) (made : Nat) :
    (retries : Nat) → Attempt (Except Failure Value)
  | 0 => do conclude o (← attempt settings o)
  | retries + 1 => do
    let answer ← attempt settings o
    if throttled answer then
      count o "throttled"
      let _ ← ask (.sleep (powerOfTwo made : Rat))
      attempts settings o (made + 1) retries
    else conclude o answer

/-- A store call once it is known what to call: the attempts, and the time they took. -/
def called (settings : Settings) (retries : Nat) (o : Operation) : Attempt (Except Failure Value) := do
  let start : Rat ← ask .seconds
  let result ← attempts settings o 0 retries
  let now : Rat ← ask .seconds
  ask (.trace (.observe (.apiCalls o.metric) (settings.arithmetic.sub now start)))
  return result

/-- Performs a store call with at most so many retries, by a client with these methods. -/
def perform (methods : Methods) (settings : Settings) (retries : Nat) (c : StoreCall) :
    Attempt (Except Failure Value) := do
  match operation c with
  | .error f => return .error (f : Failure)
  | .ok o =>
    if methods.offer o.call then called settings retries o
    else return .error (Fault.noAttribute : Failure)

/-- How often a throttled call is tried again. -/
def defaultRetries : Nat := 3

end ApiStore

end Reconciler
