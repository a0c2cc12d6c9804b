import Reconciler.Api.Store
import Reconciler.Handler.All
import Reconciler.Store.Cluster

/-! # A simulated world

A world answers every question a pass may ask: it has a clock that only moves when told, scripted
randomness, and either a cluster or a scripted API server behind the store. Whatever is left behind is
recorded, so that a pass over a world is a function from worlds to worlds.
-/

namespace Reconciler

/-! ## The client of the API server -/

/-- The methods of the client. There is none for the status of a Secret. -/
def clientMethods : Methods := fun _ method =>
  method ≠ "replace_namespaced_secret_status"

/-- What the client makes of a refusal. Headers and body are left out where there are none. -/
def refusalText (status reason : Value) (headers : Option String) (body : Value) : String :=
  s!"({status.shown})\nReason: {reason.shown}\n"
    ++ (headers.map fun shown => s!"HTTP response headers: {shown}\n").getD ""
    ++ (if body.truthy then s!"HTTP response body: {body.shown}\n" else "")

/-- A refusal without headers. -/
def Fault.refused (status reason body : Value) : Fault :=
  .refusal status reason body (refusalText status reason none body)

/-- Whether a refusal without headers says that the server is throttling. -/
def throttles (status reason body : Value) : Bool :=
  Fault.throttling status (refusalText status reason none body)

/-! ## The script of an API server -/

/-- A scripted answer: how long it takes, in microseconds, and what it is. -/
structure ScriptedAnswer where
  takes : Int
  answer : Except Failure Value

/-- What answers store calls. -/
inductive Backend where
  /-- The cluster itself. -/
  | cluster
  /-- The API server, with a limit for retries. -/
  | server (retries : Nat)
deriving DecidableEq, Repr

/-! ## Worlds -/

/-- What was left behind since the record was last cleared; each list has the latest entry first. -/
structure Record where
  events : List ClusterEvent
  logs : List LogEntry
  spans : List Span
  calls : List ApiCall
  sleeps : List Rat

def Record.empty : Record := ⟨[], [], [], [], []⟩

structure World where
  settings : Settings
  backend : Backend
  clock : Instant
  cluster : Cluster
  /-- Failures waiting for the next call of an operation on a kind. -/
  pending : List ((String × Value) × Failure)
  script : List ScriptedAnswer
  limiter : Limiter
  /-- The offset of the source to be opened next, and of the open one. -/
  nextSource : Int
  openSource : Int
  tracing : Bool
  openSpan : Option Span
  registry : Registry
  ready : Bool
  record : Record

/-- A computation in a world. -/
abbrev InWorld := StateM World

namespace World

def initial (settings : Settings) (backend : Backend) (tracing : Bool) (clock : Instant)
    (firstSource : Int) : World :=
  { settings
    backend
    clock
    cluster := .empty
    pending := []
    script := []
    limiter := .fresh
    nextSource := firstSource
    openSource := firstSource
    tracing
    openSpan := none
    registry := .empty
    ready := false
    record := .empty }

/-! ## Time -/

/-- The time in seconds. The clock is rounded before it is divided. -/
def time (w : World) : Rat :=
  let a := w.settings.arithmetic
  a.div (a.round w.clock) 1000000

def seconds : InWorld Rat := do return (← get).time

/-- Waits: the wait is recorded and the clock moves by as many whole microseconds. -/
def sleep (s : Rat) : InWorld Unit := modify fun w =>
  { w with
    clock := w.clock + roundHalfEven (w.settings.arithmetic.mul s 1000000)
    record := { w.record with sleeps := s :: w.record.sleeps } }

instance : Clocked InWorld := ⟨seconds, sleep⟩

/-! ## Randomness -/

/-- The characters of a pool from a position on, going round. -/
def drawFrom (pool : List Char) (offset : Int) : (count : Nat) → List Char
  | 0 => []
  | count + 1 =>
    (pool[(offset.emod pool.length).toNat]?.toList) ++ drawFrom pool (offset + 1) count

/-- Scripted randomness: a draw goes through the pool from an offset that grows with every source, and
shuffling turns around. -/
def random : (op : RandomOp) → InWorld op.Answer
  | .source => modify fun w => { w with openSource := w.nextSource, nextSource := w.nextSource + 1 }
  | .sample pool count => do
    if RandomOp.refuses pool count then return .error RandomOp.refusal
    else return .ok (drawFrom pool (← get).openSource count.toNat)
  | .shuffle chars => return chars.reverse

/-! ## Traces -/

/-- The record after something was left behind. -/
def left (w : World) : Trace → World
  | .log entry => { w with record := { w.record with logs := entry :: w.record.logs } }
  | .event event => { w with record := { w.record with events := event :: w.record.events } }
  | .count c => { w with registry := w.registry.increment c }
  | .observe t seconds => { w with registry := w.registry.observe t seconds }
  | .openSpan name attributes =>
    if w.tracing then { w with openSpan := some (.start name attributes) } else w
  | .annotateSpan key value =>
    { w with openSpan := w.openSpan.map (·.withAttribute key value) }
  | .closeSpan failure => match w.openSpan with
    | none => w
    | some span =>
      { w with
        openSpan := none
        record := { w.record with spans := { span with failure } :: w.record.spans } }

def leave (t : Trace) : InWorld Unit := modify (left · t)

/-! ## The store -/

/-- Takes the failure that waits for a call, if there is one. -/
def takePending (operation : String) (kind : Value) : InWorld (Option Failure) := do
  let w ← get
  match w.pending.find? fun (key, _) => key.1 == operation && key.2.same kind with
  | none => return none
  | some (key, failure) =>
    set { w with pending := w.pending.filter fun (other, _) => other ≠ key }
    return some failure

/-- A store call answered by the cluster, unless a failure waits for it. -/
def callCluster (c : StoreCall) : InWorld (Except Failure Value) := do
  match c.kind with
  | .error f => return .error (f : Failure)
  | .ok kind =>
    if kind.nameable then
      match ← takePending c.operation kind with
      | some failure => return .error failure
      | none =>
        let w ← get
        let (answer, cluster) := w.cluster.perform c
        set { w with cluster }
        return answer.mapError fun f => ⟨f, none⟩
    else return .error (Fault.wrongShape : Failure)

/-- The answer of the API server to a call: the next of the script, or what was sent when the script is
over. -/
def callServer (c : ApiCall) : InWorld (Except Failure Value) := modifyGet fun w =>
  let record := { w.record with calls := c :: w.record.calls }
  match w.script with
  | [] => (.ok (if c.verb = .read then .object [] else c.body), { w with record })
  | scripted :: rest =>
    (scripted.answer, { w with record, script := rest, clock := w.clock + scripted.takes })

/-- Answers a question of the store. -/
def answerStore : (op : ApiOp) → InWorld op.Answer
  | .call c => callServer c
  | .seconds => seconds
  | .sleep s => sleep s
  | .trace t => leave t

/-- A store call that goes through the API server. -/
def callThroughServer (retries : Nat) (c : StoreCall) : InWorld (Except Failure Value) := do
  let w ← get
  let program := (ApiStore.perform clientMethods w.settings retries c).run w.limiter
  let (answer, limiter) ← program.run answerStore
  modify fun w => { w with limiter }
  return answer

def call (c : StoreCall) : InWorld (Except Failure Value) := do
  match (← get).backend with
  | .cluster => callCluster c
  | .server retries => callThroughServer retries c

/-! ## Passes -/

def answer : (op : PassOp) → InWorld op.Answer
  | .store c => call c
  | .instant => do return (← get).clock
  | .seconds => seconds
  | .random op => random op
  | .trace t => leave t

def runSafe {α : Type} (p : SafePass α) : InWorld α :=
  p.run answer

def runPass {α : Type} (p : Pass α) : InWorld (Except Failure α) :=
  runSafe p.run

def runDraw {α : Type} (d : Draw α) : InWorld (Except Fault α) :=
  d.run.run random

end World

end Reconciler
