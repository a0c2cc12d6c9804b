import Reconciler.Scheduling
import Reconciler.Service.Health
import Reconciler.Simulation.Dictation
import Reconciler.Simulation.World

/-! # Sessions

A session is a world and a list of steps, each of which does one thing to it: edits an object, moves the
clock, scripts a failure, makes a store call, runs a pass. A step has an answer, and what it left behind
can be read off the worlds before and after it.
-/

namespace Reconciler

/-! ## Steps -/

/-- What a pass that is given as a script comes to. -/
inductive ScriptedOutcome where
  | returns (directive : Except Fault Directive)
  | raises (f : Failure)
  | undefined

inductive Step where
  /-- Stores an object. -/
  | put (object : Value)
  /-- Removes an object. -/
  | delete (a : Address)
  /-- Sets a field of an object in place. -/
  | setField (a : Address) (path : List String) (value : Value)
  /-- Removes a field of an object in place. -/
  | unsetField (a : Address) (path : List String)
  /-- Makes the next call of an operation on a kind fail. -/
  | failNext (operation : String) (kind : Value) (f : Failure)
  /-- Sets the clock. -/
  | clock (now : Instant)
  /-- Replaces the script of the API server. -/
  | script (answers : List ScriptedAnswer)
  /-- Makes a store call. -/
  | store (call : StoreCall)
  /-- Runs a pass of a handler. -/
  | pass (h : Handler) (id : Identity)
  /-- Runs passes until one is done or fails, at most so many. -/
  | passes (h : Handler) (id : Identity) (limit : Nat)
  /-- Runs a call of the framework. -/
  | handle (h : Handler) (body : Value) (retry : Int) (jitter : Rat)
  /-- Delivers an event about a child. -/
  | childEvent (body type : Value)
  /-- Wakes the owner of an object. -/
  | nudge (body : Value) (kinds : List Value)
  /-- Moves a stored request to a stage. -/
  | advance (kind : String) (id : Identity) (target conditions : Value)
  /-- Logs a remark about a resource. -/
  | log (dictation : Dictation)
  /-- Tells about a failed pass. -/
  | reportFailure (body : Value) (f : Failure)
  /-- Says whether the service is ready. -/
  | ready (value : Bool)
  /-- Asks the server for a path. -/
  | http (path : Option String)
  /-- A step that cannot be taken. -/
  | refused (f : Fault)

inductive StepAnswer where
  | value (v : Value)
  | directive (d : Directive)
  | verdict (v : Verdict)
  | page (p : Page)
  | failure (f : Failure)

namespace StepAnswer

/-- The answer of a step without a result. -/
def nothing : StepAnswer := .value .null

/-- The answer of a step that may fail. -/
def ofExcept {α : Type} (encode : α → StepAnswer) : Except Failure α → StepAnswer
  | .ok a => encode a
  | .error f => .failure f

end StepAnswer

/-! ## Running steps -/

namespace Session

/-- The handler of a pass that is given as a script. -/
def scriptedHandler (kind : String) (outcome : ScriptedOutcome) : Handler :=
  ⟨kind, fun _ => match outcome with
    | .returns directive => Pass.lift directive
    | .raises f => throw f
    | .undefined => throw (Fault.notImplemented : Failure)⟩

/-- A handler whose tiers are given, or were never defined. -/
def tieredHandler (settings : Settings) (kind : String) (tiers : Option (List Tier)) : Handler :=
  Convergence.handler settings kind fun _ => match tiers with
    | some tiers => .ok tiers
    | none => .error .notImplemented

/-- A tier with a fixed manifest. -/
def fixedTier (name kind : String) (childName manifest : Value) (drift : Option Drift) : Tier :=
  { name, kind, childName, build := pure manifest, drift }

/-- Runs passes until one is done or fails, at most so many; the actions they ask for. -/
def passesUntil (settings : Settings) (h : Handler) (id : Identity) :
    (limit : Nat) → InWorld (List Value)
  | 0 => return []
  | limit + 1 => do
    let directive ← World.runSafe (h.reconcile settings id)
    let action : Value := .text directive.action
    match directive with
    | .done | .failed _ => return [action]
    | _ => return action :: (← passesUntil settings h id limit)

/-- Edits a stored object in place; whether there is one. -/
def edit (a : Address) (change : Value → Except Fault Value) : InWorld StepAnswer := do
  let w ← get
  match w.cluster.edit a change with
  | .error f => return .failure f
  | .ok none => return .value (.bool false)
  | .ok (some cluster) =>
    set { w with cluster }
    return .value (.bool true)

def run : Step → InWorld StepAnswer
  | .put object => do
    let w ← get
    let (answer, cluster) := w.cluster.put object
    set { w with cluster }
    return match answer with
      | .ok _ => .nothing
      | .error f => .failure f
  | .delete a => do
    let w ← get
    set { w with cluster := w.cluster.delete a }
    return .value (.bool (w.cluster.find? a).isSome)
  | .setField a path value => edit a (Cluster.setAt path value)
  | .unsetField a path => edit a (Cluster.unsetAt path)
  | .failNext operation kind f => do
    modify fun w =>
      let others := w.pending.filter fun (key, _) => !(key.1 == operation && key.2.same kind)
      { w with pending := others ++ [((operation, kind), f)] }
    return .nothing
  | .clock now => do
    modify fun w => { w with clock := now }
    return .nothing
  | .script answers => do
    modify fun w => { w with script := answers }
    return .nothing
  | .store call => do return .ofExcept .value (← World.call call)
  | .pass h id => do return .directive (← World.runSafe (h.reconcile (← get).settings id))
  | .passes h id limit => do
    return .value (.list (← passesUntil (← get).settings h id limit))
  | .handle h body retry jitter => do
    return .verdict (← World.runSafe (Reconciler.handle (← get).settings h body retry jitter))
  | .childEvent body type => do
    return .ofExcept (fun _ => .nothing) (← World.runPass (Reconciler.childEvent body type))
  | .nudge body kinds => do
    return .ofExcept (fun
      | some id => .value (.text id.shown)
      | none => .nothing) (← World.runPass (nudgeOwner body kinds))
  | .advance kind id target conditions => do
    return .ofExcept (fun _ => .nothing) (← World.runPass do
      let request ← Pass.get kind id.ns id.name
      let stage ← Pass.lift (Stage.ofValue target)
      Provisioning.advance kind request stage conditions)
  | .log dictation => do return .ofExcept (fun _ => .nothing) (← World.runPass dictation.pass)
  | .reportFailure body f => do
    World.runSafe (Handler.reportFailure body f)
    return .nothing
  | .ready value => do
    modify fun w => { w with ready := value }
    return .nothing
  | .http path => do
    let w ← get
    let lines := w.registry.exposition w.settings.arithmetic
    return match Page.respond w.ready lines path with
      | .ok page => .page page
      | .error f => .failure f
  | .refused f => return .failure f

/-! ## What a step changed -/

/-- How an address is written. -/
def addressKey (a : Address) : String :=
  s!"{a.kind.shown}/{a.ns.shown}/{a.name.shown}"

/-- The objects that are new or different in the second cluster, and null for those that are gone. -/
def changedObjects (before after : Cluster) : Fields :=
  (after.objects.filterMap fun (a, object) =>
    match before.find? a with
    | some old => if old.same object then none else some (addressKey a, object)
    | none => some (addressKey a, object))
  ++ before.objects.filterMap fun (a, _) =>
    if (after.find? a).isSome then none else some (addressKey a, .null)

/-- How a sample is written, apart from its total. -/
def sampleKey (s : Registry.Sample) : String :=
  s.name ++ "\x7b" ++ ",".intercalate (s.labels.map fun (k, v) => s!"{k}={v}") ++ "\x7d"

/-- A total, in the form its sample has. -/
def shownTotal : Nat ⊕ Rat → String
  | .inl n => toString n
  | .inr q => sixPlaces q

/-- The samples of a registry as they are written: names and totals. -/
def shownSamples (a : Arithmetic) (r : Registry) : List (String × String) :=
  (r.samples a).map fun s => (sampleKey s, shownTotal s.total)

/-- The totals that are written differently for two registries, under the names of their samples. -/
def changedTotals (a : Arithmetic) (before after : Registry) : Fields :=
  let old := shownSamples a before
  (shownSamples a after).filterMap fun (key, total) =>
    if old.lookup key = some total then none else some (key, .text total)

/-- The lines of a scraped text that are told about: all but those that mention times of creation. -/
def toldLines (lines : List String) : List String :=
  lines.filter fun line => !Value.occursIn "_created".toList line.toList

/-- Runs one step with an empty record; its answer, and the worlds before and after. -/
def step (s : Step) (w : World) : StepAnswer × World × World :=
  let before := { w with
    record := .empty
    cluster := { w.cluster with journal := [] } }
  let (answer, after) := (run s).run before
  (answer, before, after)

end Session

end Reconciler
