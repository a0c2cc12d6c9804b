import Reconciler.Handler.Reconcile
import Reconciler.Manifest.Provisioning
import Reconciler.Resource.Condition
import Reconciler.Resource.Lifecycle

/-! # Provisioning

The work of a provisioning request is done by a one-shot job built from the provisioner it names. The
handler only starts that job and moves the request forward as it sees the job finish:

    Unset → Creating → Ready | Failed

The stage is stored before the job is created, so a pass may find a request in `Creating` without a job;
it then creates the job again. While the provisioner is missing the request says so in a condition.
-/

namespace Reconciler.Provisioning

/-! ## Reading a request -/

/-- The status of a request; empty when it is absent or null. -/
def statusOf (request : Value) : Except Fault Value := do
  return (← request.fieldOrNull "status").orElse (.object [])

/-- Each entry of a condition list copied into an object. -/
def copyConditions : List Value → Except Fault (List Condition)
  | [] => .ok []
  | c :: rest => do
    let entry ← c.asObject
    let entries ← copyConditions rest
    return entry :: entries

def conditionsOf (request : Value) : Except Fault (List Condition) := do
  let conditions ← (← statusOf request).fieldOrNull "conditions"
  copyConditions (← (conditions.orElse (.list [])).elements)

def conditionList (conditions : List Condition) : Value :=
  .list (conditions.map .object)

def recordNow (r : Condition.Report) (conditions : List Condition) : SafePass (List Condition) := do
  let now ← SafePass.instant
  return Condition.record r (.text (Instant.shown now)) conditions

/-! ## Writing the status -/

/-- The request with some fields of its status set. -/
def withStatus (request : Value) (changes : Fields) : Except Fault Value := do
  let status ← (← statusOf request).spread
  request.setField "status" (.object (Fields.merge status changes))

/-- The request as it is stored when it enters a stage, and the stage it comes from. Only forward moves
are allowed. -/
def advanced (request : Value) (target : Stage) (conditions : Value) :
    Except Fault (Stage × Value) := do
  let current ← Stage.ofStatus (← request.fieldOrNull "status")
  if current.canAdvanceTo target then
    let status ← (← statusOf request).spread
    let generation ← (← request.require "metadata").fieldOr "generation" (.integer 0)
    let changed ← request.setField "status" (.object (Fields.merge status
      [("lifecycleStage", .text target.name), ("conditions", conditions),
       ("observedGeneration", generation)]))
    return (current, changed)
  else
    throw (.badValue
      s!"illegal lifecycle transition {quoted current.name} -> {quoted target.name}")

/-- Stores that a request enters a stage. -/
def advance (kind : String) (request : Value) (target : Stage) (conditions : Value) :
    Pass Unit := do
  let (current, changed) ← Pass.lift (advanced request target conditions)
  let _ ← Pass.call (.updateStatus changed)
  SafePass.count (.transitions kind target.name)
  let before := if current = .unset then "Unset" else current.name
  Pass.log kind .info (← request.require "metadata")
    { message := s!"Lifecycle stage {before} -> {target.name}"
      event := .text "transition"
      reason := .text "StageChanged" }

/-! ## Provisioners -/

/-- The provisioner a request names. Its absence is a missing dependency. -/
def getProvisioner (request : Value) : Pass Value := do
  let ns ← (← request.require "metadata").fieldOr "namespace" (.text "default")
  let name ← (← Manifest.specOf request).fieldOrNull "provisioner"
  if name.truthy then
    match ← (Pass.get Kind.provisioner ns name).outcome with
    | .ok provisioner => return provisioner
    | .error f =>
      if f.belongsTo .notFound then
        throw ⟨.dependencyMissing (.text Kind.provisioner) ns name, some f.fault⟩
      else throw f
  else throw (Fault.build "spec.provisioner is required" : Failure)

/-- Records in a request that its provisioner is missing, unless it says so already. -/
def recordMissing (kind : String) (request : Value) (provisioner : Value) : Pass Unit := do
  let conditions ← conditionsOf request
  let message := s!"Waiting for provisioner {provisioner.shown}"
  Pass.log kind .warning (← request.require "metadata")
    (.warning message "ProvisionerNotFound")
  if Condition.has (.text ConditionType.provisionerNotFound) (.text "True") (some (.text message))
      conditions then
    return ()
  else
    let conditions ← recordNow (Condition.provisionerMissing (.text message) .null) conditions
    let changed ← withStatus request [("conditions", conditionList conditions)]
    let _ ← Pass.call (.updateStatus changed)

/-- Goes on with the provisioner of a request. While it is missing the pass fails, after the request
was told. -/
def withProvisioner (kind : String) (request : Value) (next : Value → Pass Directive) :
    Pass Directive := do
  match ← (getProvisioner request).outcome with
  | .ok provisioner => next provisioner
  | .error f =>
    match f.fault with
    | .dependencyMissing _ _ name =>
      recordMissing kind request name
      return .failed (some f)
    | _ => throw f

/-! ## Jobs -/

/-- Creates the job of a request. A job of that name that exists already is taken for it. -/
def createJob (kind : String) (request provisioner : Value) : Pass Directive := do
  let metadata ← request.require "metadata"
  let job ← Manifest.provisioningJob request provisioner
  match ← (Pass.call (.create job)).outcome with
  | .error f =>
    if f.belongsTo .alreadyExists then
      SafePass.count (.childOperations Kind.job "create" "exists")
      return .requeueNow
    else throw f
  | .ok _ =>
    SafePass.count (.childOperations Kind.job "create" "success")
    let name ← Manifest.nameOf request
    let image ← (← Manifest.specOf provisioner).fieldOrNull "image"
    Pass.log kind .info metadata
      { message := s!"Created provisioning job {name.shown}"
        event := .text "create"
        reason := .text "ProvisioningStarted"
        extra := [("image", image)] }
    SafePass.post (.provisioningStarted request name.shown)
    return .requeueNow

/-! ## Passes by stage -/

/-- A request without a stage: it is started. -/
def start (kind : String) (request : Value) : Pass Directive :=
  withProvisioner kind request fun provisioner => do
    let conditions ← conditionsOf request
    let now ← SafePass.instant
    let conditions :=
      Condition.clearProvisionerMissing .null (.text (Instant.shown now)) conditions
    advance kind request .creating (conditionList conditions)
    -- a pass that is cut off before this leaves `Creating` without a job, which `observe` makes good
    createJob kind request provisioner

/-- A request whose job completed. -/
def complete (kind : String) (request metadata : Value) : Pass Directive := do
  let conditions ← conditionsOf request
  let conditions ←
    recordNow (Condition.ready true (.text "Provisioning job completed") .null) conditions
  advance kind request .ready (conditionList conditions)
  Pass.log kind .info metadata (.info "Provisioning completed" "ProvisioningSucceeded")
  let name ← metadata.require "name"
  SafePass.post (.provisioningSucceeded request name.shown)
  return .done

/-- A request whose job failed. -/
def fail (kind : String) (request metadata job : Value) : Pass Directive := do
  let conditions ← conditionsOf request
  let name ← metadata.require "name"
  let fault := Fault.jobFailed name (← JobOutcome.failureReason job)
  let message : Value := .text fault.message
  -- each of the two conditions has a time of its own
  let conditions ← recordNow (Condition.jobFailed message .null) conditions
  let conditions ← recordNow (Condition.ready false message .null) conditions
  advance kind request .failed (conditionList conditions)
  Pass.log kind .error metadata (.error "Provisioning failed" "ProvisioningFailed" fault)
  SafePass.post (.provisioningFailed request fault.message)
  return .done

/-- A request in `Creating`: its job is looked at. -/
def observe (settings : Settings) (kind : String) (request : Value) : Pass Directive := do
  let metadata ← request.require "metadata"
  let ns ← metadata.fieldOr "namespace" (.text "default")
  let name ← metadata.require "name"
  match ← (Pass.get Kind.job ns name).outcome with
  | .error f =>
    if f.belongsTo .notFound then
      Pass.log kind .warning metadata
        (.warning "Provisioning job missing while Creating, recreating it" "JobMissing")
      withProvisioner kind request (createJob kind request)
    else throw f
  | .ok job =>
    match ← Pass.lift (JobOutcome.ofJob job) with
    | .running => Directive.after settings.pollInterval
    | .complete => complete kind request metadata
    | .failed => fail kind request metadata job

/-- One pass over a request. A stage that is not known is left alone. -/
def converge (settings : Settings) (kind : String) (id : Identity) : Pass Directive := do
  let request ← Pass.get kind id.ns id.name
  let metadata ← request.fieldOr "metadata" (.object [])
  let status ← request.fieldOrNull "status"
  match Stage.ofStatus status with
  | .ok .unset => start kind request
  | .ok .creating => observe settings kind request
  | .ok .ready | .ok .failed => return .done
  | .error (.badValue _) =>
    let stored ← status.fieldOrNull "lifecycleStage"
    Pass.log kind .warning metadata
      (.warning s!"Unknown lifecycle stage {stored.quoted}, leaving it alone" "UnknownStage")
    return .done
  | .error f => throw (f : Failure)

/-- The handler of a kind of provisioning requests. -/
def handler (settings : Settings) (kind : String) : Handler :=
  ⟨kind, converge settings kind⟩

end Reconciler.Provisioning
