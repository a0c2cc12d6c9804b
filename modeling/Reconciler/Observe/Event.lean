import Reconciler.Value

/-! # Cluster events

An event is a short notice about one object, posted for its users. A warning reports something they
have to act on.
-/

namespace Reconciler

/-- A notice about an object. -/
structure ClusterEvent where
  kind : Value
  ns : Value
  name : Value
  warning : Bool
  reason : String
  message : String
deriving DecidableEq, Repr

namespace ClusterEvent

def about (object : Value) (warning : Bool) (reason message : String) : ClusterEvent :=
  let metadata := (object.field? "metadata").getD .null
  { kind := (object.field? "kind").getD .null
    ns := (metadata.field? "namespace").getD .null
    name := (metadata.field? "name").getD .null
    warning
    reason
    message }

def type (e : ClusterEvent) : String :=
  if e.warning then "Warning" else "Normal"

def reconcileFailed (object : Value) (message : String) : ClusterEvent :=
  about object true "ReconcileFailed" message

def childCreated (object : Value) (kind name : String) : ClusterEvent :=
  about object false "ChildCreated" s!"{kind} {name} created"

/-- A child of the object was brought in line with its spec. -/
def childUpdated (object : Value) (kind name : String) : ClusterEvent :=
  about object false "ChildUpdated" s!"{kind} {name} updated to match spec"

def labeled (object : Value) (descriptor : String) : ClusterEvent :=
  about object false "Labeled" s!"Labeled from descriptor {descriptor}"

/-- The descriptor of a provisioner cannot be read. -/
def descriptorInvalid (object : Value) (message : String) : ClusterEvent :=
  about object true "DescriptorInvalid" message

def provisioningStarted (object : Value) (job : String) : ClusterEvent :=
  about object false "ProvisioningStarted" s!"Provisioning job {job} created"

def provisioningSucceeded (object : Value) (job : String) : ClusterEvent :=
  about object false "ProvisioningSucceeded" s!"Provisioning job {job} completed"

def provisioningFailed (object : Value) (message : String) : ClusterEvent :=
  about object true "ProvisioningFailed" message

end ClusterEvent

end Reconciler
