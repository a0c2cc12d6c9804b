/-! # Names shared by the parts

Kinds, labels, annotations and condition types as they appear in the cluster.
-/

namespace Reconciler

/-! ## The operator -/

def apiGroup : String := "starlane.starlane.io"

def apiVersion : String := "v1alpha1"

/-- Group and version together, as objects carry them. -/
def apiGroupVersion : String := apiGroup ++ "/" ++ apiVersion

/-- The name the operator signs its writes and objects with. -/
def operatorName : String := "starlane-operator"

/-- The label every object made by the operator carries. -/
def managedByLabel : String := apiGroup ++ "/managed-by"

/-- The annotation that tells an owner which of its children changed. -/
def childChangedKey : String := apiGroup ++ "/child-changed"

/-- What the scheduling framework puts before the names of its own annotations, so that its
bookkeeping is not taken for a change by the operator. -/
def bookkeepingDomain : String := "kopf." ++ apiGroup

/-- The key of a generated password in its Secret. -/
def passwordKey : String := "password"

/-! ## Kinds -/

namespace Kind

/-- A whole service: server, identity service and database. -/
def starlane : String := "Starlane"

/-- A standalone database. -/
def postgres : String := "Postgres"

/-- A description of what can be provisioned, and with which image. -/
def provisioner : String := "StarlaneProvisioner"

/-- A request to provision a resource. -/
def resource : String := "StarlaneResource"

/-- A request to run a provisioning job. -/
def provisioningJob : String := "StarlaneProvisioningJob"

/-- Storage. -/
def claim : String := "PersistentVolumeClaim"

/-- A credential. -/
def secret : String := "Secret"

/-- A workload. -/
def deployment : String := "Deployment"

/-- An endpoint. -/
def service : String := "Service"

/-- A one-shot job. -/
def job : String := "Job"

end Kind

/-! ## Condition types -/

namespace ConditionType

/-- Whether the resource is ready. -/
def ready : String := "Ready"

/-- The provisioner a request names does not exist. -/
def provisionerNotFound : String := "ProvisionerNotFound"

/-- The provisioning job failed. -/
def jobFailed : String := "JobFailed"

end ConditionType

end Reconciler
