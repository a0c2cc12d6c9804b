import Reconciler.Manifest.Credential
import Reconciler.Manifest.Endpoint
import Reconciler.Manifest.Images
import Reconciler.Manifest.Storage
import Reconciler.Manifest.Workload

/-! # The children of a database

A standalone database consists of a claim, a credential, a workload and an endpoint, all with the name
of their parent. The database workload is shared with the service, which runs one for its identity
service.
-/

namespace Reconciler.Manifest

def databasePort : Int := 5432

/-- Where a database keeps its data. -/
def databasePath : String := "/var/lib/postgresql/data"

/-- The label that selects the pods of a workload by its name. -/
def nameLabel (name : Value) : Value :=
  .object [("name", name)]

/-- The claim of a database, with the storage class and the binding its parent asks for. The spec is
read before the name. -/
def databaseClaim (parent : Value) (name : Except Fault Value) (size : String) :
    Except Fault Value := do
  let spec ← specOf parent
  let name ← name
  let storageClass ← spec.fieldOrNull "storageClass"
  let bound ← spec.fieldOr "managePvc" (.bool true)
  (⟨name, .text size, storageClass, bound.truthy⟩ : Storage).manifest parent

/-- The workload of a database whose claim has the same name. -/
def databaseWorkload (images : Images) (parent name : Value) : Except Fault Value := do
  let secret ← credentialName parent
  Workload.manifest
    { name
      labels := nameLabel name
      container := .text "postgres"
      image := .text images.postgres
      env := .list [env (.text "PGDATA") (.text databasePath), passwordEnv "POSTGRES_PASSWORD" secret]
      ports := .list [containerPort (.text "postgres") (.integer databasePort)]
      dataClaim := name
      dataPath := .text databasePath }
    parent

def databaseEndpoint (parent name exposure : Value) : Except Fault Value :=
  Endpoint.manifest
    { name
      exposure
      portName := .text "postgres"
      port := .integer databasePort
      targetPort := .integer databasePort
      selector := nameLabel name }
    parent

namespace Postgres

def storage (parent : Value) : Except Fault Value :=
  databaseClaim parent (nameOf parent) "10Gi"

def deployment (images : Images) (parent : Value) : Except Fault Value := do
  databaseWorkload images parent (← nameOf parent)

def service (parent : Value) : Except Fault Value := do
  let name ← nameOf parent
  let exposure ← (← specOf parent).fieldOrNull "serviceType"
  databaseEndpoint parent name exposure

end Postgres

end Reconciler.Manifest
