import Reconciler.Manifest.Metadata

/-! # Provisioning jobs

One job makes one provisioning attempt. It has the name of its request, so that the request's identity
finds it again, and it never retries: a failed pod fails the job.
-/

namespace Reconciler.Manifest

/-- The arguments of the provisioner: `create <address> <name> <init args...>`. -/
def provisioningArgs (request : Value) : Except Fault (List Value) := do
  let spec ← specOf request
  let address ← spec.fieldOr "starlaneResourceAddress" (.text "")
  let name ← spec.fieldOr "resourceName" (.text "")
  let more ← ((← spec.fieldOrNull "initArgs").orElse (.list [])).elements
  return .text "create" :: address :: name :: more

/-- The job for a request, with the image and environment of a provisioner. -/
def provisioningJob (request provisioner : Value) : Except Fault Value := do
  let supply ← specOf provisioner
  let metadata ← objectMeta request (← nameOf request) .null true
  let image ← supply.fieldOrNull "image"
  let args ← provisioningArgs request
  let env ← ((← supply.fieldOrNull "env").orElse (.list [])).elements
  return .object [("apiVersion", .text "batch/v1"), ("kind", .text Kind.job), ("metadata", metadata),
    ("spec", .object [("backoffLimit", .integer 0),
      ("template", .object [("spec", .object [("restartPolicy", .text "Never"),
        ("containers", .list [.object [("name", .text "starlane"), ("image", image),
          ("args", .list args), ("env", .list env)]])])])])]

end Reconciler.Manifest
