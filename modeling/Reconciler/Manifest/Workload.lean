import Reconciler.Manifest.Metadata

/-! # Workloads

A workload runs one replica of one container, with at most one claim mounted as its data volume. Its
labels select its pods.
-/

namespace Reconciler.Manifest

def containerPort (name port : Value) : Value :=
  .object [("name", name), ("containerPort", port)]

/-- A single-replica deployment of one container. A list that is null is empty, and a null data claim
mounts nothing. -/
structure Workload where
  name : Value
  labels : Value
  container : Value
  image : Value
  args : Value := .null
  env : Value := .null
  ports : Value := .null
  dataClaim : Value := .null
  dataPath : Value := .null
deriving DecidableEq, Repr

namespace Workload

/-- The items of a list that may be null. -/
def listed (v : Value) : Except Fault Value := do
  return .list (← (v.orElse (.list [])).elements)

/-- Where a container sees its data volume. -/
def mounts (w : Workload) : Fields :=
  if w.dataClaim.truthy then
    [("volumeMounts", .list [.object [("name", .text "data"), ("mountPath", w.dataPath),
      ("readOnly", .bool false)]])]
  else []

def volumes (w : Workload) : Fields :=
  if w.dataClaim.truthy then
    [("volumes", .list [.object [("name", .text "data"),
      ("persistentVolumeClaim", .object [("claimName", w.dataClaim)])]])]
  else []

def manifest (w : Workload) (parent : Value) : Except Fault Value := do
  let args ← listed w.args
  let env ← listed w.env
  let ports ← listed w.ports
  let container : Value := .object ([("name", w.container), ("image", w.image), ("args", args),
    ("env", env), ("ports", ports)] ++ w.mounts)
  let metadata ← objectMeta parent w.name .null true
  let labels ← w.labels.asObject
  return .object [("apiVersion", .text "apps/v1"), ("kind", .text Kind.deployment),
    ("metadata", metadata),
    ("spec", .object [("replicas", .integer 1),
      ("selector", .object [("matchLabels", .object labels)]),
      ("template", .object [("metadata", .object [("labels", .object labels)]),
        ("spec", .object ([("containers", .list [container])] ++ w.volumes))])])]

end Workload

end Reconciler.Manifest
