import Reconciler.Manifest.Metadata

/-! # Endpoints

An endpoint exposes one TCP port of the pods it selects. Of an endpoint that exists only the exposure
mode is compared with what is wanted; everything else is fixed at creation or filled in by the cluster.
-/

namespace Reconciler.Manifest

/-- The exposure of an endpoint that asks for none. -/
def defaultExposure : String := "ClusterIP"

/-- A Service with one port. -/
structure Endpoint where
  name : Value
  exposure : Value
  portName : Value
  port : Value
  targetPort : Value
  selector : Value
deriving DecidableEq, Repr

namespace Endpoint

def manifest (e : Endpoint) (parent : Value) : Except Fault Value := do
  let metadata ← objectMeta parent e.name .null true
  let selector ← e.selector.asObject
  return .object [("apiVersion", .text "v1"), ("kind", .text Kind.service), ("metadata", metadata),
    ("spec", .object [("type", e.exposure.orElse (.text defaultExposure)),
      ("ports", .list [.object [("name", e.portName), ("port", e.port),
        ("targetPort", e.targetPort), ("protocol", .text "TCP")]]),
      ("selector", .object selector)])]

end Endpoint

/-- The spec fields of an existing endpoint that have to change to match a wanted one. -/
def exposureDrift (existing desired : Value) : Except Fault Fields := do
  let spec ← existing.fieldOrNull "spec"
  let current ← (spec.orElse (.object [])).fieldOrNull "type"
  let wanted ← (← desired.require "spec").require "type"
  return if current.same wanted then [] else [("type", wanted)]

end Reconciler.Manifest
