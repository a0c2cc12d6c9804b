import Reconciler.Manifest.Metadata

/-! # Storage claims -/

namespace Reconciler.Manifest

/-- A claim for storage. A falsy class leaves the choice to the cluster; a claim that is not bound to
its owner survives it. -/
structure Storage where
  name : Value
  size : Value
  storageClass : Value
  bound : Bool
deriving DecidableEq, Repr

namespace Storage

def manifest (s : Storage) (parent : Value) : Except Fault Value := do
  let spec : Fields := [("accessModes", .list [.text "ReadWriteOnce"]),
    ("resources", .object [("requests", .object [("storage", s.size)])])]
  let metadata ← objectMeta parent s.name .null s.bound
  return .object [("apiVersion", .text "v1"), ("kind", .text Kind.claim), ("metadata", metadata),
    ("spec", .object (if s.storageClass.truthy then spec ++ [("storageClassName", s.storageClass)]
      else spec))]

end Storage

end Reconciler.Manifest
