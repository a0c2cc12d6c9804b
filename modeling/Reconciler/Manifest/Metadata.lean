import Reconciler.Access
import Reconciler.Resource.Names

/-! # Metadata of built objects

Every object the operator builds lives in the namespace of its parent, carries the managed-by label and
names the parent as its controller, so that it is collected together with the parent.

A parent comes from the cluster in any shape: a required field that is absent fails the build, and the
first one that is missed decides which field the failure names.
-/

namespace Reconciler.Manifest

def metadataOf (parent : Value) : Except Fault Value :=
  parent.require "metadata"

def nameOf (parent : Value) : Except Fault Value := do
  (← metadataOf parent).require "name"

/-- The spec of a parent; empty when it is absent or null. -/
def specOf (parent : Value) : Except Fault Value := do
  return (← parent.fieldOrNull "spec").orElse (.object [])

/-- The reference that makes a parent the controller of an object. -/
def ownerReference (parent : Value) : Except Fault Value := do
  let metadata ← parent.fieldOr "metadata" (.object [])
  let apiVersion ← parent.require "apiVersion"
  let kind ← parent.require "kind"
  let name ← metadata.require "name"
  let uid ← metadata.fieldOrNull "uid"
  return .object [("apiVersion", apiVersion), ("kind", kind), ("name", name), ("uid", uid),
    ("controller", .bool true), ("blockOwnerDeletion", .bool true)]

/-- The metadata of an object next to its parent: with extra labels, which may be null, and with or
without a reference to the parent. -/
def objectMeta (parent name labels : Value) (owned : Bool) : Except Fault Value := do
  let ns ← (← metadataOf parent).fieldOr "namespace" (.text "default")
  let extra ← (labels.orElse (.object [])).spread
  let fields : Fields := [("name", name), ("namespace", ns),
    ("labels", .object (Fields.merge [(managedByLabel, .text operatorName)] extra))]
  if owned then
    let owner ← ownerReference parent
    return .object (fields ++ [("ownerReferences", .list [owner])])
  else return .object fields

/-- An environment variable with a fixed value. -/
def env (name value : Value) : Value :=
  .object [("name", name), ("value", value)]

/-- An environment variable taken from a key of a Secret. -/
def secretEnv (name secret key : Value) : Value :=
  .object [("name", name), ("valueFrom",
    .object [("secretKeyRef", .object [("name", secret), ("key", key)])])]

/-- An environment variable taken from the password of a Secret. -/
def passwordEnv (name : String) (secret : Value) : Value :=
  secretEnv (.text name) secret (.text passwordKey)

end Reconciler.Manifest
