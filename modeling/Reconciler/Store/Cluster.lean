import Reconciler.Store.Call

/-! # The store as a machine

The contract of the store, as a machine with a list of objects and a counter of versions:

* every write gives the object the next version;
* a create fails when the name is taken;
* a replacement fails when the object is missing, or when it sends a version that is not the stored one;
  it leaves the status alone, as a status replacement leaves everything else alone;
* annotations are merged whatever the version.

An object is stored under its kind, its namespace (`default` if it has none) and its name. A call that
fails changes nothing but the version counter.
-/

namespace Reconciler

/-- A write that succeeded. -/
structure Write where
  operation : String
  address : Address
deriving DecidableEq, Repr

/-- The stored objects, the number of versions given out, and the writes of calls, oldest first. -/
structure Cluster where
  objects : List (Address × Value)
  version : Nat
  journal : List Write
deriving DecidableEq, Repr

namespace Cluster

def empty : Cluster := ⟨[], 0, []⟩

def find? (c : Cluster) (a : Address) : Option Value :=
  c.objects.lookup a

/-- Stores an object at an address: in place when there is one, at the end otherwise. -/
def place (a : Address) (object : Value) : List (Address × Value) → List (Address × Value)
  | [] => [(a, object)]
  | (b, other) :: rest =>
    if b = a then (a, object) :: rest else (b, other) :: place a object rest

/-- The cluster with an object stored at an address. -/
def withObject (c : Cluster) (a : Address) (object : Value) : Cluster :=
  { c with objects := place a object c.objects }

def nextVersion (c : Cluster) : Value := .text (toString (c.version + 1))

/-- The cluster after a version was given out. -/
def bumped (c : Cluster) : Cluster := { c with version := c.version + 1 }

/-- The cluster after a write was recorded. -/
def recorded (c : Cluster) (operation : String) (a : Address) : Cluster :=
  { c with journal := c.journal ++ [⟨operation, a⟩] }

/-! ## Objects -/

/-- The address an object is stored under. -/
def addressOf (object : Value) : Except Fault Address := do
  let metadata ← object.require "metadata"
  let kind ← object.require "kind"
  let ns ← metadata.fieldOr "namespace" (.text "default")
  let name ← metadata.require "name"
  return ⟨kind, ns, name⟩

def withVersion (object version : Value) : Except Fault Value := do
  let metadata ← (← object.require "metadata").setField "resourceVersion" version
  object.setField "metadata" metadata

/-- An object with namespace and uid filled in. -/
def completed (object : Value) : Except Fault Value := do
  let object ← object.withDefault "metadata" (.object [])
  let metadata ← (← object.require "metadata").withDefault "namespace" (.text "default")
  let name ← metadata.require "name"
  let metadata ← metadata.withDefault "uid" (.text s!"uid-{name.shown}")
  object.setField "metadata" metadata

/-- An address that can be looked up. -/
def checked (a : Address) : Except Fault Address :=
  if a.nameable then .ok a else .error .wrongShape

/-- The stored object that a replacement is meant for, if the version sent is not stale. -/
def current (c : Cluster) (a : Address) (object : Value) : Except Fault Value := do
  match c.find? (← checked a) with
  | none => throw (Fault.missing a)
  | some stored =>
    let sent ← (← object.require "metadata").fieldOrNull "resourceVersion"
    if sent.isNull then return stored
    else
      let version ← (← stored.require "metadata").require "resourceVersion"
      if sent.same version then return stored
      else throw (.conflict s!"{a.shown} was modified concurrently")

/-! ## Calls -/

/-- The answer of a call, and the cluster after it. -/
abbrev Outcome := Except Fault Value × Cluster

/-- A call whose answer and new cluster are known, or that changes nothing. -/
def settle (c : Cluster) : Except Fault (Value × Cluster) → Outcome
  | .ok (v, after) => (.ok v, after)
  | .error f => (.error f, c)

/-- Stores an object whatever is there, without recording a write. -/
def put (c : Cluster) (object : Value) : Outcome :=
  match completed object with
  | .error f => (.error f, c)
  | .ok object => c.bumped.settle do
    let object ← withVersion object c.nextVersion
    let a ← checked (← addressOf object)
    return (object, c.bumped.withObject a object)

def get (c : Cluster) (a : Address) : Outcome := c.settle do
  match c.find? (← checked a) with
  | some object => return (object, c)
  | none => throw (Fault.missing a)

def create (c : Cluster) (object : Value) : Outcome :=
  match addressOf object >>= checked with
  | .error f => (.error f, c)
  | .ok a =>
    if (c.find? a).isSome then (.error (.alreadyExists s!"{a.shown} already exists"), c)
    else match c.put object with
      | (.ok stored, after) => (.ok stored, after.recorded "create" a)
      | failed => failed

/-- Replaces an object except for its status. -/
def update (c : Cluster) (object : Value) : Outcome := c.settle do
  let a ← addressOf object
  let stored ← c.current a object
  let replaced ← object.setField "status" (← stored.fieldOrNull "status")
  let replaced ← withVersion replaced c.nextVersion
  return (replaced, (c.bumped.withObject a replaced).recorded "update" a)

/-- Replaces the status of an object. -/
def updateStatus (c : Cluster) (object : Value) : Outcome := c.settle do
  let a ← addressOf object
  let stored ← c.current a object
  -- everything else is kept as it is stored, whatever was sent
  let replaced ← stored.setField "status" (← object.fieldOrNull "status")
  let replaced ← withVersion replaced c.nextVersion
  return (replaced, (c.bumped.withObject a replaced).recorded "update_status" a)

/-- Merges annotations into an object. -/
def annotate (c : Cluster) (a : Address) (annotations : Value) : Outcome := c.settle do
  match c.find? (← checked a) with
  | none => throw (Fault.missing a)
  | some stored =>
    let metadata ← (← stored.require "metadata").withDefault "annotations" (.object [])
    let merged ← (← metadata.require "annotations").overlay (← annotations.asObject)
    let metadata ← metadata.setField "annotations" merged
    let marked ← stored.setField "metadata" metadata
    let marked ← withVersion marked c.nextVersion
    return (marked, (c.bumped.withObject a marked).recorded "annotate" a)

def perform (c : Cluster) : StoreCall → Outcome
  | .get kind ns name => c.get ⟨kind, ns, name⟩
  | .create object => c.create object
  | .update object => c.update object
  | .updateStatus object => c.updateStatus object
  | .annotate kind ns name annotations => c.annotate ⟨kind, ns, name⟩ annotations

/-! ## Outside edits -/

def delete (c : Cluster) (a : Address) : Cluster :=
  { c with objects := c.objects.filter fun (b, _) => b ≠ a }

/-- Goes down a path of field names, making objects on the way, and changes the object at its end. -/
def editAt (change : Value → Except Fault Value) : List String → Value → Except Fault Value
  | [], v => change v
  | key :: path, v => do
    let v ← v.withDefault key (.object [])
    let inner ← editAt change path (← v.require key)
    v.setField key inner

/-- Edits the object at an address in place, without a new version. -/
def edit (c : Cluster) (a : Address) (change : Value → Except Fault Value) :
    Except Fault (Option Cluster) :=
  match c.find? a with
  | none => .ok none
  | some object => do return some (c.withObject a (← change object))

/-- Sets the field at the end of a path. -/
def setAt (path : List String) (value : Value) (object : Value) : Except Fault Value :=
  match path.getLast? with
  | some key => editAt (fun v => v.setField key value) path.dropLast object
  | none => .ok object

/-- Removes the field at the end of a path. -/
def unsetAt (path : List String) (object : Value) : Except Fault Value :=
  match path.getLast? with
  | some key =>
    editAt (fun v => match v with
      | .object fields => .ok (.object (Fields.erase key fields))
      | _ => .error .noAttribute) path.dropLast object
  | none => .ok object

end Cluster

end Reconciler
