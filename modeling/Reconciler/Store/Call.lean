import Reconciler.Access

/-! # Store calls

The five calls a store understands. Reads name the object; writes send it whole, and the object says
itself which one it is.
-/

namespace Reconciler

/-- A call to the store. -/
inductive StoreCall where
  /-- Fetches an object. -/
  | get (kind ns name : Value)
  /-- Creates an object; fails when its name is taken. -/
  | create (object : Value)
  /-- Replaces an object except for its status; fails when the version sent is stale. -/
  | update (object : Value)
  /-- Replaces the status of an object; fails when the version sent is stale. -/
  | updateStatus (object : Value)
  /-- Merges annotations into an object, whatever its version. -/
  | annotate (kind ns name annotations : Value)
deriving DecidableEq, Repr

namespace StoreCall

def operation : StoreCall → String
  | get _ _ _ => "get"
  | create _ => "create"
  | update _ => "update"
  | updateStatus _ => "update_status"
  | annotate _ _ _ _ => "annotate"

/-- The kind of the object a call is about. -/
def kind : StoreCall → Except Fault Value
  | get kind _ _ | annotate kind _ _ _ => .ok kind
  | create object | update object | updateStatus object => object.require "kind"

/-- Whether a call changes the store when it succeeds. -/
def writes : StoreCall → Bool
  | get _ _ _ => false
  | _ => true

end StoreCall

structure Address where
  kind : Value
  ns : Value
  name : Value
deriving DecidableEq, Repr

namespace Address

/-- The address as messages show it. -/
def shown (a : Address) : String :=
  s!"{a.kind.shown} {a.ns.shown}/{a.name.shown}"

/-- Whether all parts of an address can name something. -/
def nameable (a : Address) : Bool :=
  a.kind.nameable && a.ns.nameable && a.name.nameable

end Address

/-- The fault that reports a missing object. -/
def Fault.missing (a : Address) : Fault :=
  .notFound a.kind a.ns a.name

end Reconciler
