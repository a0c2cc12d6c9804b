import Reconciler.Resource.Names
import Reconciler.Store.Call

/-! # Calls to the API server

The API server has one interface for each group of built-in kinds and one for all custom kinds. A call
names the interface, the method and the arguments, and both follow from the kind of the object and from
what is to be done with it.
-/

namespace Reconciler

/-- How a kind is served. -/
inductive Served where
  /-- A built-in kind: its interface, and its name in method names. -/
  | builtin (api resource : String)
  /-- A custom kind: its plural. -/
  | custom (plural : String)
deriving DecidableEq, Repr

namespace Served

def customKinds : List (String × Served) := [
  (Kind.starlane, custom "starlanes"),
  (Kind.postgres, custom "postgres"),
  (Kind.provisioner, custom "starlaneprovisioners"),
  (Kind.resource, custom "starlaneresources"),
  (Kind.provisioningJob, custom "starlaneprovisioningjobs")]

def builtinKinds : List (String × Served) := [
  (Kind.claim, builtin "core" "persistent_volume_claim"),
  (Kind.secret, builtin "core" "secret"),
  (Kind.service, builtin "core" "service"),
  (Kind.deployment, builtin "apps" "deployment"),
  (Kind.job, builtin "batch" "job")]

def kinds : List (String × Served) := customKinds ++ builtinKinds

/-- How a kind is served; a kind that is not is a fault. -/
def ofKind (kind : Value) : Except Fault (String × Served) :=
  match kind with
  | .text k => match kinds.lookup k with
    | some served => .ok (k, served)
    | none => unsupported
  | _ => if kind.nameable then unsupported else .error .wrongShape
where
  /-- The fault for a kind that is not served. -/
  unsupported : Except Fault (String × Served) :=
    .error (.store s!"unsupported kind {kind.shown}" .null)

end Served

/-- What is done with an object. -/
inductive Verb where
  | read | create | replace | replaceStatus | patch
deriving DecidableEq, Repr

/-- A call to the API server. Only reads have no body, and only creates have no name. -/
structure ApiCall where
  verb : Verb
  served : Served
  ns : Value
  name : Value
  body : Value
deriving DecidableEq, Repr

namespace ApiCall

def api (c : ApiCall) : String :=
  match c.served with
  | .builtin api _ => api
  | .custom _ => "custom"

def method (c : ApiCall) : String :=
  match c.served with
  | .custom _ => match c.verb with
    | .read => "get_namespaced_custom_object"
    | .create => "create_namespaced_custom_object"
    | .replace => "replace_namespaced_custom_object"
    | .replaceStatus => "replace_namespaced_custom_object_status"
    | .patch => "patch_namespaced_custom_object"
  | .builtin _ resource => match c.verb with
    | .read => s!"read_namespaced_{resource}"
    | .create => s!"create_namespaced_{resource}"
    | .replace => s!"replace_namespaced_{resource}"
    | .replaceStatus => s!"replace_namespaced_{resource}_status"
    | .patch => s!"patch_namespaced_{resource}"

/-- The arguments that say which object is meant. -/
def addressing (c : ApiCall) : Fields :=
  (match c.served with
    | .custom plural => [("group", .text apiGroup), ("version", .text apiVersion),
        ("namespace", c.ns), ("plural", .text plural)]
    | .builtin _ _ => [("namespace", c.ns)])
  ++ (if c.verb = .create then [] else [("name", c.name)])

def args (c : ApiCall) : Fields :=
  c.addressing
    ++ (if c.verb = .read then [] else [("body", c.body), ("field_manager", .text operatorName)])

end ApiCall

/-- The methods of the client for built-in kinds: of which interface, under which name. -/
abbrev Methods := (api method : String) → Bool

/-- Whether there is a method for a call. Methods for built-in kinds are looked up by names that are put
together; the few for custom kinds are there. -/
def Methods.offer (methods : Methods) (c : ApiCall) : Bool :=
  match c.served with
  | .builtin api _ => methods api c.method
  | .custom _ => true

end Reconciler
