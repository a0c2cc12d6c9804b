import Reconciler.Manifest.Provisioning
import Reconciler.Manifest.Starlane
import Reconciler.Proofs.Cluster

/-! # Where built objects go

A built object has the namespace of its parent and the name it was built with; so it is stored where the
operator will look for it. An owned object names its parent as its controller.

* `addressOf_built`: the address of an object that was built with `objectMeta`;
* `controllerOf_provisioningJob`: whose job a provisioning job is;
* `addressOf_storage`, `addressOf_workload`, `addressOf_endpoint`, `addressOf_credential`: where children
  go, and `WellFormed` the parents for which all of them can be built.
-/

namespace Reconciler.Manifest

open Cluster

/-! ## Metadata -/

/-- What metadata says of where the object goes. -/
theorem of_objectMeta {parent name labels metadata : Value} {owned : Bool}
    (h : objectMeta parent name labels owned = .ok metadata) :
    ∃ parentMeta ns, parent.field? "metadata" = some parentMeta ∧
      parentMeta.fieldOr "namespace" (.text "default") = .ok ns ∧
      metadata.field? "name" = some name ∧ metadata.field? "namespace" = some ns := by
  simp only [objectMeta, metadataOf, bind_eq_ok, Value.require_eq_ok] at h
  rcases h with ⟨parentMeta, hmeta, ns, hns, extra, -, h⟩
  refine ⟨parentMeta, ns, hmeta, hns, ?_⟩
  -- owned or not, name and namespace are the first fields
  cases owned with
  | false =>
    obtain rfl := Except.ok.inj h
    exact ⟨rfl, rfl⟩
  | true =>
    simp only [if_true, bind_eq_ok] at h
    rcases h with ⟨owner, -, h⟩
    obtain rfl := Except.ok.inj h
    exact ⟨rfl, rfl⟩

/-- The metadata of an owned object refers to one owner, its parent. -/
theorem ownerReferences_objectMeta {parent name labels metadata : Value}
    (h : objectMeta parent name labels true = .ok metadata) :
    ∃ owner, ownerReference parent = .ok owner ∧
      metadata.field? "ownerReferences" = some (.list [owner]) := by
  simp only [objectMeta, if_true, bind_eq_ok] at h
  rcases h with ⟨_, -, _, -, _, -, owner, howner, h⟩
  obtain rfl := Except.ok.inj h
  exact ⟨owner, howner, rfl⟩

/-- The name of a parent is the one in its metadata. -/
theorem nameOf_eq_ok {parent name : Value} :
    nameOf parent = .ok name ↔
      ∃ metadata, parent.field? "metadata" = some metadata ∧ metadata.field? "name" = some name := by
  simp only [nameOf, metadataOf, bind_eq_ok, Value.require_eq_ok]

/-- A built object is stored next to its parent, under its own kind and name. -/
theorem addressOf_built {parent object name labels metadata kind : Value} {owned : Bool}
    {a : Address} (hmeta : objectMeta parent name labels owned = .ok metadata)
    (hfield : object.field? "metadata" = some metadata) (hkind : object.field? "kind" = some kind)
    (hparent : addressOf parent = .ok a) : addressOf object = .ok ⟨kind, a.ns, name⟩ := by
  rcases of_objectMeta hmeta with ⟨parentMeta, ns, hpm, hns, hname, hmetaNs⟩
  rcases addressOf_eq_ok.mp hparent with ⟨parentMeta', hpm', -, hns', -⟩
  obtain rfl : parentMeta = parentMeta' := Option.some.inj (hpm.symm.trans hpm')
  obtain rfl : ns = a.ns := Except.ok.inj (hns.symm.trans hns')
  exact addressOf_eq_ok.mpr ⟨metadata, hfield, hkind, Value.fieldOr_of_field? hmetaNs _, hname⟩

/-! ## Owners -/

def uidOf (object : Value) : Value :=
  ((object.field? "metadata").bind (·.field? "uid")).getD .null

/-- Kind and uid of the owner that controls an object. -/
def controllerOf (object : Value) : Option (Value × Value) :=
  match (object.field? "metadata").bind (·.field? "ownerReferences") with
  | some (.list owners) => do
    let owner ← owners.find? fun owner => owner.field? "controller" = some (.bool true)
    return (← owner.field? "kind", ← owner.field? "uid")
  | _ => none

/-- The controller is read off the owner references. -/
theorem controllerOf_congr {v w : Value}
    (h : (v.field? "metadata").bind (·.field? "ownerReferences") =
      (w.field? "metadata").bind (·.field? "ownerReferences")) :
    controllerOf v = controllerOf w := by
  simp only [controllerOf, h]

/-- An owner that is referred to controls the object, and is given by its kind and uid. -/
theorem of_ownerReference {parent owner : Value} (h : ownerReference parent = .ok owner) :
    ∃ kind, parent.field? "kind" = some kind ∧ owner.field? "controller" = some (.bool true) ∧
      owner.field? "kind" = some kind ∧ owner.field? "uid" = some (uidOf parent) := by
  simp only [ownerReference, bind_eq_ok, Value.require_eq_ok] at h
  rcases h with ⟨metadata, hmeta, _, -, kind, hkind, _, hname, uid, huid, h⟩
  obtain rfl := Except.ok.inj h
  refine ⟨kind, hkind, rfl, rfl, ?_⟩
  rcases Value.fieldOr_eq_ok.mp hmeta with ⟨fields, rfl, hget⟩
  rcases Value.fieldOr_eq_ok.mp huid with ⟨metaFields, rfl, hgetUid⟩
  subst hgetUid
  -- an absent metadata has no name, so it is there
  cases hfind : Fields.find? "metadata" fields with
  | none =>
    rw [hfind] at hget
    cases hget
    simp [Value.field?, Fields.find?] at hname
  | some m =>
    rw [hfind] at hget
    obtain rfl : m = .object metaFields := hget
    simp [Value.field?, Fields.find?, uidOf, hfind]

/-- What was built as owned by a parent is controlled by it. -/
theorem controllerOf_built {parent object name labels metadata : Value} {a : Address}
    (hmeta : objectMeta parent name labels true = .ok metadata)
    (hfield : object.field? "metadata" = some metadata) (hparent : addressOf parent = .ok a) :
    controllerOf object = some (a.kind, uidOf parent) := by
  rcases ownerReferences_objectMeta hmeta with ⟨owner, howner, hrefs⟩
  rcases of_ownerReference howner with ⟨kind, hk, hcontroller, hkind, huid⟩
  rcases addressOf_eq_ok.mp hparent with ⟨_, -, hparentKind, -⟩
  obtain rfl : kind = a.kind := Option.some.inj (hk.symm.trans hparentKind)
  simp [controllerOf, hfield, hrefs, hcontroller, hkind, huid]

/-- A job is stored under the name of its request, and the request controls it. -/
theorem controllerOf_provisioningJob {request provisioner job : Value} {a : Address}
    (h : provisioningJob request provisioner = .ok job) (hrequest : addressOf request = .ok a) :
    addressOf job = .ok ⟨.text Kind.job, a.ns, a.name⟩ ∧
      controllerOf job = some (a.kind, uidOf request) := by
  simp only [provisioningJob, bind_eq_ok, pure_eq_ok] at h
  rcases h with ⟨_, -, name, hname, metadata, hmeta, _, -, _, -, _, -, _, -, rfl⟩
  rcases addressOf_eq_ok.mp hrequest with ⟨requestMeta, hrm, hkind, -, hrname⟩
  rcases nameOf_eq_ok.mp hname with ⟨requestMeta', hrm', hname'⟩
  obtain rfl : requestMeta = requestMeta' := Option.some.inj (hrm.symm.trans hrm')
  obtain rfl : name = a.name := Option.some.inj (hname'.symm.trans hrname)
  exact ⟨addressOf_built hmeta rfl rfl hrequest, controllerOf_built hmeta rfl hrequest⟩

/-! ## Children -/

/-- A parent that children can be built for. -/
structure WellFormed (parent : Value) : Prop where
  address : ∃ a, addressOf parent = .ok a
  apiVersion : ∃ v, parent.field? "apiVersion" = some v
  spec : parent.field? "spec" = none ∨ parent.field? "spec" = some .null ∨
    ∃ fields, parent.field? "spec" = some (.object fields)

/-- The exposure an object asks for; null when it asks for none. -/
def exposureOf (object : Value) : Value :=
  ((object.field? "spec").bind (·.field? "type")).getD .null

variable {parent m : Value} {a : Address}

/-- A spec that is absent is read as one without fields. -/
theorem specOf_of_field? {object v : Value} {key : String} (hread : object.field? key = some v)
    (hspec : Value.ObjectOrNone (object.field? "spec")) :
    ∃ fields, Manifest.specOf object = .ok (.object fields) ∧
      ∀ key, Fields.find? key fields = (object.field? "spec").bind (·.field? key) := by
  rcases hspec.read with ⟨fields, hfields, hfind⟩
  have hspecRead : object.fieldOrNull "spec" = .ok ((object.field? "spec").getD .null) :=
    Value.fieldOr_eq_getD hread
  refine ⟨fields, ?_, hfind⟩
  simp only [Manifest.specOf, hspecRead, hfields, bind, Except.bind]
  rfl

theorem WellFormed.specOf (h : WellFormed parent) :
    ∃ fields, Manifest.specOf parent = .ok (.object fields) ∧
      ∀ key, Fields.find? key fields = (parent.field? "spec").bind (·.field? key) := by
  rcases h.address with ⟨_, haddr⟩
  rcases addressOf_eq_ok.mp haddr with ⟨_, hmeta, -⟩
  exact specOf_of_field? hmeta h.spec

/-- For such a parent the metadata of a child can be built, owned or not. -/
theorem WellFormed.objectMeta (h : WellFormed parent) (name : Value) (owned : Bool) :
    ∃ metadata, Manifest.objectMeta parent name .null owned = .ok metadata := by
  rcases h.address with ⟨a, haddr⟩
  rcases h.apiVersion with ⟨v, hv⟩
  rcases addressOf_eq_ok.mp haddr with ⟨metadata, hmeta, hkind, hns, hname⟩
  -- everything a reference needs is there: version, kind and name; a uid may be absent
  have howner : ∃ owner, Manifest.ownerReference parent = .ok owner := by
    have huid : metadata.fieldOrNull "uid" = .ok ((metadata.field? "uid").getD .null) :=
      Value.fieldOr_eq_getD hname
    exact ⟨_, by simp only [Manifest.ownerReference, Value.fieldOr_of_field? hmeta,
      Value.require_eq_ok.mpr hv, Value.require_eq_ok.mpr hkind, Value.require_eq_ok.mpr hname, huid,
      bind, Except.bind]; rfl⟩
  rcases howner with ⟨owner, howner⟩
  cases owned with
  | true => exact ⟨_, by simp only [Manifest.objectMeta, metadataOf, Value.require_eq_ok.mpr hmeta, hns,
      howner, bind, Except.bind]; rfl⟩
  | false => exact ⟨_, by simp only [Manifest.objectMeta, metadataOf, Value.require_eq_ok.mpr hmeta, hns,
      bind, Except.bind]; rfl⟩

/-- A claim is built in the namespace of its parent, under its own name. -/
theorem addressOf_storage {s : Storage} (h : s.manifest parent = .ok m)
    (hparent : addressOf parent = .ok a) : addressOf m = .ok ⟨.text Kind.claim, a.ns, s.name⟩ := by
  simp only [Storage.manifest, bind_eq_ok] at h
  rcases h with ⟨metadata, hmeta, h⟩
  obtain rfl := Except.ok.inj h
  exact addressOf_built hmeta rfl rfl hparent

theorem WellFormed.storage (h : WellFormed parent) (s : Storage) :
    ∃ m, s.manifest parent = .ok m := by
  rcases h.objectMeta s.name s.bound with ⟨metadata, hmeta⟩
  exact ⟨_, by simp only [Storage.manifest, hmeta, bind, Except.bind]; rfl⟩

/-- A workload is built in the namespace of its parent, under its own name. -/
theorem addressOf_workload {w : Workload} (h : w.manifest parent = .ok m)
    (hparent : addressOf parent = .ok a) :
    addressOf m = .ok ⟨.text Kind.deployment, a.ns, w.name⟩ := by
  simp only [Workload.manifest, bind_eq_ok] at h
  rcases h with ⟨_, -, _, -, _, -, metadata, hmeta, _, -, h⟩
  obtain rfl := Except.ok.inj h
  exact addressOf_built hmeta rfl rfl hparent

/-- For such a parent every workload can be built whose lists are lists. -/
theorem WellFormed.workload (h : WellFormed parent) {w : Workload} {args env ports : Value}
    {labels : Fields} (hargs : Workload.listed w.args = .ok args)
    (henv : Workload.listed w.env = .ok env) (hports : Workload.listed w.ports = .ok ports)
    (hlabels : w.labels = .object labels) : ∃ m, w.manifest parent = .ok m := by
  rcases h.objectMeta w.name true with ⟨metadata, hmeta⟩
  exact ⟨_, by simp only [Workload.manifest, hargs, henv, hports, hmeta, hlabels, Value.asObject, bind,
    Except.bind]; rfl⟩

/-- An endpoint is built in the namespace of its parent, with the exposure it asks for or the default. -/
theorem addressOf_endpoint {e : Endpoint} (h : e.manifest parent = .ok m)
    (hparent : addressOf parent = .ok a) :
    addressOf m = .ok ⟨.text Kind.service, a.ns, e.name⟩ ∧
      ∃ spec, m.field? "spec" = some spec ∧
        spec.field? "type" = some (e.exposure.orElse (.text defaultExposure)) := by
  simp only [Endpoint.manifest, bind_eq_ok] at h
  rcases h with ⟨metadata, hmeta, selector, -, h⟩
  obtain rfl := Except.ok.inj h
  exact ⟨addressOf_built hmeta rfl rfl hparent, _, rfl, rfl⟩

theorem WellFormed.endpoint (h : WellFormed parent) {e : Endpoint} {selector : Fields}
    (hselector : e.selector = .object selector) : ∃ m, e.manifest parent = .ok m := by
  rcases h.objectMeta e.name true with ⟨metadata, hmeta⟩
  exact ⟨_, by simp only [Endpoint.manifest, hmeta, hselector, Value.asObject, bind, Except.bind]; rfl⟩

/-- A credential has the address of its parent, but for the kind. -/
theorem addressOf_credential {password : Value} (h : credential parent password = .ok m)
    (hparent : addressOf parent = .ok a) : addressOf m = .ok ⟨.text Kind.secret, a.ns, a.name⟩ := by
  simp only [credential, credentialName, bind_eq_ok, nameOf_eq_ok] at h
  rcases h with ⟨name, ⟨metadata', hm', hname'⟩, metadata, hmeta, h⟩
  obtain rfl := Except.ok.inj h
  rcases addressOf_eq_ok.mp hparent with ⟨metadata'', hm'', -, -, hname''⟩
  obtain rfl := Option.some.inj (hm'.symm.trans hm'')
  obtain rfl : name = a.name := Option.some.inj (hname'.symm.trans hname'')
  exact addressOf_built hmeta rfl rfl hparent

theorem WellFormed.credential (h : WellFormed parent) (password : Value) :
    ∃ m, Manifest.credential parent password = .ok m := by
  rcases h.address with ⟨a, haddr⟩
  rcases addressOf_eq_ok.mp haddr with ⟨m, hm, -, -, hname⟩
  have hnameOf := nameOf_eq_ok.mpr ⟨m, hm, hname⟩
  rcases h.objectMeta a.name true with ⟨metadata, hmeta⟩
  exact ⟨_, by simp only [Manifest.credential, credentialName, hnameOf, hmeta, bind, Except.bind]; rfl⟩

end Reconciler.Manifest
