import Reconciler.Proofs.Convergence.Wiring
import Reconciler.Proofs.Ownership.Writes

/-! # From a child to its owner

A built object refers to its parent, and when it changes later, the reference leads back to the parent. The
reference is written by the builders and read by the reaction to events, which have only the names of the
fields in common.

Main definitions and statements:

* `controls`: a reference to a controller that the operator made, and `ownerIn` what it leads to;
* `owningResource_eq`: the owner that is found is that of the first such reference;
* `owningResource_built`: for what was built as owned it is the parent;
* `wakeUpFor`, `Woken`: what an event calls for and comes to, and `childEvent_wakes`;
* `marker_inj`: what the owner is marked with tells kind, name and version of the child;
* `children_lead_to_owners`: all of these together.
-/

namespace Reconciler

open Cluster Manifest

/-! ## References -/

/-- Whether an object is referred to as the controller, and as one of the operator's own group and of some
kinds. -/
def controls (kinds : List String) (ref : Value) : Bool :=
  ((ref.field? "controller").getD .null).truthy &&
    ref.field? "apiVersion" = some (.text apiGroupVersion) &&
    kinds.any fun kind => ref.field? "kind" = some (.text kind)

/-- What the first reference to a controller leads to: its kind, its name, and the namespace of the child. -/
def ownerIn (kinds : List String) (metadata : Value) : Option (Value × Identity) := do
  let ref ← (itemsOf (metadata.field? "ownerReferences")).find? (controls kinds)
  return (← ref.field? "kind",
    ⟨(metadata.field? "namespace").getD (.text "default"), ← ref.field? "name"⟩)

/-- A child with a name, and with references to owners that have names, if any. -/
structure NamedChild (body metadata : Value) : Prop where
  has : body.field? "metadata" = some metadata
  name : ∃ name, metadata.field? "name" = some name
  references : Value.ListOrNone (metadata.field? "ownerReferences")
  named : ∀ ref ∈ itemsOf (metadata.field? "ownerReferences"), ∃ name, ref.field? "name" = some name

section References

variable {kinds : List String} {body metadata : Value}

/-- A value is the same as a text only if it is that text. -/
theorem same_text (v : Value) (s : String) : v.same (.text s) = decide (v = .text s) := by
  cases v with
  | text t => simp [Value.same, Bool.beq_eq_decide_eq]
  | _ => simp [Value.same, Value.number?]

theorem isText_eq (v : Value) (s : String) : v.isText s = decide (v = .text s) := by
  cases v with
  | text t => simp [Value.isText, Bool.beq_eq_decide_eq]
  | _ => simp [Value.isText]

/-- The references are gone through up to the first that fits. -/
theorem controllerAmong_eq (kinds : List String) {references : List Value}
    (hnamed : ∀ ref ∈ references, ∃ name, ref.field? "name" = some name) :
    controllerAmong (kinds.map .text) references = .ok (references.find? (controls kinds)) := by
  induction references with
  | nil => rfl
  | cons ref rest ih =>
    have hrest := ih fun ref href => hnamed ref (List.mem_cons_of_mem _ href)
    obtain ⟨name, hname⟩ := hnamed ref List.mem_cons_self
    -- a reference with a name is an object, so absent fields are read as null
    have hread : ∀ key, ref.fieldOrNull key = .ok ((ref.field? key).getD .null) :=
      fun key => Value.fieldOr_eq_getD hname
    have hkinds : (kinds.map Value.text).any ((ref.field? "kind").getD .null).same =
        kinds.any fun kind => ref.field? "kind" = some (.text kind) := by
      rw [List.any_map]
      congr 1
      funext kind
      cases ref.field? "kind" <;> simp [same_text]
    have hversion : ((ref.field? "apiVersion").getD .null).isText apiGroupVersion =
        decide (ref.field? "apiVersion" = some (.text apiGroupVersion)) := by
      cases ref.field? "apiVersion" <;> simp [isText_eq]
    simp only [controllerAmong, hread, bind, Except.bind, hkinds, hversion, hrest, List.find?_cons,
      controls]
    cases ((ref.field? "controller").getD .null).truthy <;>
    cases decide (ref.field? "apiVersion" = some (.text apiGroupVersion)) <;>
    cases kinds.any fun kind => ref.field? "kind" = some (.text kind) <;> rfl

/-- A controller that is found has a kind. -/
theorem kind_of_controls {ref : Value} (h : controls kinds ref) : ∃ kind, ref.field? "kind" = some kind := by
  simp only [controls, Bool.and_eq_true, List.any_eq_true, decide_eq_true_eq] at h
  obtain ⟨-, kind, -, hkind⟩ := h
  exact ⟨_, hkind⟩

/-- The items of a list that may be absent are read as they are. -/
theorem elements_eq_itemsOf {part : Option Value} (h : Value.ListOrNone part) :
    ((part.getD .null).orElse (.list [])).elements = .ok (itemsOf part) := by
  rcases h with rfl | rfl | ⟨items, rfl⟩
  · rfl
  · rfl
  · cases items <;> rfl

/-- The owner that is found is that of the first reference to a controller. -/
theorem owningResource_eq (h : NamedChild body metadata) (kinds : List String) :
    owningResource body (kinds.map .text) = .ok (ownerIn kinds metadata) := by
  obtain ⟨name, hname⟩ := h.name
  have hmeta : body.fieldOr "metadata" (.object []) = .ok metadata := Value.fieldOr_of_field? h.has _
  have hreferences : metadata.fieldOrNull "ownerReferences" =
      .ok ((metadata.field? "ownerReferences").getD .null) := Value.fieldOr_eq_getD hname
  simp only [owningResource, hmeta, hreferences, elements_eq_itemsOf h.references,
    controllerAmong_eq kinds h.named, bind, Except.bind, ownerIn]
  -- no reference fits, or the first that does has a kind and a name
  cases hfind : (itemsOf (metadata.field? "ownerReferences")).find? (controls kinds) with
  | none => rfl
  | some ref =>
    obtain ⟨refName, hrefName⟩ := h.named ref (List.mem_of_find?_eq_some hfind)
    obtain ⟨kind, hkind⟩ := kind_of_controls (List.find?_some hfind)
    simp only [Value.require_eq_ok.mpr hkind, Value.require_eq_ok.mpr hrefName,
      Value.fieldOr_eq_getD hname, Option.bind_some, hkind, hrefName]
    rfl

end References

/-! ## What is built -/

/-- Whether the storage of a parent goes away with it. -/
def claimsBound (parent : Value) : Bool :=
  (((specOf parent).toOption.bind (·.field? "managePvc")).getD (.bool true)).truthy

/-- An object that was built next to a parent, and is owned by it or not. -/
def BuiltFor (parent : Value) (owned : Bool) (m : Value) : Prop :=
  ∃ metadata name, objectMeta parent name .null owned = .ok metadata ∧ m.field? "metadata" = some metadata

section Built

variable {parent m ns name : Value} {family : Family}

/-- The reference to a parent that is a service or a database leads to it. -/
theorem of_ownerReference_parent (haddr : addressOf parent = .ok ⟨.text family.kind, ns, name⟩)
    (hversion : parent.field? "apiVersion" = some (.text apiGroupVersion)) {owner : Value}
    (h : ownerReference parent = .ok owner) :
    controls [Kind.starlane, Kind.postgres] owner ∧ owner.field? "kind" = some (.text family.kind) ∧
      owner.field? "name" = some name := by
  obtain ⟨metadata, hmeta, hkind, -, hname⟩ := addressOf_eq_ok.mp haddr
  simp only [ownerReference, bind_eq_ok, Value.fieldOr_of_field? hmeta, Value.require_eq_ok.mpr hversion,
    Value.require_eq_ok.mpr hkind, Except.ok.injEq] at h
  obtain ⟨_, rfl, _, rfl, _, rfl, name', hname', uid, -, h⟩ := h
  obtain rfl : name' = name := Except.ok.inj (hname'.symm.trans (Value.require_eq_ok.mpr hname))
  obtain rfl := Except.ok.inj h
  refine ⟨?_, rfl, rfl⟩
  cases family with
  | service => simp [controls, Value.field?, Fields.find?, Value.truthy, Family.kind]
  | database => simp [controls, Value.field?, Fields.find?, Value.truthy, Family.kind]

/-- What was built as owned leads to its parent, and what was not leads nowhere. -/
theorem owningResource_built (haddr : addressOf parent = .ok ⟨.text family.kind, ns, name⟩)
    (hversion : parent.field? "apiVersion" = some (.text apiGroupVersion)) {owned : Bool}
    (h : BuiltFor parent owned m) :
    owningResource m ownerKinds =
      .ok (if owned then some (.text family.kind, ⟨ns, name⟩) else none) := by
  obtain ⟨metadata, child, hbuilt, hfield⟩ := h
  obtain ⟨parentMeta, ns', hmeta, hns', hchild, hmetaNs⟩ := of_objectMeta hbuilt
  obtain ⟨parentMeta', hmeta', -, hns, -⟩ := addressOf_eq_ok.mp haddr
  obtain rfl : parentMeta = parentMeta' := Option.some.inj (hmeta.symm.trans hmeta')
  obtain rfl : ns' = ns := Except.ok.inj (hns'.symm.trans hns)
  have howner : ownerKinds = [Kind.starlane, Kind.postgres].map .text := rfl
  -- with a reference, it is the only one and leads to the parent; without one, nothing is found
  cases owned with
  | true =>
    obtain ⟨owner, howner', hrefs⟩ := ownerReferences_objectMeta hbuilt
    obtain ⟨hcontrols, hkind, hname⟩ := of_ownerReference_parent haddr hversion howner'
    have hnamed : NamedChild m metadata :=
      ⟨hfield, ⟨child, hchild⟩, .inr (.inr ⟨_, hrefs⟩), by simp [hrefs, itemsOf, hname]⟩
    rw [howner, owningResource_eq hnamed, ownerIn, hrefs, itemsOf, List.find?_cons, hcontrols]
    simp [hkind, hname, hmetaNs]
  | false =>
    have hrefs : metadata.field? "ownerReferences" = none := by
      simp only [objectMeta, bind_eq_ok] at hbuilt
      obtain ⟨_, -, _, -, _, -, hbuilt⟩ := hbuilt
      obtain rfl := Except.ok.inj hbuilt
      rfl
    have hnamed : NamedChild m metadata :=
      ⟨hfield, ⟨child, hchild⟩, .inl hrefs, by simp [hrefs, itemsOf]⟩
    rw [howner, owningResource_eq hnamed, ownerIn, hrefs]
    rfl

end Built

section Builders

variable {parent m : Value} {owned : Bool}

/-- A read that comes to nothing but objects that were built next to a parent. -/
def Attaches (parent : Value) (owned : Bool) (read : Except Fault Value) : Prop :=
  ∀ m, read = .ok m → BuiltFor parent owned m

theorem Attaches.bind {α : Type} {read : Except Fault α} {next : α → Except Fault Value}
    (h : ∀ a, Attaches parent owned (next a)) : Attaches parent owned (read >>= next) := by
  intro m hm
  obtain ⟨a, -, hm⟩ := bind_eq_ok.mp hm
  exact h a m hm

theorem attaches_storage (s : Storage) : Attaches parent s.bound (s.manifest parent) := by
  intro m h
  simp only [Storage.manifest, bind_eq_ok] at h
  obtain ⟨metadata, hmeta, h⟩ := h
  obtain rfl := Except.ok.inj h
  exact ⟨metadata, s.name, hmeta, rfl⟩

theorem attaches_workload (w : Workload) : Attaches parent true (w.manifest parent) := by
  intro m h
  simp only [Workload.manifest, bind_eq_ok] at h
  obtain ⟨_, -, _, -, _, -, metadata, hmeta, _, -, h⟩ := h
  obtain rfl := Except.ok.inj h
  exact ⟨metadata, w.name, hmeta, rfl⟩

theorem attaches_endpoint (e : Endpoint) : Attaches parent true (e.manifest parent) := by
  intro m h
  simp only [Endpoint.manifest, bind_eq_ok] at h
  obtain ⟨metadata, hmeta, _, -, h⟩ := h
  obtain rfl := Except.ok.inj h
  exact ⟨metadata, e.name, hmeta, rfl⟩

theorem attaches_credential (password : Value) : Attaches parent true (credential parent password) := by
  intro m h
  simp only [credential, bind_eq_ok] at h
  obtain ⟨name, -, metadata, hmeta, h⟩ := h
  obtain rfl := Except.ok.inj h
  exact ⟨metadata, name, hmeta, rfl⟩

/-- The storage of a database is bound to its owner as the spec says. -/
theorem attaches_databaseClaim (name : Except Fault Value) (size : String) :
    Attaches parent (claimsBound parent) (databaseClaim parent name size) := by
  intro m h
  simp only [databaseClaim, bind_eq_ok] at h
  obtain ⟨spec, hspec, name, -, storageClass, -, bound, hbound, h⟩ := h
  have hclaims : claimsBound parent = bound.truthy := by
    obtain ⟨fields, rfl, rfl⟩ := Value.fieldOr_eq_ok.mp hbound
    simp [claimsBound, hspec, Except.toOption, Value.field?]
  rw [hclaims]
  exact attaches_storage _ m h

/-- A database is owned by its parent, whatever it is called. -/
theorem attaches_databaseWorkload (images : Images) (name : Value) :
    Attaches parent true (databaseWorkload images parent name) :=
  .bind fun _ => attaches_workload _

end Builders

/-! ## Tiers -/

section Tiers

variable {parent m : Value} {tier : Tier}

/-- A tier that is read off its parent builds what the read comes to. -/
theorem Tier.Builds.of_lift {read : Except Fault Value} (hbuild : tier.build = Pass.lift read)
    (h : tier.Builds m) : read = .ok m := by
  obtain ⟨history, hrun⟩ := h
  have hensures : Pass.Ensures noted (fun _ _ => True)
      (fun _ r => r = read.mapError fun f => (⟨f, none⟩ : Failure)) (Pass.lift read) [] :=
    (Pass.ensures_lift read []).mpr rfl
  rw [hbuild] at hrun
  have hresult : Except.ok m = read.mapError fun f => (⟨f, none⟩ : Failure) :=
    Program.Ensures.of_leads hensures hrun
  cases read with
  | ok v => exact congrArg Except.ok (Except.ok.inj hresult).symm
  | error f => cases hresult

/-- A tier that draws a password builds the credential with one. -/
theorem Tier.Builds.of_credential (hbuild : tier.build = buildCredential parent) (h : tier.Builds m) :
    ∃ password, credential parent (.text password) = .ok m := by
  obtain ⟨history, hrun⟩ := h
  -- every run of the build draws some password, and builds with it
  have hensures : Pass.Ensures noted (fun _ _ => True)
      (fun _ r => ∀ m, r = .ok m → ∃ password, credential parent (.text password) = .ok m)
      (buildCredential parent) [] := by
    unfold buildCredential
    rw [Pass.ensures_bind]
    refine draw_ensures fun password => ?_
    rw [Pass.andThen, Pass.ensures_liftRead]
    cases hread : credential parent (.text password) with
    | ok v =>
      rintro m ⟨⟩
      exact ⟨password, hread⟩
    | error f =>
      rintro m ⟨⟩
  rw [hbuild] at hrun
  exact Program.Ensures.of_leads hensures hrun m rfl

/-- A parent with a name, whatever it is, has tiers. -/
theorem Family.exists_tiers_of_name (family : Family) (images : Images) {a : Address}
    (haddr : addressOf parent = .ok a) : ∃ tiers, family.tiers images parent = .ok tiers := by
  obtain ⟨metadata, hmeta, -, -, hname⟩ := addressOf_eq_ok.mp haddr
  have hnameOf : nameOf parent = .ok a.name := nameOf_eq_ok.mpr ⟨metadata, hmeta, hname⟩
  cases family with
  | service =>
    exact ⟨_, by simp only [tiers, serviceTiers, Starlane.databaseName, Starlane.keycloakName,
      Starlane.webName, Starlane.gatewayName, Starlane.named, credentialName, hnameOf, bind, Except.bind]
                 rfl⟩
  | database =>
    exact ⟨_, by simp only [tiers, databaseTiers, credentialName, hnameOf, bind, Except.bind]; rfl⟩

/-- All that the tiers of a parent build is owned by it, except for storage that is not to go away with it. -/
theorem Family.tiers_attach (family : Family) (images : Images) {all : List Tier}
    (hall : family.tiers images parent = .ok all) :
    ∀ tier ∈ all, ∀ m, tier.Builds m →
      BuiltFor parent (decide (tier.kind ≠ Kind.claim) || claimsBound parent) m := by
  have hclaim : (decide (Kind.claim ≠ Kind.claim) || claimsBound parent) = claimsBound parent := by
    simp
  have hothers : ∀ kind ∈ [Kind.secret, Kind.deployment, Kind.service],
      (decide (kind ≠ Kind.claim) || claimsBound parent) = true := by
    simp [Kind.claim, Kind.secret, Kind.deployment, Kind.service]
  simp only [List.forall_mem_cons, List.not_mem_nil, false_imp_iff, implies_true, and_true] at hothers
  -- a tier builds by reading off the parent, or by drawing a password
  have hlift : ∀ {tier : Tier} {read : Except Fault Value} {owned : Bool},
      Attaches parent owned read → tier.build = Pass.lift read → ∀ m, tier.Builds m →
        BuiltFor parent owned m :=
    fun hread hbuild m hm => hread m (hm.of_lift hbuild)
  have hcredential : ∀ {tier : Tier}, tier.build = buildCredential parent → ∀ m, tier.Builds m →
      BuiltFor parent true m := by
    intro tier hbuild m hm
    obtain ⟨password, hpassword⟩ := hm.of_credential hbuild
    exact attaches_credential _ m hpassword
  cases family with
  | service =>
    simp only [tiers, serviceTiers, bind_eq_ok] at hall
    obtain ⟨name, -, database, -, keycloak, -, secret, -, web, -, gateway, -, hall⟩ := hall
    obtain rfl := Except.ok.inj hall
    simp only [List.forall_mem_cons, List.not_mem_nil, false_imp_iff, implies_true, and_true, hclaim,
      hothers]
    exact ⟨hlift (attaches_databaseClaim _ _) rfl, hcredential rfl,
      hlift (.bind fun _ => attaches_databaseWorkload _ _) rfl,
      hlift (.bind fun _ => attaches_endpoint _) rfl,
      hlift (.bind fun _ => .bind fun _ => .bind fun _ => attaches_workload _) rfl,
      hlift (.bind fun _ => attaches_endpoint _) rfl,
      hlift (.bind fun _ => .bind fun _ => .bind fun _ => .bind fun _ => .bind fun _ =>
        attaches_workload _) rfl,
      hlift (.bind fun _ => .bind fun _ => .bind fun _ => .bind fun _ => attaches_endpoint _) rfl,
      hlift (.bind fun _ => .bind fun _ => .bind fun _ => .bind fun _ => attaches_endpoint _) rfl⟩
  | database =>
    simp only [tiers, databaseTiers, bind_eq_ok] at hall
    obtain ⟨name, -, secret, -, hall⟩ := hall
    obtain rfl := Except.ok.inj hall
    simp only [List.forall_mem_cons, List.not_mem_nil, false_imp_iff, implies_true, and_true, hclaim,
      hothers]
    exact ⟨hlift (attaches_databaseClaim _ _) rfl, hcredential rfl,
      hlift (.bind fun _ => attaches_databaseWorkload _ _) rfl,
      hlift (.bind fun _ => .bind fun _ => .bind fun _ => attaches_endpoint _) rfl⟩

end Tiers

/-! ## Events -/

/-- What an event about a child calls for: nothing, or to mark an owner. -/
def wakeUpFor (body type : Value) : Except Fault (Option (Value × Identity × String)) := do
  if type = .text "MODIFIED" ∨ type = .text "DELETED" then
    let child : Value := .object (← body.asObject)
    match ← owningResource child ownerKinds with
    | none => return none
    | some (kind, id) => return some (kind, id, ← childMarker child)
  else return none

/-- What the reaction to an event comes to: one annotation of the owner, if there is one to mark, and no
failure of the store that it has a class for; nothing at all, if there is none or the child has no readable
name. -/
def Woken : Except Fault (Option (Value × Identity × String)) → History → Except Failure Unit → Prop
  | .error f, h, result => h = [] ∧ result = .error ⟨f, none⟩
  | .ok none, h, result => h = [] ∧ result = .ok ()
  | .ok (some (kind, id, marker)), h, result => ∃ reply,
    h = [(.annotate kind id.ns id.name (.object [(childChangedKey, .text marker)]), reply)] ∧
      (result = .ok () ∨ ∃ f, reply = .error f ∧ f.belongsTo .store = false ∧ result = .error f)

section Events

variable {body metadata : Value}

/-- The owner of a child is annotated once, if there is one, and a failed annotation is reported. -/
theorem nudgeOwner_wakes (child : Value) :
    Pass.Ensures noted (fun _ _ => True)
      (fun h result => Woken (do
        match ← owningResource child ownerKinds with
        | none => return none
        | some (kind, id) => return some (kind, id, ← childMarker child)) h (result.map fun _ => ()))
      (nudgeOwner child ownerKinds) [] := by
  unfold nudgeOwner
  refine Pass.ensures_read (fun owner (howner : owningResource child ownerKinds = .ok owner) => ?_)
    (fun f (hf : owningResource child ownerKinds = .error f) => ?_)
  · rw [howner]
    cases owner with
    | none => exact ⟨rfl, rfl⟩
    | some found =>
      obtain ⟨kind, id⟩ := found
      refine Pass.ensures_read (fun marker (hmarker : childMarker child = .ok marker) => ?_)
        (fun f (hf : childMarker child = .error f) => ?_)
      · rw [hmarker]
        refine Pass.ensures_attempt trivial ?_
        -- the annotation is called for once, and a failure ends it
        rintro (f | marked) h rfl
        · dsimp only
          split
          · exact Pass.ensures_tell ⟨_, rfl, .inl rfl⟩
          · split
            · exact Pass.ensures_tell ⟨_, rfl, .inl rfl⟩
            · next hstore => exact ⟨_, rfl, .inr ⟨f, rfl, by simpa using hstore, rfl⟩⟩
        · exact ⟨_, rfl, .inl rfl⟩
      · rw [hf]
        exact ⟨rfl, rfl⟩
  · rw [hf]
    exact ⟨rfl, rfl⟩

/-- A child has changed when it was modified or deleted, and not when it was added. -/
theorem isChange_iff {type : Value} :
    isChange type = true ↔ type = .text "MODIFIED" ∨ type = .text "DELETED" := by
  simp [isChange, isText_eq]

/-- Whatever the child looks like and whatever the store answers, an event does what it calls for. -/
theorem childEvent_wakes (body type : Value) :
    Pass.Ensures noted (fun _ _ => True) (Woken (wakeUpFor body type)) (childEvent body type) [] := by
  unfold childEvent wakeUpFor
  simp only [isChange_iff]
  split
  · refine Pass.ensures_read (fun fields (hfields : body.asObject = .ok fields) => ?_)
      (fun f (hf : body.asObject = .error f) => ?_)
    · rw [hfields, Pass.ensures_bind]
      refine Pass.Ensures.mono (nudgeOwner_wakes (.object fields)) (fun _ _ h => h) ?_
      rintro history (f | owner) hwoken
      · exact hwoken
      · exact hwoken
    · rw [hf]
      exact ⟨rfl, rfl⟩
  · exact ⟨rfl, rfl⟩

/-- An event about the change of a named child calls for its owner. -/
theorem wakeUpFor_named (h : NamedChild body metadata) :
    ∃ marker, childMarker body = .ok marker ∧ ∀ type, wakeUpFor body type =
      .ok (if type = .text "MODIFIED" ∨ type = .text "DELETED" then
        (ownerIn [Kind.starlane, Kind.postgres] metadata).map fun (kind, id) => (kind, id, marker)
      else none) := by
  obtain ⟨name, hname⟩ := h.name
  -- the marker can be read off everything that has a name
  have hmarker : ∃ marker, childMarker body = .ok marker :=
    ⟨_, by simp only [childMarker, Value.require_eq_ok.mpr h.has, Value.fieldOr_eq_getD h.has,
      Value.require_eq_ok.mpr hname, Value.fieldOr_eq_getD hname, bind, Except.bind]; rfl⟩
  obtain ⟨marker, hmarker⟩ := hmarker
  refine ⟨marker, hmarker, fun type => ?_⟩
  have howner : owningResource body ownerKinds = _ := owningResource_eq h [Kind.starlane, Kind.postgres]
  obtain ⟨fields, rfl, -⟩ := Value.fieldOr_eq_ok.mp (Value.fieldOr_of_field? h.has .null)
  unfold wakeUpFor
  split
  · simp only [Value.asObject, howner, bind, Except.bind]
    cases ownerIn [Kind.starlane, Kind.postgres] metadata with
    | none => rfl
    | some found =>
      simp only [hmarker]
      rfl
  · rfl

end Events

/-! ## Markers -/

/-- Kind, name and version of a child, as its events have them. -/
structure ChildVersion where
  kind : String
  name : String
  version : String
deriving DecidableEq, Repr

/-- A child has a kind, a name and a version; a kind or a version that is absent is read as the default. -/
structure ChildVersion.Of (c : ChildVersion) (body : Value) : Prop where
  kind : body.fieldOr "kind" (.text "Object") = .ok (.text c.kind)
  named : ∃ metadata, body.field? "metadata" = some metadata ∧
    metadata.field? "name" = some (.text c.name) ∧
    metadata.fieldOr "resourceVersion" (.text "") = .ok (.text c.version)

/-- The kind ends at the first slash of a marker, and the name at the first at sign behind it. -/
structure ChildVersion.Separable (c : ChildVersion) : Prop where
  kind : '/' ∉ c.kind.toList
  name : '@' ∉ c.name.toList

/-- The marker of a child is its kind, its name and its version, with a slash and an at sign between them. -/
theorem ChildVersion.Of.childMarker_eq {c : ChildVersion} {body : Value} (h : c.Of body) :
    childMarker body = .ok (c.kind ++ "/" ++ c.name ++ "@" ++ c.version) := by
  obtain ⟨metadata, hmeta, hname, hversion⟩ := h.named
  simp only [childMarker, Value.require_eq_ok.mpr hmeta, h.kind, Value.require_eq_ok.mpr hname, hversion,
    bind, Except.bind, Value.shown]
  rfl

/-- What comes before the first `c` of a text can be told from what comes behind it. -/
theorem append_cons_inj {c : Char} {s t s' t' : List Char} (hs : c ∉ s) (hs' : c ∉ s')
    (h : s ++ c :: t = s' ++ c :: t') : s = s' ∧ t = t' := by
  induction s generalizing s' with
  | nil =>
    cases s' with
    | nil => exact ⟨rfl, (List.cons.inj h).2⟩
    | cons d s' => exact absurd (List.cons.inj h).1 fun hd => hs' (hd ▸ List.mem_cons_self)
  | cons d s ih =>
    cases s' with
    | nil => exact absurd (List.cons.inj h).1 fun hd => hs (hd ▸ List.mem_cons_self)
    | cons d' s' =>
      obtain ⟨rfl, hrest⟩ := List.cons.inj h
      rw [List.mem_cons, not_or] at hs hs'
      obtain ⟨rfl, ht⟩ := ih hs.2 hs'.2 hrest
      exact ⟨rfl, ht⟩

/-- A marker tells kind, name and version. -/
theorem marker_inj {c c' : ChildVersion} (hc : c.Separable) (hc' : c'.Separable)
    (h : c.kind ++ "/" ++ c.name ++ "@" ++ c.version = c'.kind ++ "/" ++ c'.name ++ "@" ++ c'.version) :
    c = c' := by
  have htext : ∀ c : ChildVersion, (c.kind ++ "/" ++ c.name ++ "@" ++ c.version).toList =
      c.kind.toList ++ '/' :: (c.name.toList ++ '@' :: c.version.toList) := by
    intro c
    simp only [String.toList_append, List.append_assoc]
    rfl
  have hlist := congrArg String.toList h
  rw [htext, htext] at hlist
  -- the kind ends at the first slash, and the name at the first at sign behind it
  obtain ⟨hkind, hrest⟩ := append_cons_inj hc.kind hc'.kind hlist
  obtain ⟨hname, hversion⟩ := append_cons_inj hc.name hc'.name hrest
  cases c
  cases c'
  simp_all [String.toList_inj]

/-! ## From a child to its owner -/

/-- The owner of what a parent builds is the parent. Of a named child the owner is the one that the first
reference to a controller names. An event that is no change, or whose child has no owner, asks nothing of the
store; any other annotates that owner once, whatever the answer. And children that differ in kind, name or
version mark their owners differently. -/
theorem children_lead_to_owners :
    (∀ (family : Family) (images : Images) (parent ns name : Value),
      addressOf parent = .ok ⟨.text family.kind, ns, name⟩ →
      parent.field? "apiVersion" = some (.text apiGroupVersion) →
      ∃ tiers, family.tiers images parent = .ok tiers ∧ ∀ tier ∈ tiers, ∀ m, tier.Builds m →
        owningResource m ownerKinds = .ok (if tier.kind = Kind.claim ∧ claimsBound parent = false
          then none else some (.text family.kind, ⟨ns, name⟩))) ∧
    (∀ body metadata, NamedChild body metadata →
      (∀ kinds, owningResource body (kinds.map .text) = .ok (ownerIn kinds metadata)) ∧
      ∃ marker, childMarker body = .ok marker ∧ ∀ type, wakeUpFor body type =
        .ok (if type = .text "MODIFIED" ∨ type = .text "DELETED" then
          (ownerIn [Kind.starlane, Kind.postgres] metadata).map fun (kind, id) => (kind, id, marker)
        else none)) ∧
    (∀ body type result h, Program.Leads (facing noted) (childEvent body type).run [] (.done result) h →
      Woken (wakeUpFor body type) h result) ∧
    ∀ (c c' : ChildVersion) (body body' : Value), c.Of body → c'.Of body' → c.Separable →
      c'.Separable → c ≠ c' → ∃ marker marker', childMarker body = .ok marker ∧
        childMarker body' = .ok marker' ∧ marker ≠ marker' := by
  refine ⟨?_, ?_, ?_, ?_⟩
  · intro family images parent ns name haddr hversion
    obtain ⟨tiers, htiers⟩ := family.exists_tiers_of_name images haddr
    refine ⟨tiers, htiers, fun tier htier m hm => ?_⟩
    rw [owningResource_built haddr hversion (family.tiers_attach images htiers tier htier m hm)]
    by_cases hkind : tier.kind = Kind.claim <;> cases claimsBound parent <;> simp [hkind]
  · exact fun body metadata h => ⟨owningResource_eq h, wakeUpFor_named h⟩
  · exact fun body type result h hrun => Program.Ensures.of_leads (childEvent_wakes body type) hrun
  · intro c c' body body' hc hc' hseparable hseparable' hne
    refine ⟨_, _, hc.childMarker_eq, hc'.childMarker_eq, fun h => hne ?_⟩
    exact marker_inj hseparable hseparable' h

/-- A child that an unrelated controller and an owner of another group are named for as well. -/
def pairedChild (version : String) : Value :=
  .object [("kind", .text Kind.service), ("metadata", metadata version)]
where
  /-- The metadata. -/
  metadata (version : String) : Value :=
    .object [("name", .text "space-web"), ("namespace", .text "lab"), ("resourceVersion", .text version),
      ("ownerReferences", .list [
        reference "v1" Kind.starlane "other" true, reference apiGroupVersion Kind.postgres "old" false,
        reference apiGroupVersion Kind.starlane "space" true])]
  /-- A reference. -/
  reference (version kind name : String) (controller : Bool) : Value :=
    .object [("apiVersion", .text version), ("kind", .text kind), ("name", .text name),
      ("controller", .bool controller)]

theorem named_pairedChild (version : String) :
    NamedChild (pairedChild version) (pairedChild.metadata version) := by
  refine ⟨rfl, ⟨_, rfl⟩, .inr (.inr ⟨_, rfl⟩), ?_⟩
  intro ref href
  have hreferences : ref ∈ [pairedChild.reference "v1" Kind.starlane "other" true,
      pairedChild.reference apiGroupVersion Kind.postgres "old" false,
      pairedChild.reference apiGroupVersion Kind.starlane "space" true] := href
  simp only [List.mem_cons, List.not_mem_nil, or_false] at hreferences
  rcases hreferences with rfl | rfl | rfl <;> exact ⟨_, rfl⟩

theorem sample_children_lead_to_owner :
    (∃ tiers ms, Family.service.tiers {} sampleService = .ok tiers ∧
      List.Forall₂ Tier.Builds tiers ms ∧ tiers.length = 9 ∧
      ∀ tier ∈ tiers, ∀ m, tier.Builds m →
        owningResource m ownerKinds = .ok (some (.text Kind.starlane, ⟨.text "lab", .text "space"⟩))) ∧
    (∀ type ∈ ["MODIFIED", "DELETED"], ∀ result h,
      Program.Leads (facing noted) (childEvent (pairedChild "7") (.text type)).run [] (.done result) h →
        ∃ reply, h = [(.annotate (.text "Starlane") (.text "lab") (.text "space")
          (.object [("starlane.starlane.io/child-changed", .text "Service/space-web@7")]), reply)]) ∧
    (∀ result h, Program.Leads (facing noted) (childEvent (pairedChild "7") (.text "ADDED")).run []
      (.done result) h → h = [] ∧ result = .ok ()) ∧
    childMarker (pairedChild "7") ≠ childMarker (pairedChild "8") := by
  obtain ⟨htiers, hnamed, hevents, hmarkers⟩ := children_lead_to_owners
  obtain ⟨-, marker, hmarker, hwake⟩ := hnamed (pairedChild "7") _ (named_pairedChild "7")
  refine ⟨?_, ?_, ?_, ?_⟩
  · have haddr : addressOf sampleService = .ok ⟨.text Kind.starlane, .text "lab", .text "space"⟩ := rfl
    obtain ⟨tiers, hall, howner⟩ := htiers .service {} sampleService _ _ haddr rfl
    obtain ⟨tiers', hall', hshow⟩ :=
      Family.service.tiers_show {} (by decide) ⟨⟨_, rfl⟩, ⟨_, rfl⟩, .inl rfl⟩ haddr
    obtain rfl : tiers = tiers' := Except.ok.inj (hall.symm.trans hall')
    obtain ⟨ms, hms⟩ := exists_manifests hshow
    refine ⟨tiers, ms, hall, hms, hshow.length_eq, fun tier htier m hm => ?_⟩
    have hbound : claimsBound sampleService = true := rfl
    rw [howner tier htier m hm, hbound, if_neg (by simp)]
    rfl
  · intro type htype result h hrun
    have howner : ownerIn [Kind.starlane, Kind.postgres] (pairedChild.metadata "7") =
        some (.text Kind.starlane, ⟨.text "lab", .text "space"⟩) := by decide
    -- this is the marker that the statement spells out
    have hseven : marker = "Service/space-web@7" := Except.ok.inj (hmarker.symm.trans (by decide))
    have hwoken := hevents _ _ result h hrun
    rw [hwake, howner, hseven, if_pos (by simpa using htype)] at hwoken
    obtain ⟨reply, hreply, -⟩ := hwoken
    exact ⟨reply, hreply⟩
  · intro result h hrun
    have hwoken := hevents _ _ result h hrun
    rwa [hwake, if_neg (by simp)] at hwoken
  · have hof : ∀ version, (ChildVersion.mk Kind.service "space-web" version).Of (pairedChild version) :=
      fun version => ⟨rfl, _, rfl, rfl, rfl⟩
    have hseparable : ∀ version, (ChildVersion.mk Kind.service "space-web" version).Separable :=
      fun version => ⟨(by decide : '/' ∉ Kind.service.toList), (by decide : '@' ∉ "space-web".toList)⟩
    obtain ⟨marker, marker', hmarker, hmarker', hne⟩ := hmarkers _ _ _ _ (hof "7") (hof "8")
      (hseparable "7") (hseparable "8") (by decide)
    rw [hmarker, hmarker']
    exact fun h => hne (Except.ok.inj h)

end Reconciler
