import Reconciler.Handler.Services
import Reconciler.Proofs.Pass
import Reconciler.Proofs.Value

/-! # Why reads fail

A read of a value fails because a field is absent or a value has the wrong shape, and such a fault is of
none of the operator's own classes. The same holds of everything that is put together from reads, so when
a pass fails with a fault of such a class, a store call was answered with it or the pass raised it itself.

Main definitions and statements:

* `Gives`: what a read comes to, unless it fails without a class;
* `gives_bind`: the rule for sequences, with one lemma for each read, each change and each builder;
* `FaultClass.ancestry_trans`: families of faults are nested;
* `Handler.directiveOf_classless`: a pass that fails without a class is reported as a failure.
-/

namespace Reconciler

variable {α β : Type}

/-! ## Families of faults -/

/-- What belongs to a class belongs to all the classes above it. -/
theorem FaultClass.ancestry_trans {a b c : FaultClass} (hb : b ∈ a.ancestry) (hc : c ∈ b.ancestry) :
    c ∈ a.ancestry := by
  cases a <;> cases b <;> first | exact hc | simp_all [ancestry]

/-- A fault of a class is one of every class above it. -/
theorem Fault.belongsTo_of_ancestry {f : Fault} {b c : FaultClass} (hf : f.belongsTo b = true)
    (hc : c ∈ b.ancestry) : f.belongsTo c = true := by
  unfold Fault.belongsTo Fault.ancestry at *
  cases hclass : f.class? with
  | none => simp [hclass] at hf
  | some a =>
    simp only [hclass, List.contains_iff_mem] at hf ⊢
    exact FaultClass.ancestry_trans hf hc

/-- A fault of no class is none of a class of faults. -/
theorem Fault.belongsTo_of_classless {f : Fault} (hf : f.class? = none) (c : FaultClass) :
    f.belongsTo c = false := by
  simp [Fault.belongsTo, Fault.ancestry, hf]

/-! ## Reads that fail without a class -/

/-- A read comes to a value that meets a condition, or fails with a fault of no class. -/
def Gives (post : α → Prop) : Except Fault α → Prop
  | .ok a => post a
  | .error f => f.class? = none

/-- A read that may come to anything, but only fails with faults of no class. -/
abbrev Classless (read : Except Fault α) : Prop :=
  Gives (fun _ => True) read

section Rules

variable {post post' : α → Prop} {read : Except Fault α}

@[simp] theorem gives_pure (a : α) : Gives post (pure a : Except Fault α) ↔ post a := Iff.rfl

/-- A read that goes on with the value of another one. -/
theorem gives_bind {post : β → Prop} {k : α → Except Fault β} :
    Gives post (read >>= k) ↔ Gives (fun a => Gives post (k a)) read := by
  cases read <;> rfl

theorem Gives.mono (h : Gives post read) (hpost : ∀ a, post a → post' a) : Gives post' read := by
  cases read with
  | ok a => exact hpost a h
  | error f => exact h

/-- What a read comes to may be forgotten. -/
theorem Gives.classless (h : Gives post read) : Classless read :=
  h.mono fun _ _ => trivial

/-- After a read that may come to anything, the rest has to cope with anything. -/
theorem Classless.andThen {post : β → Prop} {k : α → Except Fault β} (h : Classless read)
    (hk : ∀ a, Gives post (k a)) : Gives post (read >>= k) :=
  gives_bind.mpr (h.mono fun a _ => hk a)

theorem Gives.of_error {f : Fault} (h : Gives post read) (hread : read = .error f) :
    f.class? = none := by
  subst hread
  exact h

theorem Gives.of_ok {a : α} (h : Gives post read) (hread : read = .ok a) : post a := by
  subst hread
  exact h

end Rules

/-! ## Reading and changing values -/

namespace Value

/-- Reading a field only fails where there are no fields. -/
theorem classless_fieldOr (v : Value) (key : String) (default : Value) :
    Classless (v.fieldOr key default) := by
  cases v with
  | object fields => trivial
  | _ => rfl

theorem classless_fieldOrNull (v : Value) (key : String) : Classless (v.fieldOrNull key) :=
  v.classless_fieldOr key .null

theorem classless_require (v : Value) (key : String) : Classless (v.require key) := by
  cases v with
  | object fields =>
    rw [require]
    cases Fields.find? key fields with
    | some w => trivial
    | none => rfl
  | _ => rfl

theorem classless_elements (v : Value) : Classless v.elements := by
  cases v with
  | list items => trivial
  | object fields => trivial
  | text s => trivial
  | _ => rfl

theorem classless_pairAt (index : Nat) (v : Value) : Classless (pairAt index v) := by
  refine v.classless_elements.andThen ?_
  intro parts
  split
  · split
    · trivial
    · rfl
  · rfl

theorem classless_pairsFrom (index : Nat) (fields : Fields) (items : List Value) :
    Classless (pairsFrom index fields items) := by
  induction items generalizing index fields with
  | nil => trivial
  | cons v rest ih =>
    rw [pairsFrom]
    exact (classless_pairAt index v).andThen fun pair => ih _ _

theorem classless_asObject (v : Value) : Classless v.asObject := by
  cases v with
  | object fields => trivial
  | _ => exact (classless_elements _).andThen fun items => classless_pairsFrom 0 [] items

theorem classless_spread (v : Value) : Classless v.spread := by
  cases v with
  | object fields => trivial
  | _ => rfl

theorem classless_overlay (v : Value) (changes : Fields) : Classless (v.overlay changes) := by
  cases v with
  | object fields => trivial
  | _ => rfl

/-- A field set leaves the others alone. -/
theorem gives_setField (v : Value) (key : String) (value : Value) :
    Gives (fun o => ∀ other, other ≠ key → o.field? other = v.field? other)
      (v.setField key value) := by
  cases v with
  | object fields => exact fun other hne => Fields.find?_insert_of_ne hne value fields
  | _ => rfl

/-- A default that is filled in changes no other field. -/
theorem gives_withDefault (v : Value) (key : String) (default : Value) :
    Gives (fun o => ∀ other, other ≠ key → o.field? other = v.field? other)
      (v.withDefault key default) := by
  cases h : v.withDefault key default with
  | ok o => exact fun other hne => field?_withDefault_of_ne h hne
  | error f =>
    cases v with
    | object fields => simp [withDefault] at h
    | _ =>
      obtain rfl : Fault.noAttribute = f := by simpa [withDefault] using h
      rfl

end Value

/-- What a log says of an object is read from it in the same way. -/
theorem classless_loggedIdentity (metadata : Value) : Classless (loggedIdentity metadata) := by
  apply (metadata.classless_fieldOr _ _).andThen
  intro name
  apply (metadata.classless_fieldOr _ _).andThen
  intro ns
  apply (metadata.classless_fieldOr _ _).andThen
  intro uid
  trivial

/-- A positive delay is not refused. -/
theorem Directive.after_of_pos {delay : Rat} (h : 0 < delay) :
    Directive.after delay = .ok (.requeueAfter delay) :=
  if_neg (Rat.not_le.mpr h)

/-! ## Building -/

/-- An object that says itself of which kind it is. -/
def OfKind (kind : String) (object : Value) : Prop :=
  object.field? "kind" = some (.text kind)

/-- An object whose spec, if it has one, is an object. -/
def SpecShaped (object : Value) : Prop :=
  ∀ spec, object.field? "spec" = some spec → ∃ fields, spec = .object fields

instance (v : Value) : Decidable (∃ fields, v = .object fields) :=
  match v with
  | .object fields => isTrue ⟨fields, rfl⟩
  | .null | .bool _ | .integer _ | .real _ | .text _ | .list _ => isFalse nofun

instance (object : Value) : Decidable (SpecShaped object) :=
  inferInstanceAs (Decidable (∀ spec ∈ object.field? "spec", ∃ fields, spec = .object fields))

/-- A child of a kind as it is built. Of a Service it is also known that its spec can be changed. -/
structure IsChild (kind : String) (object : Value) : Prop where
  ofKind : OfKind kind object
  shaped : kind = Kind.service → SpecShaped object

/-- Of a child that is no Service nothing more needs to be known. -/
theorem IsChild.of_ne {kind : String} {object : Value} (hkind : OfKind kind object)
    (hne : kind ≠ Kind.service) : IsChild kind object :=
  ⟨hkind, fun heq => absurd heq hne⟩

namespace Manifest

variable (parent : Value)

theorem classless_metadataOf : Classless (metadataOf parent) :=
  parent.classless_require _

theorem classless_nameOf : Classless (nameOf parent) :=
  (classless_metadataOf parent).andThen fun metadata => metadata.classless_require _

theorem classless_credentialName : Classless (credentialName parent) :=
  classless_nameOf parent

theorem classless_specOf : Classless (specOf parent) :=
  (parent.classless_fieldOrNull _).andThen fun _ => trivial

theorem classless_named (ending : String) : Classless (Starlane.named parent ending) :=
  (classless_nameOf parent).andThen fun _ => trivial

theorem classless_ownerReference : Classless (ownerReference parent) := by
  apply (parent.classless_fieldOr _ _).andThen
  intro metadata
  apply (parent.classless_require _).andThen
  -- the order is that in which the fields are read
  intro apiVersion
  apply (parent.classless_require _).andThen
  intro kind
  apply (metadata.classless_require _).andThen
  intro name
  apply (metadata.classless_fieldOrNull _).andThen
  intro uid
  trivial

theorem classless_objectMeta (name labels : Value) (owned : Bool) :
    Classless (objectMeta parent name labels owned) := by
  apply (classless_metadataOf parent).andThen
  intro metadata
  apply (metadata.classless_fieldOr _ _).andThen
  intro ns
  apply (Value.classless_spread _).andThen
  intro extra
  cases owned with
  | false => trivial
  | true => exact (classless_ownerReference parent).andThen fun _ => trivial

theorem classless_listed (v : Value) : Classless (Workload.listed v) :=
  (Value.classless_elements _).andThen fun _ => trivial

/-! ### The four kinds of children -/

theorem gives_claim (s : Storage) : Gives (IsChild Kind.claim) (s.manifest parent) :=
  (classless_objectMeta parent _ _ _).andThen fun _ => .of_ne rfl (by decide)

theorem gives_secret (password : Value) :
    Gives (IsChild Kind.secret) (credential parent password) := by
  apply (classless_credentialName parent).andThen
  intro name
  apply (classless_objectMeta parent _ _ _).andThen
  intro metadata
  exact .of_ne rfl (by decide)

/-- Every workload is built as a Deployment, whatever is read for it. -/
theorem gives_deployment (w : Workload) : Gives (IsChild Kind.deployment) (w.manifest parent) := by
  apply (classless_listed _).andThen
  intro args
  apply (classless_listed _).andThen
  intro env
  apply (classless_listed _).andThen
  intro ports
  apply (classless_objectMeta parent _ _ _).andThen
  intro metadata
  apply (Value.classless_asObject _).andThen
  intro labels
  exact .of_ne rfl (by decide)

/-- Every endpoint is built as a Service with a spec that can be compared. -/
theorem gives_service (e : Endpoint) : Gives (IsChild Kind.service) (e.manifest parent) := by
  apply (classless_objectMeta parent _ _ _).andThen
  intro metadata
  apply (Value.classless_asObject _).andThen
  intro selector
  exact ⟨rfl, fun _ _ hspec => ⟨_, (Option.some.inj hspec).symm⟩⟩

/-! ### What databases and services are built of -/

theorem gives_databaseClaim {name : Except Fault Value} (hname : Classless name) (size : String) :
    Gives (IsChild Kind.claim) (databaseClaim parent name size) := by
  apply (classless_specOf parent).andThen
  intro spec
  apply hname.andThen
  intro name
  apply (spec.classless_fieldOrNull _).andThen
  intro storageClass
  apply (spec.classless_fieldOr _ _).andThen
  intro bound
  exact gives_claim parent _

theorem gives_databaseWorkload (images : Images) (name : Value) :
    Gives (IsChild Kind.deployment) (databaseWorkload images parent name) :=
  (classless_credentialName parent).andThen fun _ => gives_deployment parent _

theorem gives_postgresDeployment (images : Images) :
    Gives (IsChild Kind.deployment) (Postgres.deployment images parent) :=
  (classless_nameOf parent).andThen fun name => gives_databaseWorkload parent images name

/-- An endpoint whose exposure the parent may choose. -/
theorem gives_chosen {key : String} {next : Value → Except Fault Value}
    (hnext : ∀ exposure, Gives (IsChild Kind.service) (next exposure)) :
    Gives (IsChild Kind.service) (do next (← (← specOf parent).fieldOrNull key)) := by
  apply (classless_specOf parent).andThen
  intro spec
  apply (spec.classless_fieldOrNull _).andThen
  exact hnext

theorem gives_postgresService : Gives (IsChild Kind.service) (Postgres.service parent) := by
  apply (classless_nameOf parent).andThen
  intro name
  exact gives_chosen parent fun _ => gives_service parent _

theorem gives_databaseDeployment (images : Images) :
    Gives (IsChild Kind.deployment) (Starlane.databaseDeployment images parent) :=
  (classless_named parent _).andThen fun name => gives_databaseWorkload parent images name

theorem gives_databaseService : Gives (IsChild Kind.service) (Starlane.databaseService parent) :=
  (classless_named parent _).andThen fun _ => gives_service parent _

theorem gives_keycloakDeployment (images : Images) :
    Gives (IsChild Kind.deployment) (Starlane.keycloakDeployment images parent) := by
  apply (classless_named parent _).andThen
  intro name
  apply (classless_credentialName parent).andThen
  intro secret
  apply (classless_named parent _).andThen
  intro database
  exact gives_deployment parent _

theorem gives_keycloakService : Gives (IsChild Kind.service) (Starlane.keycloakService parent) :=
  (classless_named parent _).andThen fun _ => gives_service parent _

/-- The server itself is a workload that reads the names of its own database and its own Keycloak. -/
theorem gives_server (images : Images) :
    Gives (IsChild Kind.deployment) (Starlane.deployment images parent) := by
  apply (classless_metadataOf parent).andThen
  intro metadata
  apply (metadata.classless_require _).andThen
  intro name
  apply (classless_named parent _).andThen
  intro keycloak
  apply (metadata.classless_fieldOr _ _).andThen
  intro ns
  apply (classless_credentialName parent).andThen
  intro secret
  exact gives_deployment parent _

theorem gives_webService : Gives (IsChild Kind.service) (Starlane.webService parent) := by
  apply (classless_named parent _).andThen
  intro name
  refine gives_chosen parent fun exposure => ?_
  exact (classless_nameOf parent).andThen fun _ => gives_service parent _

theorem gives_gatewayService : Gives (IsChild Kind.service) (Starlane.gatewayService parent) := by
  apply (classless_named parent _).andThen
  intro name
  refine gives_chosen parent fun exposure => ?_
  exact (classless_nameOf parent).andThen fun _ => gives_service parent _

/-- Comparing an endpoint with the wanted one fails with no fault of a class. -/
theorem classless_exposureDrift (existing desired : Value) :
    Classless (exposureDrift existing desired) := by
  apply (existing.classless_fieldOrNull _).andThen
  intro spec
  apply (Value.classless_fieldOrNull _ _).andThen
  intro current
  apply (desired.classless_require _).andThen
  intro desiredSpec
  apply (desiredSpec.classless_require _).andThen
  intro wanted
  trivial

end Manifest

/-- Changes of the spec leave everything else alone. -/
theorem Convergence.gives_applyChanges (existing : Value) (changes : Fields) :
    Gives (fun changed => ∀ key, key ≠ "spec" → changed.field? key = existing.field? key)
      (applyChanges existing changes) := by
  refine gives_bind.mpr ((existing.gives_withDefault _ _).mono ?_)
  intro withSpec hspec
  apply (withSpec.classless_require _).andThen
  intro spec
  apply (spec.classless_overlay _).andThen
  intro spec
  refine (withSpec.gives_setField _ _).mono ?_
  intro changed hchanged key hkey
  rw [hchanged key hkey, hspec key hkey]

/-! ## Failed passes -/

/-- A fault without a class is reported as it is. -/
theorem Handler.directiveOf_classless {f : Fault} (h : Handler) (id : Identity) (hf : f.class? = none) :
    h.directiveOf id (.error ⟨f, none⟩) = .failed (some ⟨f, none⟩) := by
  have hself : h.missesItself id ⟨f, none⟩ = false := by
    cases f with
    | notFound => cases hf
    | _ => rfl
  have hconflict : (⟨f, none⟩ : Failure).belongsTo .conflict = false :=
    Fault.belongsTo_of_classless hf .conflict
  simp [directiveOf, hself, hconflict]

end Reconciler
