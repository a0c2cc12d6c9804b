import Reconciler.Handler.Services
import Reconciler.Proofs.Manifest
import Reconciler.Proofs.Pass
import Reconciler.Proofs.Reads

/-! # The children of services and databases

Which objects a service or a database consists of, in the order of its tiers, and that its tiers are made
for them: each tier looks for its child where the child it builds is stored.

* `Family.addresses`: the children by address, a function of the namespace and name of the parent;
* `Family.children`: the same, with the exposure that is wanted of endpoints;
* `Family.tiers_make`: the tiers of a parent make exactly these;
* `Family.forall_tiers`: the three ways in which tiers are built;
* `create_ensures`, `patch_ensures`: what a pass asks that creates or corrects one of them.
-/

namespace Reconciler

open Cluster Manifest

/-! ## Families -/

/-- A wanted child. Of an endpoint the exposure is compared with what is wanted. -/
structure Child where
  address : Address
  exposure : Option Value := none

/-- The two kinds of resources that own children. -/
inductive Family where
  | service | database
deriving DecidableEq, Repr

namespace Family

def kind : Family → String
  | service => Kind.starlane
  | database => Kind.postgres

def tiers (images : Images) : Family → Value → Except Fault (List Tier)
  | service => serviceTiers images
  | database => databaseTiers images

def handler (settings : Settings) : Family → Handler
  | service => serviceHandler settings
  | database => databaseHandler settings

/-- A field of the spec of a parent, as far as there is one. -/
def specField (parent : Value) (key : String) : Value :=
  ((specOf parent).toOption.bind (·.field? key)).getD .null

/-- An endpoint whose exposure the parent may choose. -/
def chosen (parent : Value) (key : String) : Option Value :=
  some ((specField parent key).orElse (.text defaultExposure))

/-- The children of a parent, in the order of the tiers. -/
def children (parent ns : Value) (name : String) : Family → List Child
  | service =>
    [⟨⟨.text Kind.claim, ns, .text (name ++ "-postgres-4-keycloak")⟩, none⟩,
     ⟨⟨.text Kind.secret, ns, .text name⟩, none⟩,
     ⟨⟨.text Kind.deployment, ns, .text (name ++ "-postgres-4-keycloak")⟩, none⟩,
     ⟨⟨.text Kind.service, ns, .text (name ++ "-postgres-4-keycloak")⟩, some (.text "ClusterIP")⟩,
     ⟨⟨.text Kind.deployment, ns, .text (name ++ "-keycloak")⟩, none⟩,
     ⟨⟨.text Kind.service, ns, .text (name ++ "-keycloak")⟩, some (.text "LoadBalancer")⟩,
     ⟨⟨.text Kind.deployment, ns, .text name⟩, none⟩,
     ⟨⟨.text Kind.service, ns, .text (name ++ "-web")⟩, chosen parent "webServiceType"⟩,
     ⟨⟨.text Kind.service, ns, .text (name ++ "-gateway")⟩, chosen parent "gatewayServiceType"⟩]
  | database =>
    [⟨⟨.text Kind.claim, ns, .text name⟩, none⟩,
     ⟨⟨.text Kind.secret, ns, .text name⟩, none⟩,
     ⟨⟨.text Kind.deployment, ns, .text name⟩, none⟩,
     ⟨⟨.text Kind.service, ns, .text name⟩, chosen parent "serviceType"⟩]

/-- The addresses of the children, which do not depend on what the parent says. -/
def addresses (ns : Value) (name : String) (family : Family) : List Address :=
  (family.children .null ns name).map (·.address)

/-- Where the children are does not depend on what the parent says. -/
theorem map_address_children (parent ns : Value) (name : String) (family : Family) :
    (family.children parent ns name).map (·.address) = family.addresses ns name := by
  cases family <;> rfl

def parentAt (ns : Value) (name : String) (family : Family) : Address :=
  ⟨.text family.kind, ns, .text name⟩

/-- No two children share an address. -/
theorem nodup_addresses (ns : Value) (name : String) (family : Family) :
    (family.addresses ns name).Nodup := by
  cases family with
  | service => simp [addresses, children, Kind.claim, Kind.secret, Kind.deployment, Kind.service]
  | database => simp [addresses, children, Kind.claim, Kind.secret, Kind.deployment, Kind.service]

def childKinds : List String := [Kind.claim, Kind.secret, Kind.deployment, Kind.service]

/-- Children are in the namespace of their parent, and of a kind that children are of. -/
theorem of_mem_addresses {ns : Value} {name : String} {family : Family} {a : Address}
    (ha : a ∈ family.addresses ns name) : a.ns = ns ∧ ∃ kind ∈ childKinds, a.kind = .text kind := by
  have hall : ∀ a ∈ family.addresses ns name,
      a.ns = ns ∧ ∃ kind ∈ childKinds, a.kind = .text kind := by
    cases family with
    | service => simp [addresses, children, childKinds]
    | database => simp [addresses, children, childKinds]
  exact hall a ha

/-- No child has the kind of a parent. -/
theorem kind_ne_of_mem_addresses {ns : Value} {name : String} {family : Family} (other : Family)
    {a : Address} (ha : a ∈ family.addresses ns name) : a.kind ≠ .text other.kind := by
  rcases of_mem_addresses ha with ⟨-, kind, hkind, hk⟩
  rw [hk]
  intro heq
  obtain rfl : kind = other.kind := by simpa using heq
  revert hkind
  cases other <;> decide

/-- No parent is in the place of a child of its own. -/
theorem parentAt_ne {ns : Value} {name : String} {family : Family} {a : Address}
    (ha : a ∈ family.addresses ns name) : family.parentAt ns name ≠ a := by
  rintro rfl
  exact kind_ne_of_mem_addresses family ha rfl

theorem nameable_of_mem_addresses {ns : Value} {name : String} {family : Family} {a : Address}
    (ha : a ∈ family.addresses ns name) (hns : ns.nameable = true) : a.nameable = true := by
  have hall : ∀ a ∈ family.addresses ns name, a.nameable = true := by
    cases family with
    | service => simp [addresses, children, Address.nameable, hns]
    | database => simp [addresses, children, Address.nameable, hns]
  exact hall a ha

end Family

/-! ## What is built -/

/-- A manifest of a wanted child. -/
structure Built (child : Child) (m : Value) : Prop where
  address : addressOf m = .ok child.address
  exposure : ∀ wanted, child.exposure = some wanted →
    ∃ spec, m.field? "spec" = some spec ∧ spec.field? "type" = some wanted

/-- Of a child that is no endpoint, only the address matters. -/
theorem Built.of_address {a : Address} {m : Value} (h : addressOf m = .ok a) : Built ⟨a, none⟩ m := by
  refine ⟨h, ?_⟩
  intro wanted hwanted
  cases hwanted

/-- A read that comes to a manifest of a child, and does so for every parent that is well formed. -/
structure Yields (parent : Value) (read : Except Fault Value) (child : Child) : Prop where
  built : ∀ m, read = .ok m → Built child m
  exists_built : WellFormed parent → ∃ m, read = .ok m

section Builders

variable {parent kind ns : Value} {name : String}

/-- An object that is stored under a name has that name. -/
theorem nameOf_of_addressOf (h : addressOf parent = .ok ⟨kind, ns, .text name⟩) :
    nameOf parent = .ok (.text name) := by
  rcases addressOf_eq_ok.mp h with ⟨m, hm, -, -, hname⟩
  exact nameOf_eq_ok.mpr ⟨m, hm, hname⟩

/-- The name of a child is the name of its parent with an ending. -/
theorem named_of_addressOf (h : addressOf parent = .ok ⟨kind, ns, .text name⟩) (ending : String) :
    Starlane.named parent ending = .ok (.text (name ++ ending)) := by
  simp only [Starlane.named, nameOf_of_addressOf h, bind, Except.bind]
  rfl

/-- A field that is read is the one the parent says. -/
theorem specField_of_read {spec v : Value} {key : String} (hspec : specOf parent = .ok spec)
    (hv : spec.fieldOrNull key = .ok v) : Family.specField parent key = v := by
  rcases Value.fieldOr_eq_ok.mp hv with ⟨fields, rfl, rfl⟩
  simp [Family.specField, hspec, Except.toOption, Value.field?]

/-- A field of the spec of a proper parent is proper. -/
theorem Family.proper_specField (h : parent.Proper) (key : String) :
    (specField parent key).Proper := by
  unfold specField
  cases hspec : specOf parent with
  | error f => trivial
  | ok spec =>
    have hproper : spec.Proper := by
      simp only [specOf, bind_eq_ok, pure_eq_ok] at hspec
      rcases hspec with ⟨v, hv, rfl⟩
      rcases Value.fieldOr_eq_ok.mp hv with ⟨fields, rfl, rfl⟩
      -- the spec is a field of the parent, or it is empty
      refine Value.Proper.orElse ?_ ⟨List.nodup_nil, trivial⟩
      cases hfind : Fields.find? "spec" fields with
      | none => trivial
      | some w => exact h.field? hfind
    cases hfield : spec.field? key with
    | none => simp only [Except.toOption, Option.bind_some, hfield]; trivial
    | some w =>
      simp only [Except.toOption, Option.bind_some, hfield]
      exact hproper.field? hfield

theorem Family.proper_exposure {family : Family} {child : Child} (hproper : parent.Proper)
    (h : child ∈ family.children parent ns name) {wanted : Value}
    (hwanted : child.exposure = some wanted) : wanted.Proper := by
  have htext : ∀ s, (Value.text s).Proper := fun _ => trivial
  have hchosen : ∀ key v, chosen parent key = some v → v.Proper := by
    rintro key v ⟨⟩
    exact (proper_specField hproper key).orElse trivial
  have hall : ∀ child ∈ family.children parent ns name, ∀ v, child.exposure = some v → v.Proper := by
    cases family with
    | service => simpa [children, htext] using ⟨hchosen _, hchosen _⟩
    | database => simpa [children] using hchosen _
  exact hall child h wanted hwanted

/-- What is built as a volume claim is a claim of the name that was read, and has no exposure to compare. -/
theorem yields_storage (h : addressOf parent = .ok ⟨kind, ns, .text name⟩) {childName : String}
    {read : Except Fault Value} (hread : read = .ok (.text childName)) (size : String) :
    Yields parent (databaseClaim parent read size)
      ⟨⟨.text Kind.claim, ns, .text childName⟩, none⟩ := by
  subst hread
  constructor
  · intro m hm
    simp only [databaseClaim, bind_eq_ok] at hm
    rcases hm with ⟨_, -, _, ⟨⟩, _, -, _, -, hm⟩
    exact .of_address (addressOf_storage hm h)
  · intro hparent
    rcases hparent.specOf with ⟨fields, hspec, -⟩
    simp only [databaseClaim, hspec, Value.fieldOrNull, Value.fieldOr, bind, Except.bind]
    exact hparent.storage _

/-- What is built as a workload is a deployment, and has no exposure to compare. -/
theorem yields_workload (h : addressOf parent = .ok ⟨kind, ns, .text name⟩) (images : Images)
    (childName : String) :
    Yields parent (databaseWorkload images parent (.text childName))
      ⟨⟨.text Kind.deployment, ns, .text childName⟩, none⟩ := by
  have hsecret : credentialName parent = .ok (.text name) := nameOf_of_addressOf h
  constructor
  · intro m hm
    simp only [databaseWorkload, bind_eq_ok] at hm
    rcases hm with ⟨_, -, hm⟩
    exact .of_address (addressOf_workload hm h)
  · intro hparent
    simp only [databaseWorkload, hsecret, bind, Except.bind]
    exact hparent.workload rfl rfl rfl rfl

/-- What is built as an endpoint is a service with the exposure it was given, or the default. -/
theorem yields_endpoint (h : addressOf parent = .ok ⟨kind, ns, .text name⟩) {e : Endpoint}
    {selector : Fields} (hselector : e.selector = .object selector) :
    Yields parent (e.manifest parent)
      ⟨⟨.text Kind.service, ns, e.name⟩, some (e.exposure.orElse (.text defaultExposure))⟩ := by
  constructor
  · intro m hm
    rcases addressOf_endpoint hm h with ⟨haddr, spec, hspec, htype⟩
    refine ⟨haddr, fun wanted hwanted => ⟨spec, hspec, ?_⟩⟩
    rw [htype, ← hwanted]
  · intro hparent
    exact hparent.endpoint hselector

/-- An endpoint whose exposure is read from the spec. -/
theorem yields_chosen {a : Address} {key : String} {next : Value → Except Fault Value}
    (hnext : ∀ exposure, Yields parent (next exposure)
      ⟨a, some (exposure.orElse (.text defaultExposure))⟩) :
    Yields parent (do
      let spec ← specOf parent
      let exposure ← spec.fieldOrNull key
      next exposure) ⟨a, Family.chosen parent key⟩ := by
  constructor
  · intro m hm
    simp only [bind_eq_ok] at hm
    rcases hm with ⟨spec, hspec, exposure, hexposure, hm⟩
    rw [Family.chosen, specField_of_read hspec hexposure]
    exact (hnext exposure).built m hm
  · intro hparent
    rcases hparent.specOf with ⟨fields, hspec, -⟩
    simp only [hspec, Value.fieldOrNull, Value.fieldOr, bind, Except.bind]
    exact (hnext _).exists_built hparent

theorem yields_postgresDeployment (h : addressOf parent = .ok ⟨kind, ns, .text name⟩)
    (images : Images) : Yields parent (Postgres.deployment images parent)
      ⟨⟨.text Kind.deployment, ns, .text name⟩, none⟩ := by
  have hread : Postgres.deployment images parent =
      databaseWorkload images parent (.text name) := by
    simp only [Postgres.deployment, nameOf_of_addressOf h]
    rfl
  rw [hread]
  exact yields_workload h images name

theorem yields_postgresService (h : addressOf parent = .ok ⟨kind, ns, .text name⟩) :
    Yields parent (Postgres.service parent)
      ⟨⟨.text Kind.service, ns, .text name⟩, Family.chosen parent "serviceType"⟩ := by
  have hread : Postgres.service parent = (do
      let spec ← specOf parent
      let exposure ← spec.fieldOrNull "serviceType"
      databaseEndpoint parent (.text name) exposure) := by
    simp only [Postgres.service, nameOf_of_addressOf h]
    rfl
  rw [hread]
  exact yields_chosen fun exposure => yields_endpoint h rfl

theorem yields_databaseDeployment (h : addressOf parent = .ok ⟨kind, ns, .text name⟩)
    (images : Images) : Yields parent (Starlane.databaseDeployment images parent)
      ⟨⟨.text Kind.deployment, ns, .text (name ++ "-postgres-4-keycloak")⟩, none⟩ := by
  have hread : Starlane.databaseDeployment images parent =
      databaseWorkload images parent (.text (name ++ "-postgres-4-keycloak")) := by
    simp only [Starlane.databaseDeployment, Starlane.databaseName, named_of_addressOf h]
    rfl
  rw [hread]
  exact yields_workload h images _

theorem yields_databaseService (h : addressOf parent = .ok ⟨kind, ns, .text name⟩) :
    Yields parent (Starlane.databaseService parent)
      ⟨⟨.text Kind.service, ns, .text (name ++ "-postgres-4-keycloak")⟩,
        some (.text "ClusterIP")⟩ := by
  have hread : Starlane.databaseService parent =
      databaseEndpoint parent (.text (name ++ "-postgres-4-keycloak")) (.text "ClusterIP") := by
    simp only [Starlane.databaseService, Starlane.databaseName, named_of_addressOf h]
    rfl
  rw [hread]
  exact yields_endpoint h rfl

theorem yields_keycloakService (h : addressOf parent = .ok ⟨kind, ns, .text name⟩) :
    Yields parent (Starlane.keycloakService parent)
      ⟨⟨.text Kind.service, ns, .text (name ++ "-keycloak")⟩, some (.text "LoadBalancer")⟩ := by
  have hread : Starlane.keycloakService parent = Endpoint.manifest
      { name := .text (name ++ "-keycloak")
        exposure := .text "LoadBalancer"
        portName := .text "keycloak"
        port := .integer Starlane.httpPort
        targetPort := .integer Starlane.httpPort
        selector := nameLabel (.text (name ++ "-keycloak")) } parent := by
    simp only [Starlane.keycloakService, Starlane.keycloakName, named_of_addressOf h]
    rfl
  rw [hread]
  exact yields_endpoint h rfl

theorem yields_webService (h : addressOf parent = .ok ⟨kind, ns, .text name⟩) :
    Yields parent (Starlane.webService parent)
      ⟨⟨.text Kind.service, ns, .text (name ++ "-web")⟩,
        Family.chosen parent "webServiceType"⟩ := by
  -- with the name known, only the exposure is left to be read
  have hread : Starlane.webService parent = (do
      let spec ← specOf parent
      let exposure ← spec.fieldOrNull "webServiceType"
      Endpoint.manifest
        { name := .text (name ++ "-web")
          exposure
          portName := .text "http"
          port := .integer Starlane.webPort
          targetPort := .integer Starlane.httpPort
          selector := Starlane.webLabels (.text name) } parent) := by
    simp only [Starlane.webService, Starlane.webName, named_of_addressOf h, nameOf_of_addressOf h]
    rfl
  rw [hread]
  exact yields_chosen fun exposure => yields_endpoint h rfl

theorem yields_gatewayService (h : addressOf parent = .ok ⟨kind, ns, .text name⟩) :
    Yields parent (Starlane.gatewayService parent)
      ⟨⟨.text Kind.service, ns, .text (name ++ "-gateway")⟩,
        Family.chosen parent "gatewayServiceType"⟩ := by
  have hread : Starlane.gatewayService parent = (do
      let spec ← specOf parent
      let exposure ← spec.fieldOrNull "gatewayServiceType"
      Endpoint.manifest
        { name := .text (name ++ "-gateway")
          exposure
          portName := .text "gateway"
          port := .integer Starlane.gatewayPort
          targetPort := .integer Starlane.gatewayPort
          selector := Starlane.gatewayLabels (.text name) } parent) := by
    simp only [Starlane.gatewayService, Starlane.gatewayName, named_of_addressOf h,
      nameOf_of_addressOf h]
    rfl
  rw [hread]
  exact yields_chosen fun exposure => yields_endpoint h rfl

theorem yields_keycloak (h : addressOf parent = .ok ⟨kind, ns, .text name⟩) (images : Images) :
    Yields parent (Starlane.keycloakDeployment images parent)
      ⟨⟨.text Kind.deployment, ns, .text (name ++ "-keycloak")⟩, none⟩ := by
  have hname : Starlane.keycloakName parent = .ok (.text (name ++ "-keycloak")) :=
    named_of_addressOf h _
  have hdatabase : Starlane.databaseName parent = .ok (.text (name ++ "-postgres-4-keycloak")) :=
    named_of_addressOf h _
  have hsecret : credentialName parent = .ok (.text name) := nameOf_of_addressOf h
  constructor
  · intro m hm
    simp only [Starlane.keycloakDeployment, hname, bind_eq_ok, Except.ok.injEq] at hm
    rcases hm with ⟨_, rfl, _, -, _, -, hm⟩
    exact .of_address (addressOf_workload hm h)
  · -- two names and the secret are read first, and a well formed parent has all of them
    intro hparent
    simp only [Starlane.keycloakDeployment, hname, hsecret, hdatabase, bind, Except.bind]
    exact hparent.workload rfl rfl rfl rfl

theorem yields_server (h : addressOf parent = .ok ⟨kind, ns, .text name⟩) (images : Images) :
    Yields parent (Starlane.deployment images parent)
      ⟨⟨.text Kind.deployment, ns, .text name⟩, none⟩ := by
  rcases addressOf_eq_ok.mp h with ⟨metadata, hmeta, -, hns, hname⟩
  have hrequire : metadata.require "name" = .ok (.text name) := Value.require_eq_ok.mpr hname
  have hkeycloak : Starlane.keycloakName parent = .ok (.text (name ++ "-keycloak")) :=
    named_of_addressOf h _
  have hsecret : credentialName parent = .ok (.text name) := nameOf_of_addressOf h
  constructor
  · intro m hm
    simp only [Starlane.deployment, metadataOf, Value.require_eq_ok.mpr hmeta, bind_eq_ok,
      Except.ok.injEq] at hm
    rcases hm with ⟨_, rfl, other, hother, _, -, _, -, _, -, hm⟩
    obtain rfl : other = .text name := Except.ok.inj (hother.symm.trans hrequire)
    exact .of_address (addressOf_workload hm h)
  · intro hparent
    simp only [Starlane.deployment, metadataOf, Value.require_eq_ok.mpr hmeta, hrequire, hkeycloak, hns,
      hsecret, bind, Except.bind]
    exact hparent.workload rfl rfl rfl rfl

end Builders

/-! ## Credentials -/

section Credential

variable {σ : Type} {answers : Answering σ} {may : σ → StoreCall → Prop}

/-- A draw is run one question after the other. -/
theorem ensures_drawn {α : Type} (op : RandomOp) {next : op.Answer → Program randomSignature α}
    {post : σ → α → Prop} {s : σ}
    (hnext : ∀ reply, op.Lawful reply → SafePass.Ensures answers may post
      ((next reply).run fun op => Program.query (S := passSignature) (.random op)) s) :
    SafePass.Ensures answers may post
      ((Program.ask (S := randomSignature) op next).run fun op =>
        Program.query (S := passSignature) (.random op)) s := by
  refine (SafePass.ensures_bind _ _ s).mpr ⟨trivial, ?_⟩
  rintro reply s' ⟨hlawful, rfl⟩
  exact hnext reply hlawful

/-- A draw that is not refused has a result. -/
theorem exists_of_lawful {pool : List Char} {count : Int} {reply : Except Fault (List Char)}
    (hfits : RandomOp.refuses pool count = false)
    (h : (RandomOp.sample pool count).Lawful reply) : ∃ chars, reply = .ok chars := by
  simp only [RandomOp.Lawful, hfits, Bool.false_eq_true, if_false] at h
  rcases h with ⟨chars, hreply, -⟩
  exact ⟨chars, hreply⟩

/-- A password of the usual composition can always be drawn. -/
theorem draw_ensures {post : σ → Except Failure String → Prop} {s : σ}
    (hpost : ∀ password, post s (.ok password)) :
    Pass.Ensures answers may post (Pass.draw Password.generateDefault) s := by
  -- one draw after the other; none asks for more characters than its pool has
  have hcount : ¬ ((16 : Int) - 4 - 4 < 0) := by decide
  simp only [Password.generateDefault, Password.generate, if_neg hcount]
  refine (SafePass.ensures_bind _ _ s).mpr ?_
  refine ensures_drawn .source ?_
  intro _ _
  refine ensures_drawn (.sample _ _) ?_
  intro letters hletters
  rcases exists_of_lawful (by decide) hletters with ⟨letters, rfl⟩
  refine ensures_drawn (.sample _ _) ?_
  intro digits hdigits
  rcases exists_of_lawful (by decide) hdigits with ⟨digits, rfl⟩
  refine ensures_drawn (.sample _ _) ?_
  intro symbols hsymbols
  rcases exists_of_lawful (by decide) hsymbols with ⟨symbols, rfl⟩
  refine ensures_drawn (.shuffle _) ?_
  intro chars _
  exact hpost _

end Credential

/-! ## Tiers -/

/-- A tier is made for a child: it looks for it where what it builds is stored, it compares the exposure of
endpoints, and building needs nothing from the store and works for every parent that is well formed. -/
structure Tier.Makes (parent : Value) (tier : Tier) (child : Child) : Prop where
  kind : child.address.kind = .text tier.kind
  name : child.address.name = tier.childName
  drift : tier.drift = child.exposure.map fun _ => exposureDrift
  build : ∀ {σ : Type} {answers : Answering σ} {may : σ → StoreCall → Prop}
    {post : σ → Except Failure Value → Prop} {s : σ},
    (∀ m, Built child m → post s (.ok m)) → (∀ f, ¬ WellFormed parent → post s (.error f)) →
    Pass.Ensures answers may post tier.build s

/-- A read that yields a child can be the build of a tier. -/
theorem Yields.ensures {parent : Value} {read : Except Fault Value} {child : Child}
    (h : Yields parent read child) {σ : Type} {answers : Answering σ} {may : σ → StoreCall → Prop}
    {post : σ → Except Failure Value → Prop} {s : σ} (hok : ∀ m, Built child m → post s (.ok m))
    (herror : ∀ f, ¬ WellFormed parent → post s (.error f)) :
    Pass.Ensures answers may post (Pass.lift read) s := by
  rw [Pass.ensures_lift]
  cases hread : read with
  | ok m => exact hok m (h.built m hread)
  | error f =>
    refine herror _ ?_
    intro hparent
    rcases h.exists_built hparent with ⟨m, hm⟩
    rw [hread] at hm
    cases hm

/-- Building a credential draws a password and comes to a manifest of the Secret, for every parent that is
well formed. -/
theorem credential_ensures {parent kind ns : Value} {name : String}
    (h : addressOf parent = .ok ⟨kind, ns, .text name⟩) {σ : Type} {answers : Answering σ}
    {may : σ → StoreCall → Prop} {post : σ → Except Failure Value → Prop} {s : σ}
    (hok : ∀ m, Built ⟨⟨.text Kind.secret, ns, .text name⟩, none⟩ m → post s (.ok m))
    (herror : ∀ f, ¬ WellFormed parent → post s (.error f)) :
    Pass.Ensures answers may post (buildCredential parent) s := by
  unfold buildCredential
  rw [Pass.ensures_bind]
  refine draw_ensures ?_
  intro password
  rw [Pass.andThen, Pass.ensures_liftRead]
  -- whether a manifest comes out of it depends on the parent only, not on the password
  cases hm : credential parent (.text password) with
  | ok m => exact hok m (.of_address (addressOf_credential hm h))
  | error f =>
    refine herror _ ?_
    intro hparent
    rcases hparent.credential (.text password) with ⟨m, hm'⟩
    rw [hm] at hm'
    cases hm'

/-- The tiers of a parent make its children, one each, in order. -/
theorem Family.tiers_make (family : Family) (images : Images) {parent ns : Value} {name : String}
    (h : addressOf parent = .ok ⟨.text family.kind, ns, .text name⟩) :
    ∃ tiers, family.tiers images parent = .ok tiers ∧
      List.Forall₂ (Tier.Makes parent) tiers (family.children parent ns name) := by
  have hname := nameOf_of_addressOf h
  have hsecret : credentialName parent = .ok (.text name) := hname
  cases family with
  | database =>
    refine ⟨_, by simp only [tiers, databaseTiers, hname, hsecret, bind, Except.bind]; rfl, ?_⟩
    -- one tier for each child, in the order in which the children are listed
    refine .cons ⟨rfl, rfl, rfl, ?_⟩ (.cons ⟨rfl, rfl, rfl, ?_⟩ (.cons ⟨rfl, rfl, rfl, ?_⟩
      (.cons ⟨rfl, rfl, rfl, ?_⟩ .nil)))
    · exact (yields_storage h hname _).ensures
    · exact credential_ensures h
    · exact (yields_postgresDeployment h images).ensures
    · exact (yields_postgresService h).ensures
  | service =>
    have hdatabase : Starlane.databaseName parent = .ok (.text (name ++ "-postgres-4-keycloak")) :=
      named_of_addressOf h _
    have hkeycloak : Starlane.keycloakName parent = .ok (.text (name ++ "-keycloak")) :=
      named_of_addressOf h _
    have hweb : Starlane.webName parent = .ok (.text (name ++ "-web")) := named_of_addressOf h _
    have hgateway : Starlane.gatewayName parent = .ok (.text (name ++ "-gateway")) :=
      named_of_addressOf h _
    refine ⟨_, by simp only [tiers, serviceTiers, hname, hsecret, hdatabase, hkeycloak, hweb, hgateway,
      bind, Except.bind]; rfl, ?_⟩
    refine .cons ⟨rfl, rfl, rfl, ?_⟩ (.cons ⟨rfl, rfl, rfl, ?_⟩ (.cons ⟨rfl, rfl, rfl, ?_⟩
      (.cons ⟨rfl, rfl, rfl, ?_⟩ (.cons ⟨rfl, rfl, rfl, ?_⟩ (.cons ⟨rfl, rfl, rfl, ?_⟩
      (.cons ⟨rfl, rfl, rfl, ?_⟩ (.cons ⟨rfl, rfl, rfl, ?_⟩ (.cons ⟨rfl, rfl, rfl, ?_⟩ .nil))))))))
    · exact (yields_storage h hdatabase _).ensures
    · exact credential_ensures h
    · exact (yields_databaseDeployment h images).ensures
    · exact (yields_databaseService h).ensures
    · exact (yields_keycloak h images).ensures
    · exact (yields_keycloakService h).ensures
    · exact (yields_server h images).ensures
    · exact (yields_webService h).ensures
    · exact (yields_gatewayService h).ensures

/-- Tiers are read off their parent, with or without an exposure to compare, or hold its credential. -/
theorem Family.forall_tiers {P : Tier → Prop} {parent : Value} (family : Family) (images : Images)
    {all : List Tier} (hall : family.tiers images parent = .ok all)
    (hplain : ∀ name kind childName build, P { name, kind, childName, build := Pass.lift build })
    (hendpoint : ∀ name childName build,
      P { name, kind := Kind.service, childName, build := Pass.lift build, drift := some exposureDrift })
    (hcredential : ∀ name childName,
      P { name, kind := Kind.secret, childName, build := buildCredential parent }) :
    ∀ tier ∈ all, P tier := by
  cases family with
  | service =>
    simp only [tiers, serviceTiers, bind_eq_ok] at hall
    obtain ⟨name, -, database, -, keycloak, -, secret, -, web, -, gateway, -, hall⟩ := hall
    obtain rfl := Except.ok.inj hall
    simp only [List.forall_mem_cons, List.not_mem_nil, false_imp_iff, implies_true, and_true]
    exact ⟨hplain _ _ _ _, hcredential _ _, hplain _ _ _ _, hendpoint _ _ _, hplain _ _ _ _,
      hendpoint _ _ _, hplain _ _ _ _, hendpoint _ _ _, hendpoint _ _ _⟩
  | database =>
    simp only [tiers, databaseTiers, bind_eq_ok] at hall
    obtain ⟨name, -, secret, -, hall⟩ := hall
    obtain rfl := Except.ok.inj hall
    simp only [List.forall_mem_cons, List.not_mem_nil, false_imp_iff, implies_true, and_true]
    exact ⟨hplain _ _ _ _, hcredential _ _, hplain _ _ _ _, hendpoint _ _ _⟩

/-! ## Writes of a tier

Whatever a pass is asked to ensure of its calls, creating a child is one create of what is built, and
correcting one is one update of what was read, with changes in its spec. -/

namespace Convergence

variable {σ : Type} {answers : Answering σ} {may : σ → StoreCall → Prop} {s : σ}
variable {kind : String} {parent : Value} {tier : Tier}

/-- A pass that creates a child makes one call, to create what was built. -/
theorem create_ensures {built : Value → Prop}
    (hbuild : ∀ {post : σ → Except Failure Value → Prop}, (∀ m, built m → post s (.ok m)) →
      (∀ f, post s (.error f)) → Pass.Ensures answers may post tier.build s)
    (hmay : ∀ m, built m → may s (.create m)) :
    Pass.Ensures answers may (fun _ _ => True) (create kind parent tier) s := by
  unfold create
  refine Pass.ensures_read (fun metadata _ => ?_) (fun _ _ => trivial)
  refine Pass.ensures_tell ?_
  rw [Pass.ensures_bind]
  refine hbuild (fun manifest hmanifest => ?_) (fun _ => trivial)
  refine Pass.ensures_note ?_ (fun _ _ => trivial)
  refine Pass.ensures_attempt (hmay manifest hmanifest) ?_
  -- whatever is answered, the pass is over
  rintro (f | created) s' -
  · dsimp only
    split
    · exact Pass.ensures_tell trivial
    · exact Pass.ensures_tell trivial
  · exact Pass.ensures_tell (Pass.ensures_tell trivial)

/-- A pass that corrects a child makes one call, to update it with the changes applied. -/
theorem patch_ensures {settings : Settings} {existing : Value} {changes : Fields}
    (hmay : ∀ changed, applyChanges existing changes = .ok changed → may s (.update changed)) :
    Pass.Ensures answers may (fun _ _ => True)
      (patch settings kind parent tier existing changes) s := by
  unfold patch
  refine Pass.ensures_tell ?_
  refine Pass.ensures_read (fun metadata _ => ?_) (fun _ _ => trivial)
  refine Pass.ensures_tell ?_
  refine Pass.ensures_note ?_ (fun _ _ => trivial)
  refine Pass.ensures_read (fun changed hchanged => ?_) (fun _ _ => trivial)
  refine Pass.ensures_attempt (hmay changed hchanged) ?_
  rintro (f | updated) s' -
  · dsimp only
    split
    · exact Pass.ensures_tell trivial
    · exact Pass.ensures_tell trivial
  · exact Pass.ensures_tell (Pass.ensures_tell ((Pass.ensures_liftRead _ _).mpr trivial))

/-- Changes of the spec do not move an object. -/
theorem addressOf_applyChanges {existing changed : Value} {changes : Fields} {a : Address}
    (h : applyChanges existing changes = .ok changed) (haddr : addressOf existing = .ok a) :
    addressOf changed = .ok a := by
  have hsame := (gives_applyChanges existing changes).of_ok h
  exact addressOf_congr (hsame "metadata" (by decide)) (hsame "kind" (by decide)) haddr

end Convergence

end Reconciler
