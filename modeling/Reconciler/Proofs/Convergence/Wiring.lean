import Reconciler.Proofs.Convergence.Children
import Reconciler.Proofs.Parts
import Reconciler.Proofs.Schedule
import Mathlib.Data.List.Nodup

/-! # How the children of a parent refer to each other

Workloads take passwords from a Secret, mount claims and call endpoints; endpoints select the pods of
workloads. All of that goes by names, keys, labels and ports that are written down where something is built
and once more where it is referred to. A pass creates children tier by tier, so what a child refers to has to
come in an earlier tier.

Main definitions and statements:

* `Links`: what a manifest offers to others and asks of them, and `linksOf`, which reads it off a manifest;
* `Family.childNames`, `Family.links`: the children of a parent and what their manifests say, in the order of
  the tiers;
* `Family.tiers_show`: every tier builds a manifest that says it;
* `Wired`: everything a manifest asks for is offered by an earlier one;
* `manifests_wired`: so it is for all parents.
-/

namespace Reconciler

open Cluster Manifest

namespace Manifest

/-! ## What manifests say -/

/-- What a manifest offers to others, and what it asks of them. -/
structure Links where
  kind : Option Value
  name : Option Value
  ns : Option Value
  /-- The environment variables of the containers. -/
  environment : List Value := []
  /-- The names of the claims that are mounted. -/
  claims : List Value := []
  /-- The keys of a Secret. -/
  secretFields : List String := []
  /-- What an endpoint selects pods by. -/
  selector : Option Value := none
  /-- The ports that an endpoint exposes. -/
  ports : List Value := []
  /-- The ports of pods that it leads to. -/
  targetPorts : List Value := []
  /-- What a workload takes for its pods. -/
  matchLabels : Option Value := none
  podLabels : Option Value := none
  containerPorts : List Value := []

/-- The items of a list that may be absent. -/
def itemsOf : Option Value → List Value
  | some (.list items) => items
  | _ => []

/-- The field names of an object that may be absent. -/
def namesOf : Option Value → List String
  | some (.object fields) => Fields.names fields
  | _ => []

def containersOf (m : Value) : List Value :=
  itemsOf (m.part? ["spec", "template", "spec", "containers"])

/-- Everything in a manifest that refers to another object or that others refer to. -/
def linksOf (m : Value) : Links where
  kind := m.field? "kind"
  name := m.part? ["metadata", "name"]
  ns := m.part? ["metadata", "namespace"]
  environment := (containersOf m).flatMap fun c => itemsOf (c.field? "env")
  claims := (itemsOf (m.part? ["spec", "template", "spec", "volumes"])).filterMap
    (·.part? ["persistentVolumeClaim", "claimName"])
  secretFields := namesOf (m.field? "stringData")
  selector := m.part? ["spec", "selector"]
  ports := (itemsOf (m.part? ["spec", "ports"])).filterMap (·.field? "port")
  targetPorts := (itemsOf (m.part? ["spec", "ports"])).filterMap (·.field? "targetPort")
  matchLabels := m.part? ["spec", "selector", "matchLabels"]
  podLabels := m.part? ["spec", "template", "metadata", "labels"]
  containerPorts := (containersOf m).flatMap fun c =>
    (itemsOf (c.field? "ports")).filterMap (·.field? "containerPort")

/-- The key of a Secret that an environment variable is taken from. -/
def secretRefOf (v : Value) : Option Value :=
  v.part? ["valueFrom", "secretKeyRef"]

/-- The value of an environment variable, if it is the one of a name. -/
def valueOf (key : String) (v : Value) : Option Value :=
  if v.field? "name" = some (.text key) then v.field? "value" else none

@[simp] theorem secretRefOf_env (name value : Value) : secretRefOf (env name value) = none := rfl

@[simp] theorem secretRefOf_passwordEnv (name : String) (secret : Value) :
    secretRefOf (passwordEnv name secret) =
      some (.object [("name", secret), ("key", .text passwordKey)]) := rfl

@[simp] theorem valueOf_env (key name : String) (value : Value) :
    valueOf key (env (.text name) value) = if name = key then some value else none := by
  simp [valueOf, env, Value.field?, Fields.find?]

@[simp] theorem valueOf_passwordEnv (key name : String) (secret : Value) :
    valueOf key (passwordEnv name secret) = none := by
  simp [valueOf, passwordEnv, secretEnv, Value.field?, Fields.find?]

namespace Links

/-- The keys of Secrets that environment variables are taken from. -/
def secretKeys (l : Links) : List Value :=
  l.environment.filterMap secretRefOf

/-- The values of an environment variable. -/
def valuesOf (key : String) (l : Links) : List Value :=
  l.environment.filterMap (valueOf key)

/-- An endpoint selects the pods of a workload: they have all the labels it goes by. -/
def Selects (l d : Links) : Prop :=
  d.kind = some (.text Kind.deployment) ∧ ∃ selector labels, l.selector = some (.object selector) ∧
    d.podLabels = some (.object labels) ∧
    ∀ label ∈ selector, Fields.find? label.1 labels = some label.2

end Links

/-! ## What each kind of child says -/

section Built

variable {parent ns kind : Value} {name : String}

/-- The metadata of a child can be built for a well formed parent, and has the name and the namespace. -/
theorem exists_objectMeta (hparent : WellFormed parent)
    (haddr : addressOf parent = .ok ⟨kind, ns, .text name⟩) (child : Value) (owned : Bool) :
    ∃ fields, objectMeta parent child .null owned = .ok (.object fields) ∧
      Fields.find? "name" fields = some child ∧ Fields.find? "namespace" fields = some ns := by
  rcases hparent.objectMeta child owned with ⟨metadata, hmetadata⟩
  rcases of_objectMeta hmetadata with ⟨parentMeta, ns', hmeta, hns', hname, hns⟩
  rcases addressOf_eq_ok.mp haddr with ⟨parentMeta', hmeta', -, hns'', -⟩
  obtain rfl : parentMeta = parentMeta' := Option.some.inj (hmeta.symm.trans hmeta')
  obtain rfl : ns' = ns := Except.ok.inj (hns'.symm.trans hns'')
  cases metadata with
  | object fields => exact ⟨fields, hmetadata, hname, hns⟩
  | _ => simp [Value.field?] at hname

/-- A volume claim can be built, and asks for nothing. -/
theorem exists_storage (hparent : WellFormed parent)
    (haddr : addressOf parent = .ok ⟨kind, ns, .text name⟩) (s : Storage) :
    ∃ m, s.manifest parent = .ok m ∧ linksOf m =
      { kind := some (.text Kind.claim), name := some s.name, ns := some ns } := by
  rcases exists_objectMeta hparent haddr s.name s.bound with ⟨fields, hmeta, hname, hns⟩
  refine ⟨_, by simp only [Storage.manifest, hmeta, bind, Except.bind]; rfl, ?_⟩
  -- with or without a class, a claim refers to nothing
  split <;>
    simp [linksOf, containersOf, itemsOf, namesOf, Value.part?, Value.field?, Fields.find?, hname, hns]

/-- A credential can be built, and offers the key of the password. -/
theorem exists_credential (hparent : WellFormed parent)
    (haddr : addressOf parent = .ok ⟨kind, ns, .text name⟩) (password : Value) :
    ∃ m, credential parent password = .ok m ∧ linksOf m =
      { kind := some (.text Kind.secret), name := some (.text name), ns := some ns
        secretFields := [passwordKey] } := by
  have hsecret : credentialName parent = .ok (.text name) := nameOf_of_addressOf haddr
  rcases exists_objectMeta hparent haddr (.text name) true with ⟨fields, hmeta, hname, hns⟩
  refine ⟨_, by simp only [credential, hsecret, hmeta, bind, Except.bind]; rfl, ?_⟩
  simp [linksOf, containersOf, itemsOf, namesOf, Fields.names, Value.part?, Value.field?, Fields.find?,
    hname, hns]

/-- An endpoint can be built, and offers its ports and selects by its labels. -/
theorem exists_endpoint (hparent : WellFormed parent)
    (haddr : addressOf parent = .ok ⟨kind, ns, .text name⟩) {e : Endpoint} {selector : Fields}
    {l : Links} (hselector : e.selector = .object selector)
    (hl : l =
      { kind := some (.text Kind.service), name := some e.name, ns := some ns
        selector := some (.object selector), matchLabels := Fields.find? "matchLabels" selector
        ports := [e.port], targetPorts := [e.targetPort] }) :
    ∃ m, e.manifest parent = .ok m ∧ linksOf m = l := by
  subst hl
  rcases exists_objectMeta hparent haddr e.name true with ⟨fields, hmeta, hname, hns⟩
  refine ⟨_, by simp only [Endpoint.manifest, hmeta, hselector, Value.asObject, bind, Except.bind]; rfl,
    ?_⟩
  simp [linksOf, containersOf, itemsOf, namesOf, Value.part?, Value.field?, Fields.find?, hname, hns]

/-- The claim of a workload is named in a volume of the pod, if there is one. -/
theorem claims_volumes (w : Workload) :
    (itemsOf (Fields.find? "volumes" w.volumes)).filterMap
      (·.part? ["persistentVolumeClaim", "claimName"]) =
        if w.dataClaim.truthy then [w.dataClaim] else [] := by
  have hsource : Fields.find? "persistentVolumeClaim" [("name", .text "data"),
      ("persistentVolumeClaim", .object [("claimName", w.dataClaim)])] =
        some (.object [("claimName", w.dataClaim)]) := by
    rw [Fields.find?, if_neg (by decide), Fields.find?, if_pos rfl]
  have hclaim : (Value.object [("name", .text "data"),
      ("persistentVolumeClaim", .object [("claimName", w.dataClaim)])]).part?
        ["persistentVolumeClaim", "claimName"] = some w.dataClaim := by
    rw [Value.part?, Value.field?, hsource]
    rfl
  unfold Workload.volumes
  split
  · rw [Fields.find?, if_pos rfl, itemsOf, List.filterMap_cons_some hclaim, List.filterMap_nil]
  · rfl

/-- A workload can be built, and asks for what its environment and its volumes refer to. -/
theorem exists_workload (hparent : WellFormed parent)
    (haddr : addressOf parent = .ok ⟨kind, ns, .text name⟩) {w : Workload} {args : Value}
    {env ports : List Value} {labels : Fields} {l : Links} (hargs : Workload.listed w.args = .ok args)
    (henv : w.env = .list env) (hports : w.ports = .list ports) (hlabels : w.labels = .object labels)
    (hl : l =
      { kind := some (.text Kind.deployment), name := some w.name, ns := some ns
        environment := env, claims := if w.dataClaim.truthy then [w.dataClaim] else []
        selector := some (.object [("matchLabels", .object labels)])
        matchLabels := some (.object labels), podLabels := some (.object labels)
        containerPorts := ports.filterMap (·.field? "containerPort") }) :
    ∃ m, w.manifest parent = .ok m ∧ linksOf m = l := by
  subst hl
  have hlisted : ∀ items, Workload.listed (.list items) = .ok (.list items) := by
    intro items
    cases items <;> rfl
  rcases exists_objectMeta hparent haddr w.name true with ⟨fields, hmeta, hname, hns⟩
  refine ⟨_, by simp only [Workload.manifest, hargs, henv, hports, hlisted, hmeta, hlabels,
    Value.asObject, bind, Except.bind]; rfl, ?_⟩
  rw [← claims_volumes]
  -- nothing else is read off the volumes
  generalize w.volumes = volumes
  simp [linksOf, containersOf, itemsOf, namesOf, Value.part?, Value.field?, Fields.find?, hname, hns]

end Built

end Manifest

/-! ## What the manifests of a parent say -/

namespace Family

variable (ns : Value) (name child : String)

def claimLinks : Links :=
  { kind := some (.text Kind.claim), name := some (.text child), ns := some ns }

def credentialLinks : Links :=
  { kind := some (.text Kind.secret), name := some (.text name), ns := some ns
    secretFields := [passwordKey] }

def endpointLinks (selector : Fields) (port targetPort : Int) : Links :=
  { kind := some (.text Kind.service), name := some (.text child), ns := some ns
    selector := some (.object selector), ports := [.integer port]
    targetPorts := [.integer targetPort] }

def workloadLinks (environment claims : List Value) (labels : Fields) (ports : List Int) : Links :=
  { kind := some (.text Kind.deployment), name := some (.text child), ns := some ns
    environment, claims, selector := some (.object [("matchLabels", .object labels)])
    matchLabels := some (.object labels), podLabels := some (.object labels)
    containerPorts := ports.map .integer }

/-- What the manifest of the workload of a database says, with the credential of its parent. -/
def databaseLinks : Links :=
  workloadLinks ns child
    [env (.text "PGDATA") (.text databasePath), passwordEnv "POSTGRES_PASSWORD" (.text name)]
    [.text child] [("name", .text child)] [databasePort]

def keycloakLinks : Links :=
  workloadLinks ns (name ++ "-keycloak")
    [env (.text "DB_VENDOR") (.text "postgres"),
     env (.text "DB_ADDR") (.text (name ++ "-postgres-4-keycloak")),
     env (.text "DB_PORT") (.text (toString databasePort)),
     env (.text "DB_USER") (.text "postgres"),
     env (.text "DB_DATABASE") (.text "postgres"),
     env (.text "KEYCLOAK_USER") (.text "hyperuser"),
     env (.text "KEYCLOAK_CORS") (.text "true"),
     env (.text "KEYCLOAK_ALWAYS_HTTPS") (.text "false"),
     env (.text "PROTOCOL") (.text "http"),
     env (.text "PROXY_ADDRESS_FORWARDING") (.text "true"),
     passwordEnv "KEYCLOAK_PASSWORD" (.text name),
     passwordEnv "DB_PASSWORD" (.text name)]
    [] [("name", .text (name ++ "-keycloak"))] [Starlane.httpPort]

def serverLinks : Links :=
  workloadLinks ns name
    [env (.text "STARLANE_KUBERNETES_INSTANCE_NAME") (.text name),
     env (.text "STARLANE_KEYCLOAK_URL")
       (.text (name ++ "-keycloak" ++ ":" ++ toString Starlane.httpPort)),
     env (.text "NAMESPACE") ns,
     passwordEnv "STARLANE_PASSWORD" (.text name)]
    []
    [("app", .text "starlane"), ("galaxy", .text name), ("web", .text "true"),
     ("gateway", .text "true")]
    [Starlane.gatewayPort, Starlane.httpPort]

/-- What the manifests of a parent say, in the order of the tiers. -/
def links : Family → List Links
  | service =>
    [claimLinks ns (name ++ "-postgres-4-keycloak"),
     credentialLinks ns name,
     databaseLinks ns name (name ++ "-postgres-4-keycloak"),
     endpointLinks ns (name ++ "-postgres-4-keycloak")
       [("name", .text (name ++ "-postgres-4-keycloak"))] databasePort databasePort,
     keycloakLinks ns name,
     endpointLinks ns (name ++ "-keycloak") [("name", .text (name ++ "-keycloak"))]
       Starlane.httpPort Starlane.httpPort,
     serverLinks ns name,
     endpointLinks ns (name ++ "-web")
       [("app", .text "starlane"), ("galaxy", .text name), ("web", .text "true")]
       Starlane.webPort Starlane.httpPort,
     endpointLinks ns (name ++ "-gateway")
       [("app", .text "starlane"), ("galaxy", .text name), ("gateway", .text "true")]
       Starlane.gatewayPort Starlane.gatewayPort]
  | database =>
    [claimLinks ns name,
     credentialLinks ns name,
     databaseLinks ns name name,
     endpointLinks ns name [("name", .text name)] databasePort databasePort]

/-- Kinds and names of the children of a parent, in the order of the tiers. -/
def childNames : Family → List (String × Value)
  | service =>
    [("PersistentVolumeClaim", .text (name ++ "-postgres-4-keycloak")),
     ("Secret", .text name),
     ("Deployment", .text (name ++ "-postgres-4-keycloak")),
     ("Service", .text (name ++ "-postgres-4-keycloak")),
     ("Deployment", .text (name ++ "-keycloak")),
     ("Service", .text (name ++ "-keycloak")),
     ("Deployment", .text name),
     ("Service", .text (name ++ "-web")),
     ("Service", .text (name ++ "-gateway"))]
  | database =>
    [("PersistentVolumeClaim", .text name), ("Secret", .text name), ("Deployment", .text name),
     ("Service", .text name)]

end Family

/-! ## Tiers -/

/-- A manifest that a tier may build, whatever characters are drawn for it. -/
def Tier.Builds (tier : Tier) (m : Value) : Prop :=
  ∃ h, Program.Leads (facing noted) tier.build.run [] (.done (.ok m)) h

/-- A tier says where its child goes, asks nothing of the store, and always builds a manifest that says the
same. -/
structure Tier.Shows (ns : Value) (tier : Tier) (l : Links) : Prop where
  kind : l.kind = some (.text tier.kind)
  name : l.name = some tier.childName
  ns : l.ns = some ns
  build : Pass.Ensures noted (fun _ _ => False) (fun _ r => ∃ m, r = .ok m ∧ linksOf m = l)
    tier.build []

section Builders

variable {parent kind ns : Value} {name child : String}

/-- A read that comes to a manifest can be the build of a tier. -/
theorem ensures_shown {read : Except Fault Value} {l : Links}
    (h : ∃ m, read = .ok m ∧ linksOf m = l) :
    Pass.Ensures noted (fun _ _ => False) (fun _ r => ∃ m, r = .ok m ∧ linksOf m = l)
      (Pass.lift read) [] := by
  rcases h with ⟨m, rfl, hlinks⟩
  exact (Pass.ensures_lift _ _).mpr ⟨m, rfl, hlinks⟩

/-- Whatever password is drawn, the credential that is built says the same. -/
theorem ensures_shown_credential (hparent : WellFormed parent)
    (haddr : addressOf parent = .ok ⟨kind, ns, .text name⟩) :
    Pass.Ensures noted (fun _ _ => False)
      (fun _ r => ∃ m, r = .ok m ∧ linksOf m = Family.credentialLinks ns name)
      (buildCredential parent) [] := by
  unfold buildCredential
  rw [Pass.ensures_bind]
  refine draw_ensures ?_
  intro password
  rw [Pass.andThen, Pass.ensures_liftRead]
  rcases exists_credential hparent haddr (.text password) with ⟨m, hm, hlinks⟩
  rw [hm]
  exact ⟨m, rfl, hlinks⟩

theorem exists_databaseClaim (hparent : WellFormed parent)
    (haddr : addressOf parent = .ok ⟨kind, ns, .text name⟩) {read : Except Fault Value}
    (hread : read = .ok (.text child)) (size : String) :
    ∃ m, databaseClaim parent read size = .ok m ∧ linksOf m = Family.claimLinks ns child := by
  rcases hparent.specOf with ⟨fields, hspec, -⟩
  simp only [databaseClaim, hspec, hread, Value.fieldOrNull, Value.fieldOr, bind, Except.bind]
  exact exists_storage hparent haddr _

theorem exists_databaseWorkload (hparent : WellFormed parent)
    (haddr : addressOf parent = .ok ⟨kind, ns, .text name⟩) (images : Images) (hchild : child ≠ "") :
    ∃ m, databaseWorkload images parent (.text child) = .ok m ∧
      linksOf m = Family.databaseLinks ns name child := by
  have hsecret : credentialName parent = .ok (.text name) := nameOf_of_addressOf haddr
  simp only [databaseWorkload, hsecret, bind, Except.bind]
  refine exists_workload hparent haddr rfl rfl rfl rfl ?_
  simp [Family.databaseLinks, Family.workloadLinks, Value.truthy, hchild, containerPort, Value.field?,
    Fields.find?]

/-- The endpoint of a database, or one that is built like it. -/
theorem exists_plainEndpoint (hparent : WellFormed parent)
    (haddr : addressOf parent = .ok ⟨kind, ns, .text name⟩) {selector : Fields}
    (hselector : Fields.find? "matchLabels" selector = none) (exposure portName : Value)
    (port targetPort : Int) :
    ∃ m, Endpoint.manifest
        { name := .text child, exposure, portName, port := .integer port
          targetPort := .integer targetPort, selector := .object selector } parent = .ok m ∧
      linksOf m = Family.endpointLinks ns child selector port targetPort := by
  refine exists_endpoint hparent haddr rfl ?_
  simp [Family.endpointLinks, hselector]

/-- A read of the spec does not fail. -/
theorem exists_of_specField (hparent : WellFormed parent) {key : String}
    {next : Value → Except Fault Value} {l : Links}
    (hnext : ∀ v, ∃ m, next v = .ok m ∧ linksOf m = l) :
    ∃ m, (do
      let spec ← specOf parent
      let v ← spec.fieldOrNull key
      next v) = .ok m ∧ linksOf m = l := by
  rcases hparent.specOf with ⟨fields, hspec, -⟩
  simp only [hspec, Value.fieldOrNull, Value.fieldOr, bind, Except.bind]
  exact hnext _

theorem exists_postgresService (hparent : WellFormed parent)
    (haddr : addressOf parent = .ok ⟨kind, ns, .text name⟩) :
    ∃ m, Postgres.service parent = .ok m ∧ linksOf m =
      Family.endpointLinks ns name [("name", .text name)] databasePort databasePort := by
  simp only [Postgres.service, nameOf_of_addressOf haddr, bind, Except.bind]
  exact exists_of_specField hparent fun exposure => exists_plainEndpoint hparent haddr rfl _ _ _ _

theorem exists_keycloakService (hparent : WellFormed parent)
    (haddr : addressOf parent = .ok ⟨kind, ns, .text name⟩) :
    ∃ m, Starlane.keycloakService parent = .ok m ∧ linksOf m =
      Family.endpointLinks ns (name ++ "-keycloak") [("name", .text (name ++ "-keycloak"))]
        Starlane.httpPort Starlane.httpPort := by
  simp only [Starlane.keycloakService, Starlane.keycloakName, named_of_addressOf haddr, bind,
    Except.bind]
  exact exists_plainEndpoint hparent haddr rfl _ _ _ _

theorem exists_webService (hparent : WellFormed parent)
    (haddr : addressOf parent = .ok ⟨kind, ns, .text name⟩) :
    ∃ m, Starlane.webService parent = .ok m ∧ linksOf m =
      Family.endpointLinks ns (name ++ "-web")
        [("app", .text "starlane"), ("galaxy", .text name), ("web", .text "true")]
        Starlane.webPort Starlane.httpPort := by
  simp only [Starlane.webService, Starlane.webName, named_of_addressOf haddr,
    nameOf_of_addressOf haddr, bind, Except.bind]
  exact exists_of_specField hparent fun exposure => exists_plainEndpoint hparent haddr rfl _ _ _ _

theorem exists_gatewayService (hparent : WellFormed parent)
    (haddr : addressOf parent = .ok ⟨kind, ns, .text name⟩) :
    ∃ m, Starlane.gatewayService parent = .ok m ∧ linksOf m =
      Family.endpointLinks ns (name ++ "-gateway")
        [("app", .text "starlane"), ("galaxy", .text name), ("gateway", .text "true")]
        Starlane.gatewayPort Starlane.gatewayPort := by
  simp only [Starlane.gatewayService, Starlane.gatewayName, named_of_addressOf haddr,
    nameOf_of_addressOf haddr, bind, Except.bind]
  exact exists_of_specField hparent fun exposure => exists_plainEndpoint hparent haddr rfl _ _ _ _

/-- The identity service can be built, and asks for the credential and the host of the database. -/
theorem exists_keycloak (hparent : WellFormed parent)
    (haddr : addressOf parent = .ok ⟨kind, ns, .text name⟩) (images : Images) :
    ∃ m, Starlane.keycloakDeployment images parent = .ok m ∧
      linksOf m = Family.keycloakLinks ns name := by
  have hsecret : credentialName parent = .ok (.text name) := nameOf_of_addressOf haddr
  simp only [Starlane.keycloakDeployment, Starlane.keycloakName, Starlane.databaseName,
    named_of_addressOf haddr, hsecret, bind, Except.bind]
  refine exists_workload hparent haddr rfl rfl rfl rfl ?_
  simp [Family.keycloakLinks, Family.workloadLinks, Value.truthy, containerPort, Value.field?,
    Fields.find?]

/-- The server can be built, and asks for the credential and the address of the identity service. -/
theorem exists_server (hparent : WellFormed parent)
    (haddr : addressOf parent = .ok ⟨kind, ns, .text name⟩) (images : Images) :
    ∃ m, Starlane.deployment images parent = .ok m ∧ linksOf m = Family.serverLinks ns name := by
  have hsecret : credentialName parent = .ok (.text name) := nameOf_of_addressOf haddr
  rcases addressOf_eq_ok.mp haddr with ⟨metadata, hmeta, -, hns, hname⟩
  simp only [Starlane.deployment, metadataOf, Value.require_eq_ok.mpr hmeta,
    Value.require_eq_ok.mpr hname, Starlane.keycloakName, named_of_addressOf haddr, hns, hsecret, bind,
    Except.bind]
  refine exists_workload hparent haddr rfl rfl rfl rfl ?_
  simp [Family.serverLinks, Family.workloadLinks, Value.truthy, containerPort, Value.field?,
    Fields.find?]
  -- the host stands for itself in the address
  rfl

end Builders

/-- The tiers of a parent show what its manifests say, one each, in order. -/
theorem Family.tiers_show (family : Family) (images : Images) {parent ns : Value} {name : String}
    (hname : name ≠ "") (hparent : WellFormed parent)
    (haddr : addressOf parent = .ok ⟨.text family.kind, ns, .text name⟩) :
    ∃ tiers, family.tiers images parent = .ok tiers ∧
      List.Forall₂ (Tier.Shows ns) tiers (family.links ns name) := by
  have hnameOf := nameOf_of_addressOf haddr
  have hsecret : credentialName parent = .ok (.text name) := hnameOf
  cases family with
  | database =>
    refine ⟨_, by simp only [tiers, databaseTiers, hnameOf, hsecret, bind, Except.bind]; rfl, ?_⟩
    -- where each tier looks is read off; that it always builds its manifest is shown one tier at a time
    refine .cons ⟨rfl, rfl, rfl, ensures_shown ?_⟩ (.cons ⟨rfl, rfl, rfl, ?_⟩
      (.cons ⟨rfl, rfl, rfl, ensures_shown ?_⟩ (.cons ⟨rfl, rfl, rfl, ensures_shown ?_⟩ .nil)))
    · exact exists_databaseClaim hparent haddr hnameOf _
    · exact ensures_shown_credential hparent haddr
    · simp only [Postgres.deployment, hnameOf, bind, Except.bind]
      exact exists_databaseWorkload hparent haddr images hname
    · exact exists_postgresService hparent haddr
  | service =>
    have hdatabase : Starlane.databaseName parent = .ok (.text (name ++ "-postgres-4-keycloak")) :=
      named_of_addressOf haddr _
    have hkeycloak : Starlane.keycloakName parent = .ok (.text (name ++ "-keycloak")) :=
      named_of_addressOf haddr _
    have hweb : Starlane.webName parent = .ok (.text (name ++ "-web")) := named_of_addressOf haddr _
    have hgateway : Starlane.gatewayName parent = .ok (.text (name ++ "-gateway")) :=
      named_of_addressOf haddr _
    have hne : name ++ "-postgres-4-keycloak" ≠ "" := by simp
    refine ⟨_, by simp only [tiers, serviceTiers, hnameOf, hsecret, hdatabase, hkeycloak, hweb,
      hgateway, bind, Except.bind]; rfl, ?_⟩
    refine .cons ⟨rfl, rfl, rfl, ensures_shown ?_⟩ (.cons ⟨rfl, rfl, rfl, ?_⟩
      (.cons ⟨rfl, rfl, rfl, ensures_shown ?_⟩ (.cons ⟨rfl, rfl, rfl, ensures_shown ?_⟩
      (.cons ⟨rfl, rfl, rfl, ensures_shown ?_⟩ (.cons ⟨rfl, rfl, rfl, ensures_shown ?_⟩
      (.cons ⟨rfl, rfl, rfl, ensures_shown ?_⟩ (.cons ⟨rfl, rfl, rfl, ensures_shown ?_⟩
      (.cons ⟨rfl, rfl, rfl, ensures_shown ?_⟩ .nil))))))))
    · exact exists_databaseClaim hparent haddr hdatabase _
    · exact ensures_shown_credential hparent haddr
    · simp only [Starlane.databaseDeployment, hdatabase, bind, Except.bind]
      exact exists_databaseWorkload hparent haddr images hne
    · simp only [Starlane.databaseService, hdatabase, bind, Except.bind]
      exact exists_plainEndpoint hparent haddr rfl _ _ _ _
    · exact exists_keycloak hparent haddr images
    · exact exists_keycloakService hparent haddr
    · exact exists_server hparent haddr images
    · exact exists_webService hparent haddr
    · exact exists_gatewayService hparent haddr

/-! ## Everything is there before it is asked for -/

/-- Everything that a manifest asks for is offered by one that comes before it; and the pods that an endpoint
selects are those of one workload among all. -/
structure Wired (before all : List Links) (l : Links) : Prop where
  secrets : ∀ ref ∈ l.secretKeys, ∃ s ∈ before, s.kind = some (.text Kind.secret) ∧
    ref.field? "name" = s.name ∧ ∃ key ∈ s.secretFields, ref.field? "key" = some (.text key)
  claims : ∀ claim ∈ l.claims, ∃ s ∈ before, s.kind = some (.text Kind.claim) ∧ s.name = some claim
  database : ∀ host ∈ l.valuesOf "DB_ADDR", ∃ s ∈ before, s.kind = some (.text Kind.service) ∧
    s.name = some host ∧ ∃ port : Int, .integer port ∈ s.ports ∧
      l.valuesOf "DB_PORT" = [.text (toString port)]
  identity : ∀ url ∈ l.valuesOf "STARLANE_KEYCLOAK_URL", ∃ s ∈ before,
    s.kind = some (.text Kind.service) ∧ ∃ (host : String) (port : Int), s.name = some (.text host) ∧
      .integer port ∈ s.ports ∧ url = .text (host ++ ":" ++ toString port)
  endpoint : l.kind = some (.text Kind.service) → l.targetPorts ≠ [] ∧
    ∃ d ∈ before, l.Selects d ∧ d.matchLabels = d.podLabels ∧
      (∀ port ∈ l.targetPorts, port ∈ d.containerPorts) ∧ ∀ d' ∈ all, l.Selects d' → d' = d

/-- What holds of every item and those before it. -/
theorem splits_cons {α : Type} {P : List α → α → Prop} {a : α} {rest : List α} (hfirst : P [] a)
    (hrest : ∀ before b after, rest = before ++ b :: after → P (a :: before) b) :
    ∀ before b after, a :: rest = before ++ b :: after → P before b := by
  intro before b after heq
  cases before with
  | nil =>
    obtain ⟨rfl, -⟩ := List.cons.inj heq
    exact hfirst
  | cons c before =>
    obtain ⟨rfl, htail⟩ := List.cons.inj heq
    exact hrest before b after htail

theorem splits_nil {α : Type} {P : List α → α → Prop} :
    ∀ before b after, ([] : List α) = before ++ b :: after → P before b := by
  intro before b after heq
  simp at heq

/-- A manifest that neither runs nor exposes anything asks for nothing. -/
theorem wired_of_inert {before all : List Links} {l : Links} (henv : l.environment = [])
    (hclaims : l.claims = []) (hkind : l.kind ≠ some (.text Kind.service)) : Wired before all l := by
  constructor <;> simp [Links.secretKeys, Links.valuesOf, henv, hclaims, hkind]

/-- Only workloads have pods to select. -/
theorem not_selects {l d : Links} (hkind : d.kind ≠ some (.text Kind.deployment)) : ¬ l.Selects d :=
  fun h => hkind h.1

@[simp] theorem not_selects_claim (l : Links) (ns : Value) (child : String) :
    ¬ l.Selects (Family.claimLinks ns child) :=
  not_selects (by simp [Family.claimLinks, Kind.claim, Kind.deployment])

@[simp] theorem not_selects_credential (l : Links) (ns : Value) (name : String) :
    ¬ l.Selects (Family.credentialLinks ns name) :=
  not_selects (by simp [Family.credentialLinks, Kind.secret, Kind.deployment])

@[simp] theorem not_selects_endpoint (l : Links) (ns : Value) (child : String) (selector : Fields)
    (port targetPort : Int) : ¬ l.Selects (Family.endpointLinks ns child selector port targetPort) :=
  not_selects (by simp [Family.endpointLinks, Kind.service, Kind.deployment])

/-- An endpoint selects a workload exactly if the pods have the labels it goes by. -/
@[simp] theorem selects_workload {ns ns' : Value} {child child' : String} {selector labels : Fields}
    {port targetPort : Int} {environment claims : List Value} {ports : List Int} :
    (Family.endpointLinks ns child selector port targetPort).Selects
        (Family.workloadLinks ns' child' environment claims labels ports) ↔
      ∀ label ∈ selector, Fields.find? label.1 labels = some label.2 := by
  simp [Links.Selects, Family.endpointLinks, Family.workloadLinks]

/-- An endpoint asks for the pods of the one workload that it selects. -/
theorem wired_endpoint {before all : List Links} {ns : Value} {child child' : String}
    {selector labels : Fields} {port targetPort : Int} {environment claims : List Value}
    {ports : List Int} {d : Links}
    (hd : d = Family.workloadLinks ns child' environment claims labels ports) (hmem : d ∈ before)
    (hselects : ∀ label ∈ selector, Fields.find? label.1 labels = some label.2)
    (hport : targetPort ∈ ports)
    (honly : ∀ d' ∈ all, (Family.endpointLinks ns child selector port targetPort).Selects d' → d' = d) :
    Wired before all (Family.endpointLinks ns child selector port targetPort) := by
  subst hd
  refine ⟨by simp [Links.secretKeys, Family.endpointLinks], by simp [Family.endpointLinks],
    by simp [Links.valuesOf, Family.endpointLinks], by simp [Links.valuesOf, Family.endpointLinks], ?_⟩
  intro _
  exact ⟨by simp [Family.endpointLinks], _, hmem, selects_workload.mpr hselects, rfl,
    by simpa [Family.endpointLinks, Family.workloadLinks] using hport, honly⟩

/-- A workload that takes the password of its parent asks for the credential, and for what it mounts and
calls. -/
theorem wired_workload {before all : List Links} {ns : Value} {name child : String}
    {environment claims : List Value} {labels : Fields} {ports : List Int} {l : Links}
    (hl : l = Family.workloadLinks ns child environment claims labels ports)
    (hsecret : Family.credentialLinks ns name ∈ before)
    (hrefs : ∀ ref ∈ l.secretKeys,
      ref = .object [("name", .text name), ("key", .text passwordKey)])
    (hclaims : ∀ claim ∈ claims, ∃ s ∈ before, s.kind = some (.text Kind.claim) ∧ s.name = some claim)
    (hdatabase : ∀ host ∈ l.valuesOf "DB_ADDR", ∃ s ∈ before, s.kind = some (.text Kind.service) ∧
      s.name = some host ∧ ∃ port : Int, .integer port ∈ s.ports ∧
        l.valuesOf "DB_PORT" = [.text (toString port)])
    (hidentity : ∀ url ∈ l.valuesOf "STARLANE_KEYCLOAK_URL", ∃ s ∈ before,
      s.kind = some (.text Kind.service) ∧ ∃ (host : String) (port : Int),
        s.name = some (.text host) ∧ .integer port ∈ s.ports ∧
          url = .text (host ++ ":" ++ toString port)) : Wired before all l := by
  subst hl
  refine ⟨?_, hclaims, hdatabase, hidentity, ?_⟩
  · intro ref href
    rw [hrefs ref href]
    exact ⟨_, hsecret, rfl, rfl, passwordKey, by simp [Family.credentialLinks], rfl⟩
  · intro hkind
    simp [Family.workloadLinks, Kind.deployment, Kind.service] at hkind

/-- A database is wired once its claim and the credential come before it. -/
theorem wired_database {before all : List Links} {ns : Value} {name child : String}
    (hclaim : Family.claimLinks ns child ∈ before) (hsecret : Family.credentialLinks ns name ∈ before) :
    Wired before all (Family.databaseLinks ns name child) := by
  refine wired_workload rfl hsecret ?_ ?_ ?_ ?_
  · simp [Family.databaseLinks, Family.workloadLinks, Links.secretKeys]
  · simpa using ⟨_, hclaim, rfl, rfl⟩
  · simp [Family.databaseLinks, Family.workloadLinks, Links.valuesOf]
  · simp [Family.databaseLinks, Family.workloadLinks, Links.valuesOf]

/-- An identity service is wired once the credential and the endpoint of the database come before it. -/
theorem wired_keycloak {before all : List Links} {ns : Value} {name : String}
    (hsecret : Family.credentialLinks ns name ∈ before)
    (hdatabase : Family.endpointLinks ns (name ++ "-postgres-4-keycloak")
      [("name", .text (name ++ "-postgres-4-keycloak"))] databasePort databasePort ∈ before) :
    Wired before all (Family.keycloakLinks ns name) := by
  have haddr : (Family.keycloakLinks ns name).valuesOf "DB_ADDR" =
      [.text (name ++ "-postgres-4-keycloak")] := by
    simp [Family.keycloakLinks, Family.workloadLinks, Links.valuesOf]
  have hport : (Family.keycloakLinks ns name).valuesOf "DB_PORT" = [.text (toString databasePort)] := by
    simp [Family.keycloakLinks, Family.workloadLinks, Links.valuesOf]
  refine wired_workload rfl hsecret ?_ (by simp) ?_ ?_
  · simp [Family.keycloakLinks, Family.workloadLinks, Links.secretKeys]
  · rw [haddr, hport]
    simp only [List.forall_mem_singleton]
    exact ⟨_, hdatabase, rfl, rfl, databasePort, by simp [Family.endpointLinks], rfl⟩
  · simp [Family.keycloakLinks, Family.workloadLinks, Links.valuesOf]

/-- A server is wired once the credential and the endpoint of the identity service come before it. -/
theorem wired_server {before all : List Links} {ns : Value} {name : String}
    (hsecret : Family.credentialLinks ns name ∈ before)
    (hkeycloak : Family.endpointLinks ns (name ++ "-keycloak")
      [("name", .text (name ++ "-keycloak"))] Starlane.httpPort Starlane.httpPort ∈ before) :
    Wired before all (Family.serverLinks ns name) := by
  have hurl : (Family.serverLinks ns name).valuesOf "STARLANE_KEYCLOAK_URL" =
      [.text (name ++ "-keycloak" ++ ":" ++ toString Starlane.httpPort)] := by
    simp [Family.serverLinks, Family.workloadLinks, Links.valuesOf]
  refine wired_workload rfl hsecret ?_ (by simp) ?_ ?_
  · simp [Family.serverLinks, Family.workloadLinks, Links.secretKeys]
  · simp [Family.serverLinks, Family.workloadLinks, Links.valuesOf]
  · rw [hurl]
    simp only [List.forall_mem_singleton]
    exact ⟨_, hkeycloak, rfl, name ++ "-keycloak", Starlane.httpPort, rfl,
      by simp [Family.endpointLinks], rfl⟩

/-- The manifests of a parent ask for nothing that comes later. -/
theorem Family.links_wired (family : Family) (ns : Value) (name : String) :
    ∀ before l after, family.links ns name = before ++ l :: after →
      Wired before (family.links ns name) l := by
  cases family with
  | database =>
    refine splits_cons (wired_of_inert rfl rfl ?_) (splits_cons (wired_of_inert rfl rfl ?_)
      (splits_cons (wired_database (by simp) (by simp)) (splits_cons ?_ splits_nil)))
    · simp [claimLinks, Kind.claim, Kind.service]
    · simp [credentialLinks, Kind.secret, Kind.service]
    · exact wired_endpoint (d := databaseLinks ns name name) rfl (by simp) (by simp [Fields.find?])
        (by simp) (by simp [links])
  | service =>
    -- claims and credentials ask for nothing; everything else has what it asks for before it
    refine splits_cons (wired_of_inert rfl rfl ?_) (splits_cons (wired_of_inert rfl rfl ?_)
      (splits_cons (wired_database (by simp) (by simp)) (splits_cons ?_
      (splits_cons (wired_keycloak (by simp) (by simp)) (splits_cons ?_
      (splits_cons (wired_server (by simp) (by simp)) (splits_cons ?_
      (splits_cons ?_ splits_nil))))))))
    · simp [claimLinks, Kind.claim, Kind.service]
    · simp [credentialLinks, Kind.secret, Kind.service]
    · exact wired_endpoint (d := databaseLinks ns name (name ++ "-postgres-4-keycloak")) rfl (by simp)
        (by simp [Fields.find?]) (by simp) (by simp [links, keycloakLinks, serverLinks, Fields.find?])
    · exact wired_endpoint (d := keycloakLinks ns name) rfl (by simp) (by simp [Fields.find?]) (by simp)
        (by simp [links, databaseLinks, serverLinks, Fields.find?])
    · exact wired_endpoint (d := serverLinks ns name) rfl (by simp) (by simp [Fields.find?]) (by simp)
        (by simp [links, databaseLinks, keycloakLinks, Fields.find?])
    · exact wired_endpoint (d := serverLinks ns name) rfl (by simp) (by simp [Fields.find?]) (by simp)
        (by simp [links, databaseLinks, keycloakLinks, Fields.find?])

/-! ## Parents -/

/-- Whatever is asked while the store is not, there is an answer. -/
theorem exists_noted (h : History) (op : PassOp) : ∃ answer h', facing noted h op answer h' :=
  ⟨_, _, h.noted_after (facing_unreliable (Cluster.empty.facing_answered op))⟩

/-- Building a tier comes to nothing but a manifest that says what the tier shows, and always comes to one. -/
theorem Tier.Shows.builds {ns : Value} {tier : Tier} {l : Links} (h : tier.Shows ns l) :
    (∃ m, tier.Builds m) ∧ (∀ m, tier.Builds m → linksOf m = l) ∧
      ∀ r h, Program.Leads (facing noted) tier.build.run [] (.done r) h → ∃ m, r = .ok m := by
  have hdone : ∀ r h, Program.Leads (facing noted) tier.build.run [] (.done r) h →
      ∃ m, r = .ok m ∧ linksOf m = l := fun r h' hrun => Program.Ensures.of_leads h.build hrun
  refine ⟨?_, ?_, fun r h' hrun => ?_⟩
  · obtain ⟨r, h', hrun⟩ := Program.exists_leads_done exists_noted tier.build.run []
    rcases hdone r h' hrun with ⟨m, rfl, -⟩
    exact ⟨m, h', hrun⟩
  · rintro m ⟨h', hrun⟩
    rcases hdone _ h' hrun with ⟨m', hm, hlinks⟩
    rw [Except.ok.inj hm, hlinks]
  · rcases hdone r h' hrun with ⟨m, hm, -⟩
    exact ⟨m, hm⟩

/-- The manifests of a parent are those of its children. -/
theorem Family.map_links (family : Family) (ns : Value) (name : String) :
    (family.links ns name).map (fun l => (l.kind, l.name)) =
      (family.childNames name).map fun child => (some (.text child.1), some child.2) := by
  cases family with
  | database => rfl
  | service => rfl

/-- No two children of a parent are of the same kind under the same name. -/
theorem Family.nodup_childNames (family : Family) (name : String) : (family.childNames name).Nodup := by
  cases family with
  | database => simp [childNames]
  | service => simp [childNames]

section Shown

variable {ns : Value} {tiers : List Tier} {ls : List Links} {ms : List Value}

/-- Tiers that show what they build do build manifests. -/
theorem exists_manifests (hshow : List.Forall₂ (Tier.Shows ns) tiers ls) :
    ∃ ms, List.Forall₂ Tier.Builds tiers ms := by
  induction hshow with
  | nil => exact ⟨[], .nil⟩
  | cons hfirst _ ih =>
    rcases hfirst.builds.1 with ⟨m, hm⟩
    rcases ih with ⟨ms, hms⟩
    exact ⟨m :: ms, .cons hm hms⟩

/-- The manifests say what the tiers show. -/
theorem map_linksOf (hshow : List.Forall₂ (Tier.Shows ns) tiers ls)
    (hbuilds : List.Forall₂ Tier.Builds tiers ms) : ms.map linksOf = ls := by
  induction hshow generalizing ms with
  | nil =>
    cases hbuilds
    rfl
  | cons hfirst _ ih =>
    cases hbuilds with
    | cons hm hms => rw [List.map_cons, hfirst.builds.2.1 _ hm, ih hms]

/-- The manifests go where the tiers look for them. -/
theorem addressed_of_shows (hshow : List.Forall₂ (Tier.Shows ns) tiers ls)
    (hbuilds : List.Forall₂ Tier.Builds tiers ms) :
    List.Forall₂ (fun tier m => m.field? "kind" = some (.text tier.kind) ∧
      m.part? ["metadata", "name"] = some tier.childName ∧
      m.part? ["metadata", "namespace"] = some ns) tiers ms := by
  induction hshow generalizing ms with
  | nil =>
    cases hbuilds
    exact .nil
  | @cons tier l _ _ hfirst _ ih =>
    cases hbuilds with
    | @cons _ m _ _ hm hms =>
      obtain rfl := hfirst.builds.2.1 m hm
      exact .cons ⟨hfirst.kind, hfirst.name, hfirst.ns⟩ (ih hms)

/-- The tiers are those of the kinds and names that are shown. -/
theorem map_childName_of_shows {children : List (String × Value)}
    (hshow : List.Forall₂ (Tier.Shows ns) tiers ls)
    (hchildren : ls.map (fun l => (l.kind, l.name)) =
      children.map fun child => (some (.text child.1), some child.2)) :
    tiers.map (fun tier => (tier.kind, tier.childName)) = children := by
  induction hshow generalizing children with
  | nil => simpa using hchildren.symm
  | cons hfirst _ ih =>
    cases children with
    | nil => cases hchildren
    | cons child children =>
      obtain ⟨hchild, hrest⟩ := List.cons.inj hchildren
      simp only [hfirst.kind, hfirst.name, Prod.mk.injEq, Option.some.injEq, Value.text.injEq] at hchild
      rw [List.map_cons, ih hrest, hchild.1, hchild.2]

end Shown

/-- For every parent with a name, whatever its spec, its namespace and the images: the tiers are those of its
children, no two of which are of the same kind under the same name; every tier can build its manifest; each
manifest is addressed as the tier looks for it and says what a manifest of its kind is to say; and all that it
asks for is offered by the manifests of earlier tiers. -/
theorem manifests_wired (family : Family) (images : Images) {parent ns : Value} {name : String}
    (hname : name ≠ "") (hparent : WellFormed parent)
    (haddr : addressOf parent = .ok ⟨.text family.kind, ns, .text name⟩) :
    ∃ tiers, family.tiers images parent = .ok tiers ∧
      (tiers.map fun tier => (tier.kind, tier.childName)) = family.childNames name ∧
      (tiers.map fun tier => (tier.kind, tier.childName)).Nodup ∧
      (∃ ms, List.Forall₂ Tier.Builds tiers ms) ∧
      (∀ tier ∈ tiers, ∀ r h, Program.Leads (facing noted) tier.build.run [] (.done r) h →
        ∃ m, r = .ok m) ∧
      ∀ ms, List.Forall₂ Tier.Builds tiers ms →
        List.Forall₂ (fun tier m => m.field? "kind" = some (.text tier.kind) ∧
          m.part? ["metadata", "name"] = some tier.childName ∧
          m.part? ["metadata", "namespace"] = some ns) tiers ms ∧
        ms.map linksOf = family.links ns name ∧
        ∀ before m after, ms = before ++ m :: after →
          Wired (before.map linksOf) (ms.map linksOf) (linksOf m) := by
  rcases family.tiers_show images hname hparent haddr with ⟨tiers, htiers, hshow⟩
  have hchildren := map_childName_of_shows hshow (family.map_links ns name)
  refine ⟨tiers, htiers, hchildren, hchildren ▸ family.nodup_childNames name, exists_manifests hshow, ?_,
    fun ms hms => ⟨addressed_of_shows hshow hms, map_linksOf hshow hms, ?_⟩⟩
  · intro tier htier
    rcases List.mem_iff_getElem.mp htier with ⟨i, hi, rfl⟩
    exact (hshow.get hi (hshow.length_eq ▸ hi)).builds.2.2
  · have hlinks := map_linksOf hshow hms
    rintro before m after rfl
    rw [hlinks]
    exact family.links_wired ns name _ _ _ (by rw [← hlinks, List.map_append, List.map_cons])

/-! ### A service and a database -/

def sampleService : Value :=
  .object [("apiVersion", .text apiGroupVersion), ("kind", .text Kind.starlane),
    ("metadata", .object [("name", .text "space"), ("namespace", .text "lab")])]

def nullSpecDatabase : Value :=
  .object [("apiVersion", .text apiGroupVersion), ("kind", .text Kind.postgres),
    ("metadata", .object [("name", .text "pg")]), ("spec", .null)]

/-- How many keys, claims, hosts, addresses and selectors a manifest asks for. -/
def demands (l : Links) : List Nat :=
  [l.secretKeys.length, l.claims.length, (l.valuesOf "DB_ADDR").length,
   (l.valuesOf "STARLANE_KEYCLOAK_URL").length, l.targetPorts.length]

theorem parents_wired :
    (∃ tiers ms, Family.service.tiers {} sampleService = .ok tiers ∧
      List.Forall₂ Tier.Builds tiers ms ∧
      (tiers.map fun tier => (tier.kind, tier.childName)) = Family.service.childNames "space" ∧
      ms.map linksOf = Family.service.links (.text "lab") "space" ∧
      (ms.map linksOf).map demands = [[0, 0, 0, 0, 0], [0, 0, 0, 0, 0], [1, 1, 0, 0, 0], [0, 0, 0, 0, 1],
        [2, 0, 1, 0, 0], [0, 0, 0, 0, 1], [1, 0, 0, 1, 0], [0, 0, 0, 0, 1], [0, 0, 0, 0, 1]] ∧
      ∀ before m after, ms = before ++ m :: after →
        Wired (before.map linksOf) (ms.map linksOf) (linksOf m)) ∧
    ∃ tiers ms, Family.database.tiers {} nullSpecDatabase = .ok tiers ∧
      List.Forall₂ Tier.Builds tiers ms ∧
      (tiers.map fun tier => (tier.kind, tier.childName)) = Family.database.childNames "pg" ∧
      ms.map linksOf = Family.database.links (.text "default") "pg" ∧
      (ms.map linksOf).map demands =
        [[0, 0, 0, 0, 0], [0, 0, 0, 0, 0], [1, 1, 0, 0, 0], [0, 0, 0, 0, 1]] ∧
      ∀ before m after, ms = before ++ m :: after →
        Wired (before.map linksOf) (ms.map linksOf) (linksOf m) := by
  constructor
  · have hparent : WellFormed sampleService := ⟨⟨_, rfl⟩, ⟨_, rfl⟩, .inl rfl⟩
    have haddr : addressOf sampleService = .ok ⟨.text Kind.starlane, .text "lab", .text "space"⟩ := rfl
    obtain ⟨tiers, htiers, hchildren, -, ⟨ms, hms⟩, -, hall⟩ :=
      manifests_wired .service {} (by decide) hparent haddr
    obtain ⟨-, hlinks, hwired⟩ := hall ms hms
    refine ⟨tiers, ms, htiers, hms, hchildren, hlinks, ?_, hwired⟩
    rw [hlinks]
    decide
  · have hparent : WellFormed nullSpecDatabase := ⟨⟨_, rfl⟩, ⟨_, rfl⟩, .inr (.inl rfl)⟩
    have haddr : addressOf nullSpecDatabase = .ok ⟨.text Kind.postgres, .text "default", .text "pg"⟩ := rfl
    obtain ⟨tiers, htiers, hchildren, -, ⟨ms, hms⟩, -, hall⟩ :=
      manifests_wired .database {} (by decide) hparent haddr
    obtain ⟨-, hlinks, hwired⟩ := hall ms hms
    refine ⟨tiers, ms, htiers, hms, hchildren, hlinks, ?_, hwired⟩
    rw [hlinks]
    decide

end Reconciler
