import Reconciler.Handler.Convergence
import Reconciler.Manifest.Starlane

/-! # Services and databases

The tiers of the two kinds of resources that own children. Storage comes first, then the credential,
then the workloads that need both, each followed by its endpoint.
-/

namespace Reconciler

/-- Builds the credential of a parent, with a fresh password. -/
def buildCredential (parent : Value) : Pass Value := do
  let password ← Pass.draw Password.generateDefault
  Manifest.credential parent (.text password)

def serviceTiers (images : Images) (parent : Value) : Except Fault (List Tier) := do
  let name ← Manifest.nameOf parent
  let database ← Manifest.Starlane.databaseName parent
  let keycloak ← Manifest.Starlane.keycloakName parent
  let secret ← Manifest.credentialName parent
  let web ← Manifest.Starlane.webName parent
  let gateway ← Manifest.Starlane.gatewayName parent
  let tier (tierName kind : String) (child : Value) (build : Except Fault Value) : Tier :=
    { name := tierName, kind, childName := child, build := Pass.lift build }
  let endpoint (tierName : String) (child : Value) (build : Except Fault Value) : Tier :=
    { tier tierName Kind.service child build with drift := some Manifest.exposureDrift }
  return [
    tier "keycloak-db-storage" Kind.claim database (Manifest.Starlane.databaseStorage parent),
    { name := "credential", kind := Kind.secret, childName := secret
      build := buildCredential parent },
    tier "keycloak-db" Kind.deployment database
      (Manifest.Starlane.databaseDeployment images parent),
    endpoint "keycloak-db-endpoint" database (Manifest.Starlane.databaseService parent),
    tier "keycloak" Kind.deployment keycloak
      (Manifest.Starlane.keycloakDeployment images parent),
    endpoint "keycloak-endpoint" keycloak (Manifest.Starlane.keycloakService parent),
    tier "starlane" Kind.deployment name (Manifest.Starlane.deployment images parent),
    endpoint "web-endpoint" web (Manifest.Starlane.webService parent),
    endpoint "gateway-endpoint" gateway (Manifest.Starlane.gatewayService parent)]

def databaseTiers (images : Images) (parent : Value) : Except Fault (List Tier) := do
  let name ← Manifest.nameOf parent
  let secret ← Manifest.credentialName parent
  return [
    { name := "storage", kind := Kind.claim, childName := name
      build := Manifest.Postgres.storage parent },
    { name := "credential", kind := Kind.secret, childName := secret
      build := buildCredential parent },
    { name := "postgres", kind := Kind.deployment, childName := name
      build := Manifest.Postgres.deployment images parent },
    { name := "endpoint", kind := Kind.service, childName := name
      build := Manifest.Postgres.service parent
      drift := some Manifest.exposureDrift }]

def serviceHandler (settings : Settings) : Handler :=
  Convergence.handler settings Kind.starlane (serviceTiers settings.images)

def databaseHandler (settings : Settings) : Handler :=
  Convergence.handler settings Kind.postgres (databaseTiers settings.images)

end Reconciler
