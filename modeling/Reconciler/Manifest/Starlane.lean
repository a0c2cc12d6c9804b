import Reconciler.Manifest.Postgres

/-! # The children of a service

A service runs a server, an identity service and a database for the identity service. All three read
the one password in the Secret that has the name of the service.
-/

namespace Reconciler.Manifest.Starlane

/-! ## Names -/

/-- The name of a parent with an ending. -/
def named (parent : Value) (ending : String) : Except Fault Value := do
  return .text ((← nameOf parent).shown ++ ending)

/-- The name of the database of the identity service. -/
def databaseName (parent : Value) : Except Fault Value :=
  named parent "-postgres-4-keycloak"

/-- The name of the identity service. -/
def keycloakName (parent : Value) : Except Fault Value :=
  named parent "-keycloak"

/-- The name of the web endpoint. -/
def webName (parent : Value) : Except Fault Value :=
  named parent "-web"

/-- The name of the gateway endpoint. -/
def gatewayName (parent : Value) : Except Fault Value :=
  named parent "-gateway"

/-! ## Ports and labels -/

def gatewayPort : Int := 4343

/-- The port the server and the identity service answer web requests on. -/
def httpPort : Int := 8080

def webPort : Int := 80

/-- The labels of a server that plays every part itself. -/
def standaloneLabels (galaxy : Value) : Value :=
  .object [("app", .text "starlane"), ("galaxy", galaxy), ("web", .text "true"),
    ("gateway", .text "true")]

/-- The labels that select what answers web requests. -/
def webLabels (galaxy : Value) : Value :=
  .object [("app", .text "starlane"), ("galaxy", galaxy), ("web", .text "true")]

def gatewayLabels (galaxy : Value) : Value :=
  .object [("app", .text "starlane"), ("galaxy", galaxy), ("gateway", .text "true")]

/-! ## The database of the identity service -/

def databaseStorage (parent : Value) : Except Fault Value :=
  databaseClaim parent (databaseName parent) "5Gi"

def databaseDeployment (images : Images) (parent : Value) : Except Fault Value := do
  databaseWorkload images parent (← databaseName parent)

/-- The database is reached from inside the cluster only. -/
def databaseService (parent : Value) : Except Fault Value := do
  databaseEndpoint parent (← databaseName parent) (.text "ClusterIP")

/-! ## The identity service -/

def keycloakDeployment (images : Images) (parent : Value) : Except Fault Value := do
  let name ← keycloakName parent
  let secret ← credentialName parent
  let database ← databaseName parent
  let fixed (name value : String) := env (.text name) (.text value)
  Workload.manifest
    { name
      labels := nameLabel name
      container := .text "keycloak"
      image := .text images.keycloak
      env := .list [
        fixed "DB_VENDOR" "postgres",
        env (.text "DB_ADDR") database,
        fixed "DB_PORT" (toString databasePort),
        fixed "DB_USER" "postgres",
        fixed "DB_DATABASE" "postgres",
        fixed "KEYCLOAK_USER" "hyperuser",
        fixed "KEYCLOAK_CORS" "true",
        fixed "KEYCLOAK_ALWAYS_HTTPS" "false",
        fixed "PROTOCOL" "http",
        fixed "PROXY_ADDRESS_FORWARDING" "true",
        passwordEnv "KEYCLOAK_PASSWORD" secret,
        passwordEnv "DB_PASSWORD" secret]
      ports := .list [containerPort (.text "keycloak") (.integer httpPort)] }
    parent

def keycloakService (parent : Value) : Except Fault Value := do
  let name ← keycloakName parent
  Endpoint.manifest
    { name
      exposure := .text "LoadBalancer"
      portName := .text "keycloak"
      port := .integer httpPort
      targetPort := .integer httpPort
      selector := nameLabel name }
    parent

/-! ## The server -/

def deployment (images : Images) (parent : Value) : Except Fault Value := do
  let metadata ← metadataOf parent
  let name ← metadata.require "name"
  let keycloak ← keycloakName parent
  let ns ← metadata.fieldOr "namespace" (.text "default")
  let secret ← credentialName parent
  Workload.manifest
    { name
      labels := standaloneLabels name
      container := .text "starlane"
      image := .text images.starlane
      args := .list [.text "serve", .text "--with-external"]
      env := .list [
        env (.text "STARLANE_KUBERNETES_INSTANCE_NAME") name,
        env (.text "STARLANE_KEYCLOAK_URL") (.text s!"{keycloak.shown}:{httpPort}"),
        env (.text "NAMESPACE") ns,
        passwordEnv "STARLANE_PASSWORD" secret]
      ports := .list [containerPort (.text "gateway") (.integer gatewayPort),
        containerPort (.text "http") (.integer httpPort)] }
    parent

/-- Web requests reach the server through this endpoint, exposed as the parent chooses. -/
def webService (parent : Value) : Except Fault Value := do
  let name ← webName parent
  let exposure ← (← specOf parent).fieldOrNull "webServiceType"
  let galaxy ← nameOf parent
  Endpoint.manifest
    { name
      exposure
      portName := .text "http"
      port := .integer webPort
      targetPort := .integer httpPort
      selector := webLabels galaxy }
    parent

/-- The gateway reaches the server through this endpoint, exposed as the parent chooses. -/
def gatewayService (parent : Value) : Except Fault Value := do
  let name ← gatewayName parent
  let exposure ← (← specOf parent).fieldOrNull "gatewayServiceType"
  let galaxy ← nameOf parent
  Endpoint.manifest
    { name
      exposure
      portName := .text "gateway"
      port := .integer gatewayPort
      targetPort := .integer gatewayPort
      selector := gatewayLabels galaxy }
    parent

end Reconciler.Manifest.Starlane
