/-! # Images -/

namespace Reconciler

structure Images where
  postgres : String := "postgres:14.2-alpine"
  starlane : String := "starlane/starlane:latest"
  keycloak : String := "jboss/keycloak:13.0.1"
deriving DecidableEq, Repr

end Reconciler
