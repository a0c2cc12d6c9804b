import Reconciler.Handler.Labelling
import Reconciler.Handler.Provisioning
import Reconciler.Handler.Services

/-! # All handlers -/

namespace Reconciler

/-- One handler for each kind of resource that is watched. -/
def handlers (settings : Settings) : List Handler := [
  serviceHandler settings,
  databaseHandler settings,
  Labelling.handler,
  Provisioning.handler settings Kind.resource,
  Provisioning.handler settings Kind.provisioningJob]

def handlerOf (settings : Settings) (kind : String) : Except Fault Handler :=
  match (handlers settings).find? (·.kind == kind) with
  | some h => .ok h
  | none => .error (.missingField (.text kind))

end Reconciler
