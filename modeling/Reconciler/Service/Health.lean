import Reconciler.Fault
import Reconciler.Observe.Metric

/-! # The server of the service

The service answers on three kinds of paths: whether it is alive, whether it is ready, and everywhere
else with its metrics.
-/

namespace Reconciler

inductive Page where
  /-- A small JSON document. -/
  | json (status : Nat) (body : String)
  /-- The scraped text, line by line. -/
  | metrics (lines : List String)
deriving DecidableEq, Repr

namespace Page

/-- The JSON document that says how the service stands. -/
def standing (status : Nat) (word : String) : Page :=
  .json status ("\x7b\"status\":\"" ++ word ++ "\"\x7d")

/-- The answer to a request for a path. A request without a path is a fault; nothing is shown in place
of the icon that browsers ask for. -/
def respond (ready : Bool) (metrics : List String) (path : Option String) : Except Fault Page :=
  match path with
  | some "/healthz" => .ok (standing 200 "ok")
  | some "/readyz" => .ok (if ready then standing 200 "ready" else standing 503 "starting")
  | some "/favicon.ico" => .ok (.metrics [])
  | some _ => .ok (.metrics metrics)
  | none => .error (.missingField (.text "PATH_INFO"))

end Page

end Reconciler
