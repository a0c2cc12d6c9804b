import Reconciler.Fault
import Reconciler.Redaction.Secrets

/-! # Log records

What happens to a resource is logged as one object on one line. Its first fields say which resource and
what happened; further fields may be added and may also replace one of those. The message and the
further fields are redacted, the identifying fields are not.
-/

namespace Reconciler

/-- How serious a record is. -/
inductive Level where
  | debug | info | warning | error
deriving DecidableEq, Repr

namespace Level

def name : Level → String
  | debug => "DEBUG"
  | info => "INFO"
  | warning => "WARNING"
  | error => "ERROR"

def rank : Level → Nat
  | debug => 10
  | info => 20
  | warning => 30
  | error => 40

end Level

/-- A log record: the fields of a resource event, or a plain text. -/
inductive LogEntry where
  | event (level : Level) (fields : Fields)
  | text (level : Level) (text : String)
deriving DecidableEq, Repr

/-- What happened to which resource. -/
structure ResourceEvent where
  controller : Value
  kind : Value
  name : Value
  ns : Value
  uid : Value
  event : Value
  reason : Value
  message : String
deriving DecidableEq, Repr

namespace ResourceEvent

/-- The fields of the record of an event, with further fields. -/
def fields (e : ResourceEvent) (extra : Fields) : Fields :=
  Fields.merge
    [("controller", e.controller), ("resource", e.kind), ("name", e.name), ("namespace", e.ns),
     ("uid", e.uid), ("event", e.event), ("reason", e.reason),
     ("message", .text (sanitize e.message))]
    (redactFields extra)

end ResourceEvent

/-- The text of a fault, sanitized. -/
def Fault.sanitized (f : Fault) : String :=
  sanitize f.message

/-- The text of a failure, sanitized. -/
def Failure.sanitized (f : Failure) : String :=
  f.fault.sanitized

end Reconciler
