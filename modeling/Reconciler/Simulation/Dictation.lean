import Reconciler.Handler.Pass

/-! # Dictated log records

A record may be dictated word for word: its message, further fields, and what is to blame. The fields
may say another event and reason than the level does, but must not repeat what the record has of its
own. What is to blame appears in two ways:

* in an error record, by its redacted text and the name of its class;
* in any other record, by its plain text alone.
-/

namespace Reconciler

/-- A record to log about a resource. -/
structure Dictation where
  kind : String
  level : Level
  metadata : Value
  message : Value
  extra : Fields
  blamed : Option Failure

namespace Dictation

/-- The names of what every dictation says itself. -/
def ownNames : List String := ["self", "meta", "message", "level"]

/-- The names of what is known about the resource. -/
def resourceNames : List String :=
  ["logger", "controller", "resource_kind", "resource_name", "namespace", "uid"]

/-- Fields must not have any of some names. -/
def forbid (names : List String) (fields : Fields) : Except Fault Unit :=
  if names.any fun name => Fields.contains name fields then .error .wrongShape else .ok ()

/-- The class of a plain value that is blamed. -/
def plainClass : Value → String
  | .null => "NoneType"
  | .bool _ => "bool"
  | .integer _ => "int"
  | .real _ => "float"
  | .text _ => "str"
  | .list _ => "list"
  | .object _ => "dict"

/-- What an error record says about a plain value that is blamed. -/
def blamePlain (v : Value) : Fields :=
  [("error", .text (sanitize v.shown)), ("error_type", .text (plainClass v))]

/-- What a record says about what is blamed: redacted fields, and fields that are left as they are. -/
def blame (d : Dictation) : Fields × Fields :=
  match d.level, d.blamed with
  | .error, some f => (Remark.blame f, [])
  | .error, none => match Fields.find? "error" d.extra with
    | some .null | none => ([], [])
    | some v => (blamePlain v, [])
  | _, some f => ([], [("error", .text f.message)])
  | _, none => ((Fields.find? "error" d.extra).toList.map fun v => ("error", v), [])

/-- The remark that is usual at a level. -/
def usual (level : Level) (message : String) : Remark :=
  match level with
  | .debug | .info => .info message "Info"
  | .warning => .warning message "Warning"
  | .error => ⟨message, .text "error", .text "Error", []⟩

/-- The remark of a dictation. -/
def remark (d : Dictation) : Except Fault Remark :=
  match d.message with
  | .text message =>
    let usual := usual d.level message
    let further := ["event", "reason", "error"].foldl (fun fs name => Fields.erase name fs) d.extra
    .ok
      { message
        event := (Fields.find? "event" d.extra).getD usual.event
        reason := (Fields.find? "reason" d.extra).getD usual.reason
        extra := Fields.merge further d.blame.1 }
  | _ => .error .wrongShape

/-- A record with some more fields, left as they are. -/
def adding (fields : Fields) : LogEntry → LogEntry
  | .event level data => .event level (Fields.merge data fields)
  | entry => entry

/-- Logs the record. The names of its own are looked at first, then the metadata, then all else. -/
def pass (d : Dictation) : Pass Unit := do
  Pass.lift (forbid ownNames d.extra)
  let (name, ns, uid) ← Pass.lift (loggedIdentity d.metadata)
  Pass.lift (forbid resourceNames d.extra)
  let remark ← Pass.lift d.remark
  SafePass.trace (.log (adding d.blame.2 (remark.entry d.level d.kind name ns uid)))

end Dictation

end Reconciler
