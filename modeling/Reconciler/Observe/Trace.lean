import Reconciler.Observe.Event
import Reconciler.Observe.Log
import Reconciler.Observe.Metric

/-! # Traces

Everything a pass leaves behind apart from its writes: log records, cluster events, measurements and
the span that covers the pass. None of it influences what the pass does.
-/

namespace Reconciler

/-- One thing left behind. -/
inductive Trace where
  /-- A log record. -/
  | log (entry : LogEntry)
  /-- A notice on an object. -/
  | event (event : ClusterEvent)
  /-- A counter went up by one. -/
  | count (counter : Counter)
  /-- A duration was measured. -/
  | observe (timer : Timer) (seconds : Rat)
  /-- A span begins. -/
  | openSpan (name : String) (attributes : Fields)
  /-- The open span gets an attribute. -/
  | annotateSpan (key : String) (value : Value)
  /-- The open span ends, with the failure that left it if there is one. -/
  | closeSpan (failure : Option Failure)

/-! ## Spans -/

mutual

/-- A value as a span keeps it: fields without a name are left out, at any depth. -/
def Value.named : Value → Value
  | .list items => .list (namedItems items)
  | .object fields => .object (namedFields fields)
  | other => other

/-- The items of a list as a span keeps them. -/
def Value.namedItems : List Value → List Value
  | [] => []
  | v :: rest => v.named :: Value.namedItems rest

/-- The fields of an object as a span keeps them. -/
def Value.namedFields : List (String × Value) → List (String × Value)
  | [] => []
  | (k, v) :: rest =>
    if k = "" then Value.namedFields rest else (k, v.named) :: Value.namedFields rest

end

structure Span where
  name : String
  attributes : Fields
  failure : Option Failure
deriving DecidableEq, Repr

namespace Span

def withAttribute (s : Span) (key : String) (value : Value) : Span :=
  { s with attributes := Fields.insert key value.named s.attributes }

def start (name : String) (attributes : Fields) : Span :=
  attributes.foldl (fun s (key, value) => s.withAttribute key value) ⟨name, [], none⟩

def status (s : Span) : String :=
  if s.failure.isSome then "ERROR" else "UNSET"

/-- What a finished span says about the failure that left it. -/
def description (s : Span) : Option String :=
  s.failure.map fun f => s!"{f.className}: {f.message}"

end Span

end Reconciler
