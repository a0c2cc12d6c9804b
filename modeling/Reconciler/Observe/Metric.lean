import Reconciler.Number.Arithmetic
import Reconciler.Text.Decimal

/-! # Metrics

Counters only go up, one at a time; timers collect durations. Both come in families, one for each thing
that is measured, and a member of a family is told from the others by its labels.

`Registry` keeps the totals of all members that were ever touched, in the order they first were, and
`Registry.exposition` is the text a monitoring system scrapes.
-/

namespace Reconciler

/-- A counter: what is counted, and its labels. -/
inductive Counter where
  /-- Passes, by outcome. -/
  | passes (kind result : String)
  /-- Writes of children, by outcome. -/
  | childOperations (kind operation result : String)
  /-- Detected drifts. -/
  | drifts (kind resourceType : String)
  /-- Stages that requests entered. -/
  | transitions (kind stage : String)
  /-- Attempts to call the API server, by outcome. -/
  | apiCalls (operation result : String)
  /-- Failed passes, by the class of the fault. -/
  | faults (kind errorType : String)
deriving DecidableEq, Repr

/-- A timer: what is timed, and its labels. -/
inductive Timer where
  /-- Passes. -/
  | passes (kind : String)
  /-- Store calls to the API server, retries included. -/
  | apiCalls (operation : String)
deriving DecidableEq, Repr

/-- Label names with their values. -/
abbrev Labels := List (String × String)

/-- The value of the API label: there is one API server. -/
def apiLabel : String × String := ("api_type", "k8s")

namespace Counter

def family : Counter → String
  | passes _ _ => "starlane_operator_reconcile_total"
  | childOperations _ _ _ => "starlane_operator_child_operations_total"
  | drifts _ _ => "starlane_operator_drift_detected_total"
  | transitions _ _ => "starlane_operator_lifecycle_transitions_total"
  | apiCalls _ _ => "starlane_operator_api_call_total"
  | faults _ _ => "starlane_operator_error_total"

def labels : Counter → Labels
  | passes kind result => [("kind", kind), ("result", result)]
  | childOperations kind operation result =>
    [("kind", kind), ("operation", operation), ("result", result)]
  | drifts kind resourceType => [("kind", kind), ("resource_type", resourceType)]
  | transitions kind stage => [("kind", kind), ("stage", stage)]
  | apiCalls operation result => [apiLabel, ("operation", operation), ("result", result)]
  | faults kind errorType => [("error_type", errorType), ("kind", kind)]

end Counter

namespace Timer

def family : Timer → String
  | passes _ => "starlane_operator_reconcile_duration_seconds"
  | apiCalls _ => "starlane_operator_api_call_duration_seconds"

def labels : Timer → Labels
  | passes kind => [("kind", kind)]
  | apiCalls operation => [apiLabel, ("operation", operation)]

/-- The upper bounds of the buckets a duration is sorted into, in milliseconds and as they are
printed. -/
def bounds : Timer → List (Nat × String)
  | passes _ =>
    [(100, "0.1"), (500, "0.5"), (1000, "1.0"), (2500, "2.5"), (5000, "5.0"), (10000, "10.0")]
  | apiCalls _ =>
    [(10, "0.01"), (50, "0.05"), (100, "0.1"), (500, "0.5"), (1000, "1.0"), (2500, "2.5"),
     (5000, "5.0")]

end Timer

/-- What a timer collected: the durations, oldest first. -/
structure Durations where
  all : List Rat
deriving DecidableEq

namespace Durations

def count (d : Durations) : Nat := d.all.length

/-- The sum of the durations, added up in order. -/
def total (a : Arithmetic) (d : Durations) : Rat :=
  d.all.foldl a.add 0

/-- How many are at most a bound, given in milliseconds. -/
def within (a : Arithmetic) (milliseconds : Nat) (d : Durations) : Nat :=
  (d.all.filter fun x => x ≤ a.div milliseconds 1000).length

end Durations

/-- The totals of everything measured so far. -/
structure Registry where
  counters : List (Counter × Nat)
  timers : List (Timer × Durations)

namespace Registry

def empty : Registry := ⟨[], []⟩

def bump (c : Counter) : List (Counter × Nat) → List (Counter × Nat)
  | [] => [(c, 1)]
  | (d, n) :: rest => if d = c then (d, n + 1) :: rest else (d, n) :: bump c rest

def collect (t : Timer) (seconds : Rat) : List (Timer × Durations) → List (Timer × Durations)
  | [] => [(t, ⟨[seconds]⟩)]
  | (u, d) :: rest =>
    if u = t then (u, ⟨d.all ++ [seconds]⟩) :: rest else (u, d) :: collect t seconds rest

/-- The registry after one more count. -/
def increment (r : Registry) (c : Counter) : Registry :=
  { r with counters := bump c r.counters }

/-- The registry after one more duration. -/
def observe (r : Registry) (t : Timer) (seconds : Rat) : Registry :=
  { r with timers := collect t seconds r.timers }

def total (r : Registry) (c : Counter) : Nat :=
  (r.counters.lookup c).getD 0

/-! ## Samples

Counters and the count of a timer are whole numbers; the sum of a timer is not. -/

/-- A total with its name and labels. -/
structure Sample where
  name : String
  labels : Labels
  total : Nat ⊕ Rat

/-- All totals, buckets aside. -/
def samples (a : Arithmetic) (r : Registry) : List Sample :=
  r.counters.map (fun (c, n) => ⟨c.family, c.labels, .inl n⟩)
    ++ r.timers.flatMap fun (t, d) =>
      [⟨t.family ++ "_count", t.labels, .inl d.count⟩,
       ⟨t.family ++ "_sum", t.labels, .inr (d.total a)⟩]

/-! ## Exposition -/

def escapeLabel : Char → List Char
  | '\\' => ['\\', '\\']
  | '\n' => ['\\', 'n']
  | '"' => ['\\', '"']
  | c => [c]

def printLabel (label : String × String) : String :=
  label.1 ++ "=\"" ++ String.ofList (label.2.toList.flatMap escapeLabel) ++ "\""

def printSample (name : String) (labels : Labels) (total : String) : String :=
  name ++ "\x7b" ++ ",".intercalate (labels.map printLabel) ++ "\x7d " ++ total

/-- Inserts the bucket label at its place in a list of labels sorted by name. -/
def withBound (bound : String) : Labels → Labels
  | [] => [("le", bound)]
  | (k, v) :: rest =>
    if k < "le" then (k, v) :: withBound bound rest else ("le", bound) :: (k, v) :: rest

/-- The lines of one timer: its buckets, each including those below, its count and its sum. -/
def printTimer (a : Arithmetic) (t : Timer) (d : Durations) : List String :=
  let bucket (bound : String) (n : Nat) :=
    printSample (t.family ++ "_bucket") (withBound bound t.labels) s!"{n}.0"
  t.bounds.map (fun (ms, bound) => bucket bound (d.within a ms))
    ++ [bucket "+Inf" d.count,
        printSample (t.family ++ "_count") t.labels s!"{d.count}.0",
        printSample (t.family ++ "_sum") t.labels (sixPlaces (d.total a))]

/-- The families of counters, with their descriptions. -/
def counterFamilies : List (String × String) := [
  ("starlane_operator_reconcile_total", "Total number of reconciliations"),
  ("starlane_operator_child_operations_total", "Total number of child object operations"),
  ("starlane_operator_drift_detected_total", "Total number of configuration drift detections"),
  ("starlane_operator_lifecycle_transitions_total",
    "Total number of lifecycle stage transitions"),
  ("starlane_operator_api_call_total", "Total number of API calls"),
  ("starlane_operator_error_total", "Total number of reconciliation errors")]

/-- The families of timers, with their descriptions. -/
def timerFamilies : List (String × String) := [
  ("starlane_operator_reconcile_duration_seconds", "Duration of reconciliations in seconds"),
  ("starlane_operator_api_call_duration_seconds", "Duration of API calls in seconds")]

/-- The lines that introduce a family. -/
def header (family description type : String) : List String :=
  [s!"# HELP {family} {description}", s!"# TYPE {family} {type}"]

/-- The scraped text, line by line. -/
def exposition (a : Arithmetic) (r : Registry) : List String :=
  counterFamilies.flatMap (fun (family, description) =>
    header family description "counter"
      ++ (r.counters.filter (·.1.family == family)).map fun (c, n) =>
        printSample c.family c.labels s!"{n}.0")
  ++ timerFamilies.flatMap fun (family, description) =>
    header family description "histogram"
      ++ (r.timers.filter (·.1.family == family)).flatMap fun (t, d) => printTimer a t d

end Registry

end Reconciler
