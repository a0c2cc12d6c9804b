import Reconciler.Proofs.Reports.Ordinary
import Reconciler.Proofs.Schedule
import Reconciler.Scheduling

/-! # Every pass is accounted for once

However a pass goes, and whatever the store answers, its reconciliation comes to a directive. It counts
the pass once, under the result that directive stands for, times it once, and counts a fault exactly when
the directive names one. The call of the framework around it reports a failed pass once, unless it failed
for a missing dependency.

Main definitions and statements:

* `Account`: the counts, timings and reports in what was left behind;
* `Ends`: the directive and the label for each way a pass can end;
* `every_pass_accounted_once`: the result for all handlers.
-/

namespace Reconciler

/-! ## Accounts -/

/-- What is accounted for in what was left behind. -/
structure Account where
  /-- Kind and result of the passes that were counted. -/
  passes : List (String × String) := []
  /-- Kind and class of the faults that were counted. -/
  faults : List (String × String) := []
  /-- The kinds of the passes that were timed. -/
  timed : List String := []
  /-- The events that report a failed pass. -/
  reports : List ClusterEvent := []
deriving DecidableEq

namespace Account

instance : Append Account where
  append a b := ⟨a.passes ++ b.passes, a.faults ++ b.faults, a.timed ++ b.timed, a.reports ++ b.reports⟩

theorem append_def (a b : Account) :
    a ++ b = ⟨a.passes ++ b.passes, a.faults ++ b.faults, a.timed ++ b.timed, a.reports ++ b.reports⟩ :=
  rfl

/-- What is accounted for by one thing left behind. -/
def entry : Trace → Account
  | .count (.passes kind result) => { passes := [(kind, result)] }
  | .count (.faults kind errorType) => { faults := [(kind, errorType)] }
  | .observe (.passes kind) _ => { timed := [kind] }
  | .event e => if e.warning && e.reason == "ReconcileFailed" then { reports := [e] } else {}
  | _ => {}

/-- The account of everything left behind. -/
def ofTraces : List Trace → Account
  | [] => {}
  | t :: rest => entry t ++ ofTraces rest

theorem empty_append (a : Account) : ({} : Account) ++ a = a := rfl

theorem append_assoc (a b c : Account) : a ++ b ++ c = a ++ (b ++ c) := by
  simp [append_def]

/-- What is left behind in two parts is accounted for in two parts. -/
theorem ofTraces_append (left more : List Trace) :
    ofTraces (left ++ more) = ofTraces left ++ ofTraces more := by
  induction left with
  | nil => rfl
  | cons t rest ih =>
    calc ofTraces (t :: (rest ++ more))
        = entry t ++ (ofTraces rest ++ ofTraces more) := by rw [ofTraces, ih]
      _ = ofTraces (t :: rest) ++ ofTraces more := (append_assoc _ _ _).symm

/-- What passes leave behind of themselves is not accounted for. -/
theorem entry_ordinary {h : History} {t : Trace} (ht : Ordinary h t) : entry t = {} := by
  cases ht with
  | news hnormal => simp [entry, hnormal]
  | warning hraised =>
    cases hraised with
    | descriptor _ _ _ => rfl
    | job _ _ => rfl
  | _ => rfl

/-- What passes leave behind by themselves is neither counted nor timed, and reports no failure. -/
theorem ofTraces_ordinary {h : History} {left : List Trace} (hleft : ∀ t ∈ left, Ordinary h t) :
    ofTraces left = {} := by
  induction left with
  | nil => rfl
  | cons t rest ih =>
    rw [ofTraces, entry_ordinary (hleft t (by simp)), ih fun t ht => hleft t (by simp [ht])]
    rfl

end Account

/-! ## Directives -/

namespace Directive

/-- Kind and class of the fault that a directive names. -/
def blames (kind : String) : Directive → List (String × String)
  | failed (some f) => [(kind, f.className)]
  | _ => []

/-- The reports a directive calls for: one of a failure, unless a dependency is missing. -/
def reports (object : Value) : Directive → List ClusterEvent
  | failed (some f) =>
    if f.belongsTo .dependencyMissing then []
    else [.reconcileFailed object s!"Reconciliation failed: {f.sanitized}"]
  | _ => []

end Directive

/-- The directive that a pass over a resource of a kind comes to by its result, and the label it is counted
under. -/
inductive Ends (kind : String) (id : Identity) :
    Except Failure Directive → Directive → String → Prop where
  /-- The pass came to a directive itself, and each kind of directive has its label. -/
  | done : Ends kind id (.ok .done) .done "success"
  | again : Ends kind id (.ok .requeueNow) .requeueNow "requeue"
  | later (delay : Rat) : Ends kind id (.ok (.requeueAfter delay)) (.requeueAfter delay) "requeue_after"
  | failed (f : Failure) : Ends kind id (.ok (.failed (some f))) (.failed (some f)) "error"
  /-- The resource itself is missing. -/
  | gone {f : Failure} {kind' ns name : Value} :
      f.fault = .notFound kind' ns name →
      (kind'.isText kind = true ∧ ns.same id.ns = true ∧ name.same id.name = true) →
      Ends kind id (.error f) .done "success"
  /-- Something else is missing. -/
  | missing {f : Failure} {kind' ns name : Value} :
      f.fault = .notFound kind' ns name →
      ¬(kind'.isText kind = true ∧ ns.same id.ns = true ∧ name.same id.name = true) →
      Ends kind id (.error f) (.failed (some f)) "error"
  /-- A conflict left the pass. -/
  | conflict {f : Failure} :
      f.belongsTo .conflict = true → Ends kind id (.error f) .requeueNow "conflict"
  /-- Any other failure left the pass. -/
  | failure {f : Failure} :
      f.belongsTo .notFound = false → f.belongsTo .conflict = false →
      Ends kind id (.error f) (.failed (some f)) "error"

/-- A course that comes to the directive its pass calls for, and counts and times the pass once. -/
def Accounted {σ : Type} (kind : String) (id : Identity) (r : Except Failure Directive)
    (whole : Course σ Directive) : Prop :=
  ∃ label, Ends kind id r whole.result label ∧ whole.result ≠ .failed none ∧
    Account.ofTraces whole.left =
      { passes := [(kind, label)], faults := whole.result.blames kind, timed := [kind] }

/-- What comes before may leave things behind that are not accounted for. -/
theorem Accounted.after {σ α : Type} {kind : String} {id : Identity} {r : Except Failure Directive}
    {first : Course σ α} {rest : Course σ Directive} (hfirst : Account.ofTraces first.left = {})
    (hrest : Accounted kind id r rest) : Accounted kind id r (first.andThen rest) := by
  obtain ⟨label, hends, hnamed, haccount⟩ := hrest
  refine ⟨label, hends, hnamed, ?_⟩
  rw [Course.left_andThen, Account.ofTraces_append, hfirst, Account.empty_append]
  exact haccount

/-! ## Reconciling -/

theorem belongsTo_notFound_iff {f : Failure} :
    f.belongsTo .notFound = true ↔ ∃ kind ns name, f.fault = .notFound kind ns name := by
  constructor
  · intro hmissing
    rw [Failure.belongsTo] at hmissing
    cases hfault : f.fault with
    | notFound kind ns name => exact ⟨kind, ns, name, rfl⟩
    | _ =>
      rw [hfault] at hmissing
      exact absurd hmissing Bool.false_ne_true
  · rintro ⟨kind, ns, name, hfault⟩
    rw [Failure.belongsTo, hfault]
    rfl

namespace Handler

variable {σ : Type} {surroundings : Surroundings σ} {settings : Settings} {h : Handler} {id : Identity}

open SafePass (course)

/-- What a reconciliation does before its pass: it takes the time and opens the span. -/
def opening (h : Handler) (id : Identity) : SafePass Rat := do
  let start ← SafePass.seconds
  SafePass.trace (h.openSpan id)
  return start

/-- What a reconciliation does when its pass has a result. -/
def conclude (settings : Settings) (h : Handler) (id : Identity) (start : Rat) :
    Except Failure Directive → SafePass Directive
  | .ok directive => do
    SafePass.trace (.closeSpan none)
    h.time settings start
    h.finish id directive
  | .error f => do
    SafePass.trace (.closeSpan (some f))
    if h.missesItself id f then
      SafePass.log h.kind .info id
        (.info s!"{h.kind} not found, assuming it was deleted" "NotFound")
      h.time settings start
      h.finish id .done
    else if f.belongsTo .conflict then
      SafePass.log h.kind .info id (.info s!"Conflict, re-reading: {f.sanitized}" "Conflict")
      SafePass.count (.passes h.kind "conflict")
      h.time settings start
      return .requeueNow
    else
      let directive ← h.fail id f
      h.time settings start
      return directive

/-- A reconciliation has three parts, and the pass is the one in the middle. -/
theorem reconcile_eq (settings : Settings) (h : Handler) (id : Identity) :
    h.reconcile settings id = (do
      let start ← h.opening id
      let r ← (h.converge id).run
      h.conclude settings id start r) := by
  refine congrArg (SafePass.seconds >>= ·) (funext fun start => ?_)
  refine congrArg (SafePass.trace (h.openSpan id) >>= ·) (funext fun _ => ?_)
  refine congrArg ((h.converge id).run >>= ·) (funext fun r => ?_)
  cases r with
  | ok directive => rfl
  | error f => rfl

/-- The course of the pass within that of its reconciliation. -/
def passCourse (h : Handler) (id : Identity) (surroundings : Surroundings σ) (s : σ) :
    Course σ (Except Failure Directive) :=
  course surroundings (h.converge id).run (course surroundings (h.opening id) s).state

/-- A reconciliation opens a span, runs its pass and concludes. -/
theorem course_reconcile (surroundings : Surroundings σ) (settings : Settings) (h : Handler)
    (id : Identity) (s : σ) :
    let start := (course surroundings (h.opening id) s).result
    let pass := h.passCourse id surroundings s
    course surroundings (h.reconcile settings id) s =
      (course surroundings (h.opening id) s).andThen
        (pass.andThen (course surroundings (h.conclude settings id start pass.result) pass.state)) := by
  rw [reconcile_eq, SafePass.course_bind, SafePass.course_bind]
  rfl

theorem account_time (start : Rat) (s : σ) :
    Account.ofTraces (course surroundings (h.time settings start) s).left = { timed := [h.kind] } :=
  rfl

theorem course_fail (surroundings : Surroundings σ) (h : Handler) (id : Identity) (f : Failure) (s : σ) :
    (course surroundings (h.fail id f) s).result = .failed (some f) ∧
      Account.ofTraces (course surroundings (h.fail id f) s).left =
        { passes := [(h.kind, "error")], faults := [(h.kind, f.className)] } := by
  unfold fail
  -- what is logged differs, what is counted does not
  split
  · exact ⟨rfl, rfl⟩
  · exact ⟨rfl, rfl⟩

theorem course_finish (surroundings : Surroundings σ) (h : Handler) (id : Identity) {d : Directive}
    (hd : d ≠ .failed none) (s : σ) :
    (course surroundings (h.finish id d) s).result = d ∧
      Account.ofTraces (course surroundings (h.finish id d) s).left =
        { passes := [(h.kind, d.label)], faults := d.blames h.kind } := by
  cases d with
  | failed error =>
    cases error with
    | none => exact absurd rfl hd
    | some f => exact course_fail surroundings h id f s
  | _ => exact ⟨rfl, rfl⟩

theorem missesItself_of_notFound {f : Failure} {kind ns name : Value}
    (hfault : f.fault = .notFound kind ns name) :
    h.missesItself id f = true ↔
      kind.isText h.kind = true ∧ ns.same id.ns = true ∧ name.same id.name = true := by
  simp [missesItself, hfault, and_assoc]

theorem not_missesItself {f : Failure} (hother : ¬f.belongsTo .notFound = true) :
    ¬h.missesItself id f = true := by
  unfold missesItself
  split
  · next hfault => exact absurd (belongsTo_notFound_iff.mpr ⟨_, _, _, hfault⟩) hother
  · exact Bool.false_ne_true

/-- A directive is counted under its label. -/
theorem ends_of_directive {kind : String} {d : Directive} (hd : d ≠ .failed none) :
    Ends kind id (.ok d) d d.label := by
  cases d with
  | done => exact .done
  | requeueNow => exact .again
  | requeueAfter delay => exact .later delay
  | failed error =>
    cases error with
    | none => exact absurd rfl hd
    | some f => exact .failed f

/-- How a failure that leaves the pass is sorted. -/
theorem ends_of_failure (h : Handler) (id : Identity) (f : Failure) :
    if h.missesItself id f then Ends h.kind id (.error f) .done "success"
    else if f.belongsTo .conflict then Ends h.kind id (.error f) .requeueNow "conflict"
    else Ends h.kind id (.error f) (.failed (some f)) "error" := by
  by_cases hmissing : f.belongsTo .notFound = true
  · obtain ⟨kind, ns, name, hfault⟩ := belongsTo_notFound_iff.mp hmissing
    have hconflict : f.belongsTo .conflict = false := by
      rw [Failure.belongsTo, hfault]
      rfl
    -- what is missing is no conflict, so two of the three ways are left
    split
    · next hself => exact .gone hfault ((missesItself_of_notFound hfault).mp hself)
    · next hself =>
      rw [hconflict, if_neg Bool.false_ne_true]
      exact .missing hfault (hself ∘ (missesItself_of_notFound hfault).mpr)
  · rw [if_neg (not_missesItself hmissing)]
    split
    · next hconflict => exact .conflict hconflict
    · next hconflict => exact .failure (by simpa using hmissing) (by simpa using hconflict)

theorem accounted_finish {r : Except Failure Directive} {d : Directive} (hd : d ≠ .failed none)
    (hends : Ends h.kind id r d d.label) (start : Rat) (s : σ) :
    Accounted h.kind id r
      (course surroundings (do h.time settings start; h.finish id d) s) := by
  obtain ⟨hresult, haccount⟩ := course_finish surroundings h id hd
    (course surroundings (h.time settings start) s).state
  refine ⟨d.label, ?_, ?_, ?_⟩
  · rwa [SafePass.course_bind, Course.result_andThen, hresult]
  · rwa [SafePass.course_bind, Course.result_andThen, hresult]
  · rw [SafePass.course_bind, Course.left_andThen, Course.result_andThen, Account.ofTraces_append,
      account_time, haccount, hresult]
    rfl

theorem accounted_conflict {f : Failure} (hends : Ends h.kind id (.error f) .requeueNow "conflict")
    (start : Rat) (s : σ) :
    Accounted h.kind id (.error f) (course surroundings (do
      SafePass.count (.passes h.kind "conflict")
      h.time settings start
      return .requeueNow) s) :=
  ⟨"conflict", hends, nofun, rfl⟩

theorem accounted_fail {f : Failure} (hends : Ends h.kind id (.error f) (.failed (some f)) "error")
    (start : Rat) (s : σ) :
    Accounted h.kind id (.error f) (course surroundings (do
      let directive ← h.fail id f
      h.time settings start
      return directive) s) := by
  obtain ⟨hresult, haccount⟩ := course_fail surroundings h id f s
  have hwhole : (course surroundings (do
      let directive ← h.fail id f
      h.time settings start
      return directive) s).result = .failed (some f) := by
    rw [SafePass.course_bind, Course.result_andThen, hresult]
    rfl
  refine ⟨"error", ?_, ?_, ?_⟩
  · rwa [hwhole]
  · rw [hwhole]
    exact nofun
  · rw [hwhole, SafePass.course_bind, Course.left_andThen, Account.ofTraces_append, haccount]
    rfl

/-- What follows the pass counts it and times it once. -/
theorem accounted_conclude {r : Except Failure Directive} (hr : r ≠ .ok (.failed none)) (start : Rat)
    (s : σ) : Accounted h.kind id r (course surroundings (h.conclude settings id start r) s) := by
  cases r with
  | ok d =>
    have hd : d ≠ .failed none := fun hnone => hr (congrArg _ hnone)
    exact .after rfl (accounted_finish hd (ends_of_directive hd) _ _)
  | error f =>
    -- each way of sorting the failure has its own conclusion
    have hends := ends_of_failure h id f
    refine .after rfl ?_
    dsimp only
    split
    · next hself =>
      rw [if_pos hself] at hends
      exact .after rfl (accounted_finish (d := .done) nofun hends _ _)
    · next hself =>
      rw [if_neg hself] at hends
      split
      · next hconflict =>
        rw [if_pos hconflict] at hends
        exact .after rfl (accounted_conflict hends _ _)
      · next hconflict =>
        rw [if_neg hconflict] at hends
        exact accounted_fail hends _ _

/-- The account of a reconciliation whose pass only leaves ordinary things behind. -/
theorem accounted_reconcile {s : σ} {heard : History}
    (hleft : ∀ t ∈ (h.passCourse id surroundings s).left, Ordinary heard t)
    (hresult : (h.passCourse id surroundings s).result ≠ .ok (.failed none)) :
    Accounted h.kind id (h.passCourse id surroundings s).result
      (course surroundings (h.reconcile settings id) s) := by
  rw [course_reconcile]
  exact .after rfl (.after (Account.ofTraces_ordinary hleft) (accounted_conclude hresult _ _))

end Handler

/-! ## Calls of the framework -/

section Calls

variable {σ : Type} {surroundings : Surroundings σ} {settings : Settings} {h : Handler} {id : Identity}

open SafePass (course)

/-- After a reconciliation only its failure may be reported. -/
theorem course_report (surroundings : Surroundings σ) (body : Value) (verdict : Verdict) (d : Directive)
    (s : σ) :
    let rest := course surroundings (do
      match d.error? with
      | some f => if tellsUsers f then Handler.reportFailure body f
      | none => pure ()
      return verdict) s
    rest.result = verdict ∧ rest.left = (d.reports body).map .event ∧ rest.heard = [] := by
  cases d with
  | failed error =>
    cases error with
    | none => exact ⟨rfl, rfl, rfl⟩
    | some f =>
      -- users are not told of a missing dependency
      by_cases hdependency : f.belongsTo .dependencyMissing = true
      · simp only [Directive.error?, tellsUsers, Directive.reports, hdependency]
        exact ⟨rfl, rfl, rfl⟩
      · simp only [Directive.error?, tellsUsers, Directive.reports, hdependency]
        exact ⟨rfl, rfl, rfl⟩
  | _ => exact ⟨rfl, rfl, rfl⟩

/-- A call reports what the directive of its reconciliation calls for, after everything else. -/
theorem course_handle (surroundings : Surroundings σ) (settings : Settings) (h : Handler) {body : Value}
    (hbody : (body.require "metadata" >>= Identity.ofMeta) = .ok id)
    (retry : Int) (jitter : Rat) (s : σ) :
    let whole := course surroundings (h.reconcile settings id) s
    let call := course surroundings (handle settings h body retry jitter) s
    call.result = apply settings whole.result retry jitter ∧
      call.left = whole.left ++ (whole.result.reports body).map .event ∧ call.heard = whole.heard := by
  intro whole call
  obtain ⟨hresult, hleft, hheard⟩ := course_report surroundings body
    (apply settings whole.result retry jitter) whole.result whole.state
  have hcall : call = whole.andThen (course surroundings (do
      match whole.result.error? with
      | some f => if tellsUsers f then Handler.reportFailure body f
      | none => pure ()
      return apply settings whole.result retry jitter) whole.state) := by
    simp only [call, handle, hbody]
    exact SafePass.course_bind _ _ s
  rw [hcall]
  refine ⟨hresult, congrArg (whole.left ++ ·) hleft, ?_⟩
  rw [Course.heard_andThen, hheard, List.append_nil]

theorem ofTraces_reports (body : Value) (d : Directive) :
    Account.ofTraces ((d.reports body).map .event) = { reports := d.reports body } := by
  cases d with
  | failed error =>
    cases error with
    | none => rfl
    | some f =>
      simp only [Directive.reports]
      split
      · rfl
      · rfl
  | _ => rfl

/-- However the store and everything else answers, the reconciliation of a resource by any handler comes to
the directive that the result of its pass calls for, and counts and times the pass once. A call of the
framework for the resource posts, besides, the one report that the directive calls for, if it does. -/
theorem every_pass_accounted_once (settings : Settings) {h : Handler} (hhandler : h ∈ handlers settings)
    (surroundings : Surroundings σ) (s : σ) (id : Identity) :
    let whole := course surroundings (h.reconcile settings id) s
    Accounted h.kind id (h.passCourse id surroundings s).result whole ∧
      ∀ body retry jitter, (body.require "metadata" >>= Identity.ofMeta) = .ok id →
        let call := course surroundings (handle settings h body retry jitter) s
        call.result = apply settings whole.result retry jitter ∧
          Account.ofTraces call.left =
            { Account.ofTraces whole.left with reports := whole.result.reports body } := by
  intro whole
  obtain ⟨hleft, hresult⟩ := leaves_course (fun _ more _ ht => ht.mono more)
    (ordinary_converge hhandler id) surroundings
    (course surroundings (h.opening id) s).state
  have hwhole : Accounted h.kind id (h.passCourse id surroundings s).result whole :=
    Handler.accounted_reconcile hleft hresult
  refine ⟨hwhole, ?_⟩
  intro body retry jitter hbody call
  obtain ⟨hverdict, hmore, -⟩ := course_handle surroundings settings h hbody retry jitter s
  refine ⟨hverdict, ?_⟩
  obtain ⟨label, -, -, haccount⟩ := hwhole
  -- the report of the failure is all that a call adds to its reconciliation
  calc Account.ofTraces call.left
      = Account.ofTraces whole.left ++ { reports := whole.result.reports body } := by
        rw [hmore, Account.ofTraces_append, ofTraces_reports]
    _ = { Account.ofTraces whole.left with reports := whole.result.reports body } := by
        simp [haccount, Account.append_def]

/-- A store that gives the answers of a script, and cannot be reached when the script is over. -/
def scripted : Surroundings (List (Except Failure Value))
  | .store _ => fun
    | [] => (.error ⟨.store "connection refused" .null, none⟩, [])
    | answer :: rest => (answer, rest)
  | op => fun s => ((Cluster.empty.answered op).1, s)

def sampleDatabase : Value :=
  .object [("apiVersion", .text "starlane.starlane.io/v1alpha1"), ("kind", .text Kind.postgres),
    ("metadata", .object [("name", .text "pg"), ("uid", .text "uid-pg")])]

def sampleRequest : Value :=
  .object [("kind", .text Kind.resource), ("metadata", .object [("name", .text "pg")]),
    ("spec", .object [("provisioner", .text "postgres")])]

def exposedAs (type : String) : Value :=
  .object [("kind", .text Kind.service), ("metadata", .object [("name", .text "pg")]),
    ("spec", .object [("type", .text type)])]

def missingSample (kind name : String) : Failure :=
  ⟨.notFound (.text kind) (.text "default") (.text name), none⟩

/-- A call of the framework that is tried: for which handler, with which object, and with which answers of the
store. -/
structure Trial where
  handler : Handler
  body : Value
  answers : List (Except Failure Value)

def Trial.account (trial : Trial) : Account :=
  Account.ofTraces (course scripted (handle {} trial.handler trial.body 0 0) trial.answers).left

/-- Passes that end in each way, most of them over a database. -/
def sampleTrials : List Trial :=
  let database := Trial.mk (databaseHandler {}) sampleDatabase
  -- all children exist, and the last is exposed as it should be
  [database [.ok sampleDatabase, .ok .null, .ok .null, .ok .null, .ok (exposedAs "ClusterIP")],
    -- the database is gone
    database [.error (missingSample "Postgres" "pg")],
    -- the first child is missing, and is created
    database [.ok sampleDatabase, .error (missingSample "PersistentVolumeClaim" "pg"), .ok .null],
    -- the last child is exposed differently, and is corrected
    database [.ok sampleDatabase, .ok .null, .ok .null, .ok .null, .ok (exposedAs "NodePort"), .ok .null],
    -- another writer was faster
    database [.error ⟨.conflict "changed meanwhile", none⟩],
    -- the store cannot be reached
    database [],
    -- the provisioner of a request is missing, which is not reported
    ⟨Provisioning.handler {} Kind.resource, sampleRequest,
      [.ok sampleRequest, .error (missingSample "StarlaneProvisioner" "postgres"), .ok .null]⟩]

/-- Each of these passes is counted under its label and timed once, and a fault is counted and reported where
there is one. -/
theorem sample_passes_accounted :
    sampleTrials.map Trial.account =
      [{ passes := [("Postgres", "success")], timed := ["Postgres"] },
        { passes := [("Postgres", "success")], timed := ["Postgres"] },
        { passes := [("Postgres", "requeue")], timed := ["Postgres"] },
        { passes := [("Postgres", "requeue_after")], timed := ["Postgres"] },
        { passes := [("Postgres", "conflict")], timed := ["Postgres"] },
        { passes := [("Postgres", "error")]
          faults := [("Postgres", "StoreError")]
          timed := ["Postgres"]
          reports := [.reconcileFailed sampleDatabase "Reconciliation failed: connection refused"] },
        { passes := [("StarlaneResource", "error")]
          faults := [("StarlaneResource", "DependencyMissingError")]
          timed := ["StarlaneResource"] }] := by
  have hknown : ∀ trial ∈ sampleTrials, trial.handler ∈ handlers {} ∧
      (trial.body.require "metadata" >>= Identity.ofMeta) = .ok ⟨.text "default", .text "pg"⟩ := by
    simp only [sampleTrials, List.forall_mem_cons, handlers]
    exact ⟨⟨by simp, rfl⟩, ⟨by simp, rfl⟩, ⟨by simp, rfl⟩, ⟨by simp, rfl⟩, ⟨by simp, rfl⟩, ⟨by simp, rfl⟩,
      ⟨by simp, rfl⟩, by simp⟩
  -- the account of a call is that of the reconciliation, with the reports that its directive calls for
  have haccount : ∀ trial ∈ sampleTrials, trial.account =
      let whole := course scripted (trial.handler.reconcile {} ⟨.text "default", .text "pg"⟩) trial.answers
      { Account.ofTraces whole.left with reports := whole.result.reports trial.body } := by
    intro trial htrial
    obtain ⟨hhandler, hbody⟩ := hknown trial htrial
    obtain ⟨-, hcalls⟩ := every_pass_accounted_once {} hhandler scripted trial.answers
      ⟨.text "default", .text "pg"⟩
    exact (hcalls trial.body 0 0 hbody).2
  rw [List.map_congr_left haccount]
  decide +kernel

end Calls

end Reconciler
