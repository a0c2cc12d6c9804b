import Reconciler.Proofs.Provisioning.Recovery

/-! # What a finished job makes of its request

How a job stands is decided by the conditions that hold, and a condition without a status holds. Why a job
failed is read from another place: from the first condition of type `Failed`, whether it holds or not. So a
failure may be explained by a condition that says that there was none.

Main definitions and statements:

* `JobOutcome.listed`, `JobOutcome.Reported`: the conditions of a job, and whether some condition of a type
  holds;
* `JobOutcome.ofJob_eq`, `JobOutcome.failureReason_eq`: the two readings of a job;
* `Judged`, `Explained`: what a pass makes of a request, by the conditions that hold, and how it explains a
  failure;
* `jobs_judged_by_conditions`: so it is, for all jobs;
* `not_byTrue`: and not by the conditions with status `"True"` alone.
-/

namespace Reconciler

open Cluster

/-! ## The conditions of a job -/

namespace JobOutcome

def condition? : Value → Option Condition
  | .object condition => some condition
  | _ => none

/-- The conditions that a job lists. -/
def listed (job : Value) : List Condition :=
  match conditionsPart job with
  | some (.list items) => items.filterMap condition?
  | _ => []

/-- A condition whose status is `"True"`. -/
def isTrue (condition : Condition) : Bool :=
  condition.part "status" = .text "True"

/-- Some condition of a type is among those that hold. -/
def Reported (holds : Condition → Bool) (type : String) (job : Value) : Prop :=
  ∃ condition ∈ listed job, condition.isOf (.text type) = true ∧ holds condition = true

instance (holds : Condition → Bool) (type : String) (job : Value) :
    Decidable (Reported holds type job) :=
  inferInstanceAs (Decidable (∃ condition ∈ listed job, _))

/-- What a condition says: its message, or else its reason. -/
def saying (condition : Condition) : Value :=
  if (condition.part "message").truthy then condition.part "message" else condition.part "reason"

/-- The first condition of type `Failed`, whether it holds or not. -/
def firstFailed (job : Value) : Option Condition :=
  (listed job).find? (Condition.isOf (.text "Failed"))

/-- A job whose conditions can be taken at their word: those that hold say so, and when it failed, the first
condition of type `Failed` is one of them. -/
structure Plain (job : Value) : Prop where
  stated : ∀ condition ∈ listed job, active condition = true → isTrue condition = true
  first : ∀ condition, firstFailed job = some condition → Reported isTrue "Failed" job →
    isTrue condition = true

variable {job : Value} {conditions : List Condition}

theorem active_of_isTrue {condition : Condition} (h : isTrue condition = true) :
    active condition = true := by
  have hstatus : condition.part "status" = .text "True" := of_decide_eq_true h
  cases hfind : Fields.find? "status" condition with
  | none => simp [Condition.part, hfind] at hstatus
  | some status =>
    obtain rfl : status = .text "True" := by simpa [Condition.part, hfind] using hstatus
    simp [active, hfind, Value.isText]

theorem Plain.reported_iff (h : Plain job) (type : String) :
    Reported isTrue type job ↔ Reported active type job := by
  constructor
  · rintro ⟨condition, hmem, htype, htrue⟩
    exact ⟨condition, hmem, htype, active_of_isTrue htrue⟩
  · rintro ⟨condition, hmem, htype, hactive⟩
    exact ⟨condition, hmem, htype, h.stated condition hmem hactive⟩

/-- A list of objects is what its conditions are as objects. -/
theorem map_condition? {items : List Value}
    (hobjects : ∀ item ∈ items, ∃ condition, item = .object condition) :
    (items.filterMap condition?).map .object = items := by
  induction items with
  | nil => rfl
  | cons item rest ih =>
    rcases hobjects item List.mem_cons_self with ⟨condition, rfl⟩
    have hrest := ih fun item hitem => hobjects item (List.mem_cons_of_mem _ hitem)
    simpa [condition?] using hrest

/-- The conditions of a job are read as they are listed. -/
theorem Reports.conditions_eq (h : Reports job) :
    JobOutcome.conditionsOf job = .ok ((listed job).map .object) := by
  rw [h.conditions_read]
  rcases h.conditions with hpart | hpart | ⟨items, hpart⟩
  · simp only [listed, hpart]
    rfl
  · simp only [listed, hpart]
    rfl
  · simp only [listed, hpart, map_condition? (h.entries items hpart)]
    cases items <;> rfl

theorem fieldOrNull_object (condition : Condition) (key : String) :
    (Value.object condition).fieldOrNull key = .ok (condition.part key) :=
  rfl

theorem fieldOr_status (condition : Condition) :
    ∃ status, (Value.object condition).fieldOr "status" (.text "True") = .ok status ∧
      status.isText "True" = active condition :=
  ⟨_, rfl, rfl⟩

theorem isText_part (condition : Condition) (type : String) :
    (condition.part "type").isText type = condition.isOf (.text type) := by
  rw [Bool.eq_iff_iff, Condition.isOf_iff]
  cases condition.part "type" with
  | text s => simp [Value.isText]
  | _ => simp [Value.isText]

/-- The active types are those of the conditions that hold. -/
theorem activeTypes_eq {types : List Value}
    (h : activeTypes (conditions.map .object) = .ok types) :
    types = (conditions.filter active).map (Condition.part · "type") := by
  induction conditions generalizing types with
  | nil => exact (Except.ok.inj h).symm
  | cons condition rest ih =>
    rcases fieldOr_status condition with ⟨status, hstatus, hactive⟩
    simp only [List.map_cons, activeTypes, fieldOrNull_object, hstatus, hactive, bind,
      Except.bind] at h
    -- the type of a condition that does not hold is not looked at
    by_cases hholds : active condition = true
    · rw [if_pos hholds] at h
      split at h
      · split at h
        · cases h
        · next types' hrest =>
          obtain rfl := Except.ok.inj h
          simp [hholds, ih hrest]
      · cases h
    · rw [if_neg hholds] at h
      simp [hholds, ih h]

theorem any_activeTypes {types : List Value} (type : String)
    (h : activeTypes ((listed job).map .object) = .ok types) :
    types.any (·.isText type) = true ↔ Reported active type job := by
  rw [activeTypes_eq h]
  simp [Reported, isText_part, and_comm]

/-- A job is judged by the conditions that hold. -/
theorem ofJob_eq (h : Reports job) (hcomparable : Comparable job) :
    ofJob job = .ok
      (if Reported active "Failed" job then .failed
       else if Reported active "Complete" job then .complete
       else .running) := by
  rcases exists_ofJob h hcomparable with ⟨outcome, houtcome⟩
  have hread := houtcome
  simp only [ofJob, h.conditions_eq, bind_eq_ok, Except.ok.injEq, exists_eq_left'] at hread
  rcases hread with ⟨types, htypes, hread⟩
  simp only [any_activeTypes _ htypes] at hread
  rw [houtcome, ← hread]
  split
  · rfl
  · split <;> rfl

/-- The explanation is that of the first condition of type `Failed`. -/
theorem failureReason_eq (h : Reports job) :
    failureReason job = .ok (((firstFailed job).map saying).getD .null) := by
  simp only [failureReason, h.conditions_eq, bind, Except.bind, firstFailed]
  induction listed job with
  | nil => rfl
  | cons condition rest ih =>
    simp only [List.map_cons, explanation, fieldOrNull_object, isText_part, bind, Except.bind, ih,
      List.find?_cons]
    cases condition.isOf (.text "Failed") with
    | false => rfl
    | true =>
      simp only [if_true, Option.map_some, Option.getD_some, saying]
      split <;> rfl

/-- A job that failed has a condition that explains it. -/
theorem exists_firstFailed {holds : Condition → Bool} (h : Reported holds "Failed" job) :
    ∃ condition, firstFailed job = some condition := by
  rcases h with ⟨condition, hmem, htype, -⟩
  exact Option.isSome_iff_exists.mp (List.find?_isSome.mpr ⟨condition, hmem, htype⟩)

end JobOutcome

namespace Provisioning

/-! ## One pass -/

/-- What a request says when its job failed and a condition explains why. -/
def failureMessage (id : Identity) (condition : Condition) : String :=
  (Fault.jobFailed id.name (JobOutcome.saying condition)).message

def failedConditions (message now now' : Value) (cs : List Condition) : List Condition :=
  Condition.record (Condition.ready false message .null) now'
    (Condition.record (Condition.jobFailed message .null) now cs)

def messageOf (type : String) (cs : List Condition) : Option Value :=
  (cs.find? (Condition.isOf (.text type))).map (Condition.part · "message")

theorem messageOf_failedConditions (message now now' : Value) (cs : List Condition) :
    messageOf ConditionType.jobFailed (failedConditions message now now' cs) = some message ∧
      messageOf ConditionType.ready (failedConditions message now now' cs) = some message := by
  have hfirst := Condition.find?_record (r := Condition.jobFailed message .null) trivial now cs
  have hsecond := Condition.find?_record (r := Condition.ready false message .null) trivial now'
    (Condition.record (Condition.jobFailed message .null) now cs)
  -- readiness is recorded last, and leaves the entry about the job alone
  have hkept : (failedConditions message now now' cs).filter
        (Condition.isOf (.text ConditionType.jobFailed)) =
      (Condition.record (Condition.jobFailed message .null) now cs).filter
        (Condition.isOf (.text ConditionType.jobFailed)) :=
    Condition.filter_record_of_ne rfl (by decide) now' _
  constructor
  · rw [messageOf, ← List.head?_filter, hkept, List.head?_filter]
    exact congrArg (Option.map (Condition.part · "message")) hfirst
  · exact congrArg (Option.map (Condition.part · "message")) hsecond

/-- What a pass makes of a request in `Creating` with a job. -/
inductive Finishes (settings : Settings) (kind : String) (id : Identity) (request job : Value)
    (cs : List Condition) (c c' : Cluster) (events : List ClusterEvent) : Directive → Prop where
  | failed {condition : Condition} {now now' : Value} :
      JobOutcome.Reported JobOutcome.active "Failed" job → JobOutcome.firstFailed job = some condition →
      Moved kind id .failed (failedConditions (.text (failureMessage id condition)) now now' cs) c c' →
      events = [.provisioningFailed request (failureMessage id condition)] →
      Finishes settings kind id request job cs c c' events .done
  | completed {cs' : List Condition} :
      ¬ JobOutcome.Reported JobOutcome.active "Failed" job →
      JobOutcome.Reported JobOutcome.active "Complete" job → Moved kind id .ready cs' c c' →
      Finishes settings kind id request job cs c c' events .done
  | waited :
      ¬ JobOutcome.Reported JobOutcome.active "Failed" job →
      ¬ JobOutcome.Reported JobOutcome.active "Complete" job → c' = c →
      Finishes settings kind id request job cs c c' events
        (.requeueAfter settings.pollInterval)

section Pass

variable {settings settings' : Settings} {kind : String} {id : Identity} {request job : Value}
variable {cs : List Condition} {c c' : Cluster} {d : Directive} {events : List ClusterEvent}

/-- A request whose job failed enters `Failed`, with the reason that the job gives. -/
theorem Standing.fail_moves {metadata reason : Value} (hname : metadata.field? "name" = some id.name)
    (h : Standing kind id .creating request cs c) (hreason : JobOutcome.failureReason job = .ok reason) :
    Posts (fun c' events d => d = .done ∧
        (∃ now now', Moved kind id .failed
          (failedConditions (.text (Fault.jobFailed id.name reason).message) now now' cs) c c') ∧
        events = [.provisioningFailed request (Fault.jobFailed id.name reason).message])
      (fail kind request metadata job) c [] := by
  unfold fail
  refine posts_value h.conditions ?_
  refine posts_value (Value.require_eq_ok.mpr hname) ?_
  refine posts_value hreason ?_
  refine posts_recordNow fun now => ?_
  refine posts_recordNow fun now' => ?_
  refine posts_bind ((h.advance_posts rfl _).mono ?_)
  rintro c' _ _ ⟨hmoved, rfl⟩
  refine posts_note hname ?_
  refine posts_post ?_
  exact posts_pure ⟨rfl, ⟨_, _, hmoved⟩, rfl⟩

/-- A request whose job completed enters `Ready`. -/
theorem Standing.complete_moves {metadata : Value} (hname : metadata.field? "name" = some id.name)
    (h : Standing kind id .creating request cs c) :
    Posts (fun c' _ d => d = .done ∧ ∃ cs', Moved kind id .ready cs' c c')
      (complete kind request metadata) c [] := by
  unfold complete
  refine posts_value h.conditions ?_
  refine posts_recordNow fun now => ?_
  refine posts_bind ((h.advance_posts rfl _).mono ?_)
  rintro c' _ _ ⟨hmoved, rfl⟩
  refine posts_note hname ?_
  refine posts_value (Value.require_eq_ok.mpr hname) ?_
  refine posts_post ?_
  exact posts_pure ⟨rfl, _, hmoved⟩

/-- A pass over a request whose job failed. -/
theorem Standing.fail_posts {metadata : Value} (hname : metadata.field? "name" = some id.name)
    (h : Standing kind id .creating request cs c) (hreports : JobOutcome.Reports job)
    (hfailed : JobOutcome.Reported JobOutcome.active "Failed" job) :
    Posts (fun c' events d => Finishes settings kind id request job cs c c' events d)
      (fail kind request metadata job) c [] := by
  rcases JobOutcome.exists_firstFailed hfailed with ⟨condition, hcondition⟩
  have hreason : JobOutcome.failureReason job = .ok (JobOutcome.saying condition) := by
    rw [JobOutcome.failureReason_eq hreports, hcondition]
    rfl
  refine (h.fail_moves hname hreason).mono ?_
  rintro c' events _ ⟨rfl, ⟨now, now', hmoved⟩, hevents⟩
  exact .failed hfailed hcondition hmoved hevents

/-- A pass over a request in `Creating` judges its job. -/
theorem Standing.observe_posts (hpoll : 0 < settings.pollInterval)
    (h : Standing kind id .creating request cs c) (hjob : c.find? (jobOf id) = some job)
    (hreports : JobOutcome.Reports job) (hcomparable : JobOutcome.Comparable job) :
    Posts (fun c' events d => Finishes settings kind id request job cs c c' events d)
      (observe settings kind request) c [] := by
  rcases addressOf_eq_ok.mp h.address with ⟨metadata, hmeta, -, hns, hname⟩
  unfold observe
  refine posts_value (Value.require_eq_ok.mpr hmeta) ?_
  refine posts_value hns ?_
  refine posts_value (Value.require_eq_ok.mpr hname) ?_
  refine posts_answered (get_of_find? (nameable_jobOf h.nameable) hjob) ?_
  refine posts_value (JobOutcome.ofJob_eq hreports hcomparable) ?_
  -- failure is looked for before completion
  by_cases hfailed : JobOutcome.Reported JobOutcome.active "Failed" job
  · rw [if_pos hfailed]
    exact h.fail_posts hname hreports hfailed
  · by_cases hcomplete : JobOutcome.Reported JobOutcome.active "Complete" job
    · rw [if_neg hfailed, if_pos hcomplete]
      refine (h.complete_moves hname).mono ?_
      rintro c' events _ ⟨rfl, cs', hmoved⟩
      exact .completed hfailed hcomplete hmoved
    · rw [if_neg hfailed, if_neg hcomplete, Directive.after_of_pos hpoll]
      exact posts_pure (.waited hfailed hcomplete rfl)

end Pass

/-! ## The verdict -/

/-- One pass over a request, from its first question to its directive, when nothing gets in its way, and the
events that it posts. -/
def Observed (settings settings' : Settings) (kind : String) (id : Identity) (c : Cluster)
    (d : Directive) (c' : Cluster) (events : List ClusterEvent) : Prop :=
  Program.Leads (posting reliable) ((handler settings kind).reconcile settings' id) (c, []) (.done d)
    (c', events)

/-- A pass judges a request in `Creating` by the conditions of its job that hold. -/
structure Judged (holds : Condition → Bool) (settings : Settings) (kind : String) (id : Identity)
    (job : Value) (c c' : Cluster) (d : Directive) : Prop where
  failed_iff : stageAt (requestAt kind id) c' = some .failed ↔ JobOutcome.Reported holds "Failed" job
  ready_iff : stageAt (requestAt kind id) c' = some .ready ↔
    ¬ JobOutcome.Reported holds "Failed" job ∧ JobOutcome.Reported holds "Complete" job
  waits : ¬ JobOutcome.Reported holds "Failed" job → ¬ JobOutcome.Reported holds "Complete" job →
    c' = c ∧ d = .requeueAfter settings.pollInterval

/-- A condition explains why a request failed: its conditions say what it says, and so does the event. -/
structure Explained (kind : String) (id : Identity) (request : Value) (condition : Condition)
    (c' : Cluster) (events : List ClusterEvent) : Prop where
  stored : ∃ stored cs, c'.find? (requestAt kind id) = some stored ∧ conditionsOf stored = .ok cs ∧
    messageOf ConditionType.jobFailed cs = some (.text (failureMessage id condition)) ∧
    messageOf ConditionType.ready cs = some (.text (failureMessage id condition))
  posted : events = [.provisioningFailed request (failureMessage id condition)]

/-- Only the conditions with status `"True"` count, and one of them explains a failure. -/
structure ByTrueConditions (settings : Settings) (kind : String) (id : Identity) (request job : Value)
    (c c' : Cluster) (d : Directive) (events : List ClusterEvent) : Prop where
  judged : Judged JobOutcome.isTrue settings kind id job c c' d
  explained : stageAt (requestAt kind id) c' = some .failed →
    ∃ condition ∈ JobOutcome.listed job, condition.isOf (.text "Failed") = true ∧
      JobOutcome.isTrue condition = true ∧ Explained kind id request condition c' events

section Verdict

variable {settings settings' : Settings} {kind : String} {id : Identity} {request job : Value}
variable {cs : List Condition} {c c' : Cluster} {d : Directive} {events : List ClusterEvent}

theorem exists_observed (settings settings' : Settings) (kind : String) (id : Identity) (c : Cluster) :
    ∃ d c' events, Observed settings settings' kind id c d c' events := by
  obtain ⟨d, ⟨c', events⟩, hrun⟩ := Program.exists_leads_done (E := posting reliable)
    (fun s op => ⟨_, (_, _), s.1.facing_answered op, rfl⟩)
    ((handler settings kind).reconcile settings' id) (c, [])
  exact ⟨d, c', events, hrun⟩

/-- One undisturbed pass over a request in `Creating` finishes it or waits, as the job says. -/
theorem Standing.observed (hpoll : 0 < settings.pollInterval)
    (h : Standing kind id .creating request cs c) (hjob : c.find? (jobOf id) = some job)
    (hreports : JobOutcome.Reports job) (hcomparable : JobOutcome.Comparable job)
    (hrun : Observed settings settings' kind id c d c' events) :
    Finishes settings kind id request job cs c c' events d := by
  have hposts : Posts (fun c' events d => (∀ f, d ≠ .failed (some f)) ∧
      Finishes settings kind id request job cs c c' events d) ((handler settings kind).converge id) c [] := by
    refine h.converge_posts ((h.observe_posts hpoll hjob hreports hcomparable).mono ?_)
    intro c' events d hfinishes
    refine ⟨?_, hfinishes⟩
    cases hfinishes with
    | failed | completed | waited => simp
  exact (Posts.reconcile settings' hposts).of_leads hrun

/-- What a pass makes of a request is a judgement by the conditions that hold. -/
theorem Finishes.judged (h : Standing kind id .creating request cs c)
    (hfinishes : Finishes settings kind id request job cs c c' events d) :
    Judged JobOutcome.active settings kind id job c c' d := by
  -- failed, completed or waited: the stage afterwards tells which one it was
  cases hfinishes with
  | failed hfailed _ hmoved _ =>
    have hstage := hmoved.stageAt
    exact ⟨by simp [hstage, hfailed], by simp [hstage, hfailed], fun hnot => absurd hfailed hnot⟩
  | completed hfailed hcomplete hmoved =>
    have hstage := hmoved.stageAt
    exact ⟨by simp [hstage, hfailed], by simp [hstage, hfailed, hcomplete],
      fun _ hnot => absurd hcomplete hnot⟩
  | waited hfailed hcomplete hsame =>
    subst hsame
    have hstage : stageAt (requestAt kind id) c' = some .creating := by
      simp [stageAt, h.stored, h.staged, Except.toOption]
    exact ⟨by simp [hstage, hfailed], by simp [hstage, hcomplete], fun _ _ => ⟨rfl, rfl⟩⟩

/-- A failure is explained by the first condition of type `Failed`. -/
theorem Finishes.explained (h : Standing kind id .creating request cs c)
    (hfinishes : Finishes settings kind id request job cs c c' events d)
    (hstage : stageAt (requestAt kind id) c' = some .failed) :
    ∃ condition, JobOutcome.firstFailed job = some condition ∧
      Explained kind id request condition c' events := by
  cases hfinishes with
  | @failed condition now now' _ hfirst hmoved hevents =>
    -- the conditions that are stored are those of a failure with the message of the explanation
    rcases hmoved with ⟨stored, -, hconditions, rfl⟩
    rcases messageOf_failedConditions (.text (failureMessage id condition)) now now' cs with
      ⟨hjobFailed, hready⟩
    exact ⟨condition, hfirst,
      ⟨stored, _, by simp [find?_withObject], hconditions, hjobFailed, hready⟩, hevents⟩
  | completed _ _ hmoved =>
    rw [hmoved.stageAt] at hstage
    cases hstage
  | waited _ _ hsame =>
    subst hsame
    simp [stageAt, h.stored, h.staged, Except.toOption] at hstage

/-- A job that can be taken at its word is judged by its true conditions. -/
theorem Finishes.byTrueConditions (h : Standing kind id .creating request cs c)
    (hplain : JobOutcome.Plain job)
    (hfinishes : Finishes settings kind id request job cs c c' events d) :
    ByTrueConditions settings kind id request job c c' d events := by
  have hjudged := hfinishes.judged h
  constructor
  case judged =>
    constructor
    · rw [hplain.reported_iff, hjudged.failed_iff]
    · rw [hplain.reported_iff, hplain.reported_iff, hjudged.ready_iff]
    · rw [hplain.reported_iff, hplain.reported_iff]
      exact hjudged.waits
  case explained =>
    intro hstage
    rcases hfinishes.explained h hstage with ⟨condition, hfirst, hexplained⟩
    -- the job is plain, so the first condition of the type holds
    have hfailed := (hplain.reported_iff _).mpr (hjudged.failed_iff.mp hstage)
    exact ⟨condition, List.mem_of_find?_eq_some hfirst, List.find?_some hfirst,
      hplain.first condition hfirst hfailed, hexplained⟩

/-- A pass that nothing gets in the way of judges a request in `Creating` by the conditions of its job that
hold, where a condition without a status holds: a condition of type `Failed` makes the request `Failed`, else
one of type `Complete` makes it `Ready`, and else nothing is written and the pass is to be repeated after the
poll interval. A failure is explained by the first condition of type `Failed`, whether it holds or not. Only
the conditions with status `"True"` count when all that hold say so, and the first of type `Failed` does. -/
theorem jobs_judged_by_conditions (settings settings' : Settings) {kind : String} {id : Identity}
    {request job : Value} {cs : List Condition} {c : Cluster} (hpoll : 0 < settings.pollInterval)
    (hstanding : Standing kind id .creating request cs c) (hjob : c.find? (jobOf id) = some job)
    (hreports : JobOutcome.Reports job) (hcomparable : JobOutcome.Comparable job) :
    (∃ d c' events, Observed settings settings' kind id c d c' events) ∧
      ∀ d c' events, Observed settings settings' kind id c d c' events →
        Judged JobOutcome.active settings kind id job c c' d ∧
        (stageAt (requestAt kind id) c' = some .failed →
          ∃ condition, JobOutcome.firstFailed job = some condition ∧
            Explained kind id request condition c' events) ∧
        (JobOutcome.Plain job → ByTrueConditions settings kind id request job c c' d events) := by
  refine ⟨exists_observed settings settings' kind id c, ?_⟩
  intro d c' events hrun
  have hfinishes := hstanding.observed hpoll hjob hreports hcomparable hrun
  exact ⟨hfinishes.judged hstanding, hfinishes.explained hstanding,
    fun hplain => hfinishes.byTrueConditions hstanding hplain⟩

end Verdict

def jobWith (conditions : List Condition) : Value :=
  .object [("kind", .text Kind.job), ("status", .object [("conditions", conditionList conditions)])]

/-- The request for a database was started, and its job has some conditions. -/
def judgedCluster (conditions : List Condition) : Cluster :=
  ⟨[(requestAt Kind.resource sampleId, startedRequest), (jobOf sampleId, jobWith conditions)], 7, []⟩

theorem standing_judgedCluster (conditions : List Condition) :
    Standing Kind.resource sampleId .creating startedRequest [] (judgedCluster conditions) where
  stored := rfl
  address := rfl
  nameable := rfl
  version := ⟨_, rfl⟩
  staged := rfl
  conditions := rfl

theorem items_jobWith {conditions : List Condition} {items : List Value}
    (h : JobOutcome.conditionsPart (jobWith conditions) = some (.list items)) :
    items = conditions.map .object :=
  (Value.list.inj (Option.some.inj h)).symm

theorem reports_jobWith (conditions : List Condition) : JobOutcome.Reports (jobWith conditions) where
  object := ⟨_, rfl⟩
  status := .inr (.inr ⟨_, rfl⟩)
  conditions := .inr (.inr ⟨_, rfl⟩)
  entries := by
    intro items hitems item hitem
    obtain rfl := items_jobWith hitems
    rcases List.mem_map.mp hitem with ⟨condition, -, rfl⟩
    exact ⟨condition, rfl⟩

theorem comparable_jobWith {conditions : List Condition}
    (h : ∀ condition ∈ conditions, (condition.part "type").nameable = true) :
    JobOutcome.Comparable (jobWith conditions) := by
  intro items hitems condition hmem _
  obtain rfl := items_jobWith hitems
  rcases List.mem_map.mp hmem with ⟨condition', hcondition, heq⟩
  obtain rfl := Value.object.inj heq
  exact h _ hcondition

/-- One pass over the request comes to its end, and judges the job by the conditions that hold. -/
theorem judge_jobWith (conditions : List Condition)
    (h : ∀ condition ∈ conditions, (condition.part "type").nameable = true) :
    ∃ d c' events, Observed {} {} Kind.resource sampleId (judgedCluster conditions) d c' events ∧
      Finishes {} Kind.resource sampleId startedRequest (jobWith conditions) []
        (judgedCluster conditions) c' events d := by
  rcases exists_observed {} {} Kind.resource sampleId (judgedCluster conditions) with
    ⟨d, c', events, hrun⟩
  exact ⟨d, c', events, hrun, (standing_judgedCluster conditions).observed (by decide) rfl
    (reports_jobWith conditions) (comparable_jobWith h) hrun⟩

def gaveUp : Condition :=
  [("type", .text "Failed"), ("status", .text "True"), ("message", .text "BackoffLimitExceeded")]

def oldTrouble : Condition :=
  [("type", .text "Failed"), ("status", .text "False"), ("message", .text "old trouble")]

/-- A job that gave up after it was not complete. -/
def givenUp : List Condition :=
  [[("type", .text "Complete"), ("status", .text "False")], gaveUp]

theorem plain_givenUp : JobOutcome.Plain (jobWith givenUp) where
  stated := by decide
  first := by decide

theorem given_up_is_explained :
    ∃ d c' events, Observed {} {} Kind.resource sampleId (judgedCluster givenUp) d c' events ∧
      stageAt (requestAt Kind.resource sampleId) c' = some .failed ∧
      events = [.provisioningFailed startedRequest
        "Provisioning job db failed: BackoffLimitExceeded"] ∧
      ByTrueConditions {} Kind.resource sampleId startedRequest (jobWith givenUp)
        (judgedCluster givenUp) c' d events := by
  obtain ⟨⟨d, c', events, hrun⟩, hall⟩ := jobs_judged_by_conditions {} {} (by decide)
    (standing_judgedCluster givenUp) rfl (reports_jobWith givenUp) (comparable_jobWith (by decide))
  rcases hall d c' events hrun with ⟨hjudged, hexplained, hbyTrue⟩
  have hstage := hjudged.failed_iff.mpr (by decide)
  rcases hexplained hstage with ⟨condition, hfirst, -, hevents⟩
  obtain rfl : gaveUp = condition := Option.some.inj hfirst
  exact ⟨d, c', events, hrun, hstage, hevents, hbyTrue plain_givenUp⟩

/-! ### What is not true -/

/-- The job of the request for a database is judged and explained by its conditions with status `"True"`. -/
def ByTrue (conditions : List Condition) : Prop :=
  ∀ d c' events, Observed {} {} Kind.resource sampleId (judgedCluster conditions) d c' events →
    ByTrueConditions {} Kind.resource sampleId startedRequest (jobWith conditions)
      (judgedCluster conditions) c' d events

/-- The failure of a job may be explained by a condition that says that it did not fail, and a condition that
says nothing of its status counts. -/
theorem not_byTrue : ¬ ByTrue [oldTrouble, gaveUp] ∧ ¬ ByTrue [[("type", .text "Complete")]] := by
  constructor
  · intro hbyTrue
    rcases judge_jobWith [oldTrouble, gaveUp] (by decide) with ⟨d, c', events, hrun, hfinishes⟩
    have hstanding := standing_judgedCluster [oldTrouble, gaveUp]
    have hstage := (hfinishes.judged hstanding).failed_iff.mpr (by decide)
    -- the event tells of the old trouble, where it should tell that the job gave up
    rcases hfinishes.explained hstanding hstage with ⟨first, hfirst, -, hevents⟩
    obtain rfl : oldTrouble = first := Option.some.inj hfirst
    rcases (hbyTrue d c' events hrun).explained hstage with ⟨condition, hmem, -, htrue, -, hevents'⟩
    obtain rfl : condition = gaveUp := by
      have honly : ∀ condition ∈ [oldTrouble, gaveUp], JobOutcome.isTrue condition = true →
          condition = gaveUp := by decide
      exact honly condition hmem htrue
    exact absurd (hevents.symm.trans hevents') (by decide +kernel)
  · intro hbyTrue
    rcases judge_jobWith [[("type", .text "Complete")]] (by decide) with
      ⟨d, c', events, hrun, hfinishes⟩
    have hstanding := standing_judgedCluster [[("type", .text "Complete")]]
    have hready := (hfinishes.judged hstanding).ready_iff.mpr (by decide)
    exact absurd ((hbyTrue d c' events hrun).judged.ready_iff.mp hready) (by decide)

end Provisioning

end Reconciler
