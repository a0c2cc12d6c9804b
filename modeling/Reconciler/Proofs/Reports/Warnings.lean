import Reconciler.Proofs.Reports.Accounting

/-! # What warnings say

A warning is posted for a fault: for a failed pass, for a descriptor that cannot be read, for a job that
failed. The texts of faults quote what was fetched, so they may quote credentials, and what is logged of
them is sanitized first. The report of a failed pass is sanitized as well; the other two warnings carry the
text of their fault as it is.

Main definitions and statements:

* `Concerns`: the fault that a warning of a call is about;
* `ClusterEvent.Clean`: a warning that has the text of a fault in sanitized form only;
* `warning_clean_iff`: a warning is clean exactly when it reports a failed pass or there is nothing to
  sanitize;
* `not_cleanWarnings`: so not all warnings are.
-/

namespace Reconciler

open SafePass (course)

/-! ## Faults of warnings -/

/-- The fault that a warning with some reason is about, by what a call heard from the store and by the
directive of its reconciliation. -/
inductive Concerns (h : History) (d : Directive) : String → Fault → Prop where
  /-- The pass found the fault in something it fetched. -/
  | raised {reason : String} {fault : Fault} : Raised h reason fault → Concerns h d reason fault
  /-- The pass failed with the fault. -/
  | failed {f : Failure} : d = .failed (some f) → Concerns h d "ReconcileFailed" f.fault

/-- What a warning with some reason says before it quotes its fault. -/
def wordingOf (reason : String) : String :=
  if reason = "ReconcileFailed" then "Reconciliation failed: " else ""

/-- A warning that has the text of a fault in sanitized form only. -/
def ClusterEvent.Clean (e : ClusterEvent) (fault : Fault) : Prop :=
  e.message = wordingOf e.reason ++ fault.sanitized

/-- The events among what was left behind. -/
def posted (left : List Trace) : List ClusterEvent :=
  left.filterMap fun
    | .event e => some e
    | _ => none

/-- All warnings that any call of the framework posts are clean. -/
def CleanWarnings (settings : Settings) : Prop :=
  ∀ h ∈ handlers settings, ∀ (σ : Type) (surroundings : Surroundings σ) (s : σ) (id : Identity)
    (body : Value) (retry : Int) (jitter : Rat),
    (body.require "metadata" >>= Identity.ofMeta) = .ok id →
    ∀ e ∈ posted (course surroundings (handle settings h body retry jitter) s).left, e.warning = true →
      ∃ fault, Concerns (course surroundings (handle settings h body retry jitter) s).heard
          (course surroundings (h.reconcile settings id) s).result e.reason fault ∧
        e.Clean fault

/-! ## Where events come from -/

theorem posted_append (left more : List Trace) : posted (left ++ more) = posted left ++ posted more :=
  List.filterMap_append

/-- The events posted are those among what was left behind. -/
theorem mem_posted {left : List Trace} {e : ClusterEvent} : e ∈ posted left ↔ .event e ∈ left := by
  constructor
  · intro he
    obtain ⟨t, ht, heq⟩ := List.mem_filterMap.mp he
    cases t with
    | event e' =>
      obtain rfl : e' = e := Option.some.inj heq
      exact ht
    | _ => cases heq
  · intro he
    exact List.mem_filterMap.mpr ⟨_, he, rfl⟩

theorem posted_events (events : List ClusterEvent) : posted (events.map .event) = events := by
  induction events with
  | nil => rfl
  | cons e rest ih => exact congrArg (e :: ·) ih

/-- A course in which no event is posted and nothing is heard from the store. -/
structure Quiet {σ α : Type} (c : Course σ α) : Prop where
  posted : posted c.left = []
  heard : c.heard = []

theorem Quiet.andThen {σ α β : Type} {first : Course σ α} {next : Course σ β} (hfirst : Quiet first)
    (hnext : Quiet next) : Quiet (first.andThen next) := by
  constructor
  · rw [Course.left_andThen, posted_append, hfirst.posted, hnext.posted]
    rfl
  · rw [Course.heard_andThen, hfirst.heard, hnext.heard]
    rfl

theorem quiet_bind {σ α β : Type} {surroundings : Surroundings σ} {p : SafePass α} {k : α → SafePass β}
    {s : σ} (hp : Quiet (course surroundings p s)) (hk : ∀ a s, Quiet (course surroundings (k a) s)) :
    Quiet (course surroundings (p >>= k) s) := by
  rw [SafePass.course_bind]
  exact hp.andThen (hk _ _)

namespace Handler

variable {σ : Type} {surroundings : Surroundings σ} {settings : Settings} {h : Handler} {id : Identity}

theorem quiet_time (start : Rat) (s : σ) : Quiet (course surroundings (h.time settings start) s) :=
  ⟨rfl, rfl⟩

theorem quiet_fail (f : Failure) (s : σ) : Quiet (course surroundings (h.fail id f) s) := by
  unfold fail
  split
  · exact ⟨rfl, rfl⟩
  · exact ⟨rfl, rfl⟩

theorem quiet_finish (d : Directive) (s : σ) : Quiet (course surroundings (h.finish id d) s) := by
  cases d with
  | failed error =>
    cases error with
    | none => exact ⟨rfl, rfl⟩
    | some f => exact quiet_fail f s
  | _ => exact ⟨rfl, rfl⟩

/-- What follows a pass posts no event and asks the store nothing. -/
theorem quiet_conclude (r : Except Failure Directive) (start : Rat) (s : σ) :
    Quiet (course surroundings (h.conclude settings id start r) s) := by
  unfold conclude
  cases r with
  | ok d =>
    refine quiet_bind ⟨rfl, rfl⟩ (fun _ s => ?_)
    exact quiet_bind (quiet_time start s) (fun _ s => quiet_finish d s)
  | error f =>
    refine quiet_bind ⟨rfl, rfl⟩ (fun _ s => ?_)
    split
    · refine quiet_bind ⟨rfl, rfl⟩ (fun _ s => ?_)
      exact quiet_bind (quiet_time start s) (fun _ s => quiet_finish .done s)
    split
    · exact ⟨rfl, rfl⟩
    · refine quiet_bind (quiet_fail f s) (fun d s => ?_)
      exact ⟨rfl, rfl⟩

/-- The events of a reconciliation are those of its pass, and so is what it heard. -/
theorem posted_reconcile (surroundings : Surroundings σ) (settings : Settings) (h : Handler)
    (id : Identity) (s : σ) :
    let pass := h.passCourse id surroundings s
    let whole := course surroundings (h.reconcile settings id) s
    posted whole.left = posted pass.left ∧ whole.heard = pass.heard := by
  intro pass whole
  have hopening : Quiet (course surroundings (h.opening id) s) := ⟨rfl, rfl⟩
  -- the pass runs between an opening and a conclusion that both are quiet
  let start := (course surroundings (h.opening id) s).result
  let last := course surroundings (h.conclude settings id start pass.result) pass.state
  have hlast : Quiet last := quiet_conclude _ _ _
  have hwhole : whole = (course surroundings (h.opening id) s).andThen (pass.andThen last) :=
    course_reconcile surroundings settings h id s
  constructor
  · rw [hwhole, Course.left_andThen, Course.left_andThen, posted_append, posted_append,
      hopening.posted, hlast.posted, List.nil_append, List.append_nil]
  · rw [hwhole, Course.heard_andThen, Course.heard_andThen, hopening.heard, hlast.heard,
      List.nil_append, List.append_nil]

end Handler

/-! ## What they say -/

/-- A fault that was found in something fetched is warned about under another reason than a failed pass. -/
theorem Raised.reason_ne {h : History} {reason : String} {fault : Fault} (hraised : Raised h reason fault) :
    reason ≠ "ReconcileFailed" := by
  cases hraised with
  | descriptor _ _ _ => decide
  | job _ _ => decide

section Warnings

variable {σ : Type} {surroundings : Surroundings σ} {settings : Settings} {h : Handler} {id : Identity}

/-- A warning that a pass posts about something it fetched is clean when there is nothing to sanitize. -/
theorem clean_raised_iff {heard : History} {object : Value} {reason : String} {fault : Fault}
    (hraised : Raised heard reason fault) :
    (ClusterEvent.about object true reason fault.message).Clean fault ↔
      reason = "ReconcileFailed" ∨ fault.sanitized = fault.message := by
  have hne := hraised.reason_ne
  have hwording : wordingOf reason = "" := if_neg hne
  change fault.message = wordingOf reason ++ fault.sanitized ↔ _
  rw [hwording, String.empty_append, eq_comm]
  exact (or_iff_right hne).symm

/-- The report of a failed pass is clean. -/
theorem clean_report {body : Value} {d : Directive} {e : ClusterEvent} (he : e ∈ d.reports body) :
    ∃ f, d = .failed (some f) ∧ e.reason = "ReconcileFailed" ∧ e.Clean f.fault := by
  cases d with
  | failed error =>
    cases error with
    | none => cases he
    | some f =>
      simp only [Directive.reports] at he
      split at he
      · cases he
      · obtain rfl := List.mem_singleton.mp he
        -- the report quotes the sanitized text of the failure, behind its wording
        have hwording : wordingOf "ReconcileFailed" = "Reconciliation failed: " := if_pos rfl
        refine ⟨f, rfl, rfl, ?_⟩
        change s!"Reconciliation failed: {f.sanitized}" = wordingOf "ReconcileFailed" ++ f.sanitized
        rw [hwording]
        rfl
  | _ => cases he

/-- Whatever is answered, every warning of a call is about a fault, of the pass or in something the pass
fetched, and it is clean exactly when it reports a failed pass or there is nothing to sanitize. -/
theorem warning_clean_iff (settings : Settings) {h : Handler} (hhandler : h ∈ handlers settings)
    (surroundings : Surroundings σ) (s : σ) {id : Identity} {body : Value}
    (hbody : (body.require "metadata" >>= Identity.ofMeta) = .ok id) (retry : Int) (jitter : Rat)
    {e : ClusterEvent}
    (he : e ∈ posted (course surroundings (handle settings h body retry jitter) s).left)
    (hwarning : e.warning = true) :
    ∃ fault, Concerns (course surroundings (handle settings h body retry jitter) s).heard
        (course surroundings (h.reconcile settings id) s).result e.reason fault ∧
      (e.Clean fault ↔ e.reason = "ReconcileFailed" ∨ fault.sanitized = fault.message) := by
  obtain ⟨-, hcall, hcallHeard⟩ := course_handle surroundings settings h hbody retry jitter s
  obtain ⟨hpass, hpassHeard⟩ := Handler.posted_reconcile surroundings settings h id s
  obtain ⟨hleft, -⟩ := leaves_course (fun _ more _ ht => ht.mono more) (ordinary_converge hhandler id)
    surroundings (course surroundings (h.opening id) s).state
  rw [hcall, posted_append, posted_events, hpass] at he
  rw [hcallHeard, hpassHeard]
  rcases List.mem_append.mp he with he | he
  · -- the pass posted it itself
    cases hleft _ (mem_posted.mp he) with
    | news hnormal => simp [hnormal] at hwarning
    | warning hraised => exact ⟨_, .raised hraised, clean_raised_iff hraised⟩
  · -- it reports the failure of the pass
    obtain ⟨f, hfailed, hreason, hclean⟩ := clean_report he
    refine ⟨f.fault, ?_, fun _ => .inl hreason, fun _ => hclean⟩
    rw [hreason]
    exact .failed hfailed

/-! ### A descriptor with a password -/

/-- A store that holds one object and answers every fetch with it. -/
def holding (object : Value) : Surroundings Unit
  | .store (.get _ _ _) => fun s => (.ok object, s)
  | .store _ => fun s => (.error ⟨.store "read only" .null, none⟩, s)
  | op => fun s => ((Cluster.empty.answered op).1, s)

/-- A provisioner with a password in its descriptor, which is one part short. -/
def sampleProvisioner : Value :=
  .object [("kind", .text Kind.provisioner), ("metadata", .object [("name", .text "postgres")]),
    ("spec", .object [("typeKindSpecific", .text "<Database<SQL<acme:pg:password=hunter2>>>")])]

def sampleComplaint : String :=
  "expected Vendor:Product:Variant:Version, got \x27acme:pg:password=hunter2\x27"

def sampleCall : Course Unit Verdict :=
  course (holding sampleProvisioner) (handle {} Labelling.handler sampleProvisioner 0 0) ()

def sampleReconciliation : Course Unit Directive :=
  course (holding sampleProvisioner)
    (Labelling.handler.reconcile {} ⟨.text "default", .text "postgres"⟩) ()

def sampleReport : ClusterEvent :=
  .reconcileFailed sampleProvisioner
    "Reconciliation failed: expected Vendor:Product:Variant:Version, got \x27acme:pg:password=[REDACTED]\x27"

theorem posted_sampleCall : posted sampleCall.left =
    [.descriptorInvalid sampleProvisioner sampleComplaint, sampleReport] := by
  decide +kernel

theorem heard_sampleCall : sampleCall.heard =
    [(.get (.text Kind.provisioner) (.text "default") (.text "postgres"), .ok sampleProvisioner)] := by
  decide +kernel

/-- The call warns of that complaint and of nothing else in what it fetched. -/
theorem raised_sampleCall {reason : String} {fault : Fault} (hraised : Raised sampleCall.heard reason fault) :
    fault = .build sampleComplaint := by
  rw [heard_sampleCall] at hraised
  cases hraised with
  | descriptor hfetched hread hparse =>
    simp only [List.mem_singleton, Prod.mk.injEq, Except.ok.injEq] at hfetched
    obtain ⟨-, rfl⟩ := hfetched
    obtain rfl := Except.ok.inj hread
    have hcomplaint : Descriptor.parse (.text "<Database<SQL<acme:pg:password=hunter2>>>") =
        .error (.build sampleComplaint) := by decide +kernel
    exact Except.error.inj (hparse.symm.trans hcomplaint)
  | job hfetched _ => simp [Kind.job, Kind.provisioner] at hfetched

/-- The report of the failed pass has the complaint without the password. -/
theorem sample_report_is_clean :
    Labelling.handler ∈ handlers {} ∧
      (sampleProvisioner.require "metadata" >>= Identity.ofMeta) =
        .ok ⟨.text "default", .text "postgres"⟩ ∧
      sampleReport ∈ posted sampleCall.left ∧ sampleReport.warning = true ∧
      ∃ fault, Concerns sampleCall.heard sampleReconciliation.result "ReconcileFailed" fault ∧
        sampleReport.Clean fault := by
  have hhandler : Labelling.handler ∈ handlers {} := by simp [handlers]
  have hbody : (sampleProvisioner.require "metadata" >>= Identity.ofMeta) =
      .ok ⟨.text "default", .text "postgres"⟩ := rfl
  have he : sampleReport ∈ posted sampleCall.left := by
    rw [posted_sampleCall]
    exact List.mem_cons_of_mem _ List.mem_cons_self
  obtain ⟨fault, hconcerns, hclean⟩ :=
    warning_clean_iff {} hhandler (holding sampleProvisioner) () hbody 0 0 he rfl
  exact ⟨hhandler, hbody, he, rfl, fault, hconcerns, hclean.mpr (.inl rfl)⟩

/-- The warning about the descriptor has the password. -/
theorem not_cleanWarnings : ¬CleanWarnings {} := by
  intro hall
  let e := ClusterEvent.descriptorInvalid sampleProvisioner sampleComplaint
  have he : e ∈ posted sampleCall.left := by
    rw [posted_sampleCall]
    exact List.mem_cons_self
  obtain ⟨fault, hconcerns, hclean⟩ := hall Labelling.handler (by simp [handlers]) Unit
    (holding sampleProvisioner) () ⟨.text "default", .text "postgres"⟩ sampleProvisioner 0 0 rfl e he rfl
  -- the fault is pinned down by the reason of the event and by what was fetched
  have hfault : fault = .build sampleComplaint := by
    generalize hreason : e.reason = reason at hconcerns
    cases hconcerns with
    | raised hraised => exact raised_sampleCall hraised
    | failed _ => exact absurd hreason (by decide)
  rw [hfault] at hclean
  have hquoted : e.message ≠ wordingOf e.reason ++ (Fault.build sampleComplaint).sanitized := by
    decide +kernel
  exact hquoted hclean

end Warnings

end Reconciler
