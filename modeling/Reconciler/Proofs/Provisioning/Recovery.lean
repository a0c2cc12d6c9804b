import Reconciler.Proofs.Manifest
import Reconciler.Proofs.Provisioning.Jobs
import Reconciler.Proofs.Provisioning.Standing

/-! # Recovery of provisioning

Starting a request is two writes, its stage and then its job. A pass may be cut off between them, a write may
take effect and be reported as failed, and the job may be removed later. Whatever happened, the stage and
the conditions of the request can still be read (`Legible`), and that is all that the next pass needs of
the past: when nothing gets in its way, it does what is left to do.

Main definitions and statements:

* `Resumable`: a request that can be gone on with;
* `Resumes`: what one pass makes of it, in each stage and with or without a job;
* `Resumable.converge_comes`: every pass does that;
* `Recovers`: what this comes to for the request and its job;
* `provisioning_recovers`: so it is after any run;
* `not_alwaysRecovers`: unless the types of the conditions of the job cannot be compared.
-/

namespace Reconciler

open Cluster Manifest

namespace Provisioning

/-! ## Requests and provisioners -/

def jobOf (id : Identity) : Address := ⟨.text Kind.job, id.ns, id.name⟩

/-- A request that names its provisioner and that a job can be built for. -/
structure Provisionable (request name : Value) : Prop where
  wellFormed : WellFormed request
  provisioner : (request.field? "spec").bind (·.field? "provisioner") = some name
  given : name.truthy = true
  nameable : name.nameable = true
  initArgs : Value.ListOrNone ((request.field? "spec").bind (·.field? "initArgs"))

/-- A provisioner that a job can be built with. -/
structure Provisions (provisioner : Value) : Prop where
  object : ∃ kind, provisioner.field? "kind" = some kind
  spec : Value.ObjectOrNone (provisioner.field? "spec")
  env : Value.ListOrNone ((provisioner.field? "spec").bind (·.field? "env"))

/-- A job can be built for a request that names its provisioner. -/
theorem exists_provisioningJob {request name provisioner : Value} (h : Provisionable request name)
    (hprovisions : Provisions provisioner) :
    ∃ job, provisioningJob request provisioner = .ok job := by
  rcases hprovisions.object with ⟨_, hobject⟩
  rcases specOf_of_field? hobject hprovisions.spec with ⟨supply, hsupply, hsupplyFields⟩
  rcases h.wellFormed.specOf with ⟨spec, hspec, hspecFields⟩
  rcases h.wellFormed.address with ⟨a, haddr⟩
  rcases addressOf_eq_ok.mp haddr with ⟨metadata, hmeta, -, -, hname⟩
  have hnameOf : nameOf request = .ok a.name := nameOf_eq_ok.mpr ⟨metadata, hmeta, hname⟩
  rcases h.wellFormed.objectMeta a.name true with ⟨jobMeta, hjobMeta⟩
  rcases h.initArgs.read with ⟨initArgs, hinitArgs, -⟩
  rcases hprovisions.env.read with ⟨env, henv, -⟩
  rw [← hspecFields] at hinitArgs
  rw [← hsupplyFields] at henv
  -- everything that the builder reads is there
  simp only [provisioningJob, provisioningArgs, hsupply, hspec, hnameOf, hjobMeta, Value.fieldOrNull,
    Value.fieldOr, hinitArgs, henv, bind, Except.bind, pure, Except.pure]
  exact ⟨_, rfl⟩

/-! ## What one pass makes of a request -/

/-- A request entered a stage, and nothing else was changed. -/
def Entered (kind : String) (id : Identity) (stage : Stage) (c c' : Cluster) : Prop :=
  ∃ replaced, stageOf replaced = .ok stage ∧
    c' = (c.bumped.withObject (requestAt kind id) replaced).recorded "update_status" (requestAt kind id)

/-- The job of a request was created, and nothing else was changed. -/
def Launched (id : Identity) (manifest : Value) (c c' : Cluster) : Prop :=
  ∃ job, Completes manifest job ∧
    c' = (c.bumped.withObject (jobOf id) job).recorded "create" (jobOf id)

/-- What one pass over a request in some stage comes to when nothing gets in its way. -/
inductive Resumes (settings : Settings) (kind : String) (id : Identity) (request provisioner : Value)
    (c c' : Cluster) : Stage → Directive → Prop where
  /-- The request is started. -/
  | started {middle : Cluster} {manifest : Value} :
      c.find? (jobOf id) = none → provisioningJob request provisioner = .ok manifest →
      Entered kind id .creating c middle → Launched id manifest middle c' →
      Resumes settings kind id request provisioner c c' .unset .requeueNow
  /-- The request is started with a job that is there already. -/
  | adopted {job : Value} :
      c.find? (jobOf id) = some job → Entered kind id .creating c c' →
      Resumes settings kind id request provisioner c c' .unset .requeueNow
  /-- The job is missing, and made again. -/
  | restarted {manifest : Value} :
      c.find? (jobOf id) = none → provisioningJob request provisioner = .ok manifest →
      Launched id manifest c c' →
      Resumes settings kind id request provisioner c c' .creating .requeueNow
  /-- The job is not finished. -/
  | waited {job : Value} :
      c.find? (jobOf id) = some job → JobOutcome.ofJob job = .ok .running → c' = c →
      Resumes settings kind id request provisioner c c' .creating
        (.requeueAfter settings.pollInterval)
  /-- The job is finished, and so is the request. -/
  | finished {job : Value} {outcome : JobOutcome} :
      c.find? (jobOf id) = some job → JobOutcome.ofJob job = .ok outcome → outcome ≠ .running →
      Entered kind id outcome.stage c c' →
      Resumes settings kind id request provisioner c c' .creating .done
  /-- The request was finished before. -/
  | left {stage : Stage} :
      stage.isFinal = true → c' = c →
      Resumes settings kind id request provisioner c c' stage .done

/-- A cluster with a request that can be gone on with: its status is legible, its provisioner is there, and
its job, if it is there, can be judged. -/
structure Resumable (kind : String) (id : Identity) (stage : Stage) (request provisioner : Value)
    (c : Cluster) : Prop where
  stored : c.find? (requestAt kind id) = some request
  address : addressOf request = .ok (requestAt kind id)
  nameable : (requestAt kind id).nameable = true
  version : ∃ version, versionOf request = some (.text version)
  staged : stageOf request = .ok stage
  conditions : ∃ cs, conditionsOf request = .ok cs
  provisions : Provisions provisioner
  supplied : ∃ name, Provisionable request name ∧
    c.find? ⟨.text Kind.provisioner, id.ns, name⟩ = some provisioner
  job : ∀ job, c.find? (jobOf id) = some job → JobOutcome.Reports job ∧ JobOutcome.Comparable job

section Pass

variable {settings : Settings} {kind : String} {id : Identity} {stage : Stage}
variable {request provisioner : Value} {c c' : Cluster} {α : Type} {post : Cluster → α → Prop}

theorem nameable_requestAt :
    (requestAt kind id).nameable = true ↔ id.ns.nameable = true ∧ id.name.nameable = true := by
  simp [requestAt, Address.nameable]

theorem nameable_jobOf (h : (requestAt kind id).nameable = true) : (jobOf id).nameable = true := by
  rcases nameable_requestAt.mp h with ⟨hns, hname⟩
  simp [jobOf, Address.nameable, hns, hname]

/-- No request is in the place of its job. -/
theorem requestAt_ne_jobOf (hkind : kind ∈ requestKinds) : requestAt kind id ≠ jobOf id := by
  intro heq
  injection heq with hk
  obtain rfl : kind = Kind.job := by simpa using hk
  exact absurd hkind (by decide)

theorem Entered.find?_job (hkind : kind ∈ requestKinds) (h : Entered kind id stage c c') :
    c'.find? (jobOf id) = c.find? (jobOf id) := by
  rcases h with ⟨replaced, -, rfl⟩
  have hne : jobOf id ≠ requestAt kind id := (requestAt_ne_jobOf hkind).symm
  simp [find?_withObject, hne]

theorem Entered.stageAt (h : Entered kind id stage c c') :
    Provisioning.stageAt (requestAt kind id) c' = some stage := by
  rcases h with ⟨replaced, hstage, rfl⟩
  simp [Provisioning.stageAt, find?_withObject, hstage, Except.toOption]

theorem Launched.stageAt (hkind : kind ∈ requestKinds) {manifest : Value}
    (h : Launched id manifest c c') :
    Provisioning.stageAt (requestAt kind id) c' = Provisioning.stageAt (requestAt kind id) c := by
  rcases h with ⟨job, -, rfl⟩
  have hne : requestAt kind id ≠ jobOf id := requestAt_ne_jobOf hkind
  simp [Provisioning.stageAt, find?_withObject, hne]

theorem Moved.entered {cs : List Condition} (h : Moved kind id stage cs c c') :
    Entered kind id stage c c' := by
  rcases h with ⟨replaced, hstage, -, hafter⟩
  exact ⟨replaced, hstage, hafter⟩

/-- A request that can be gone on with has conditions that can be read. -/
theorem Resumable.standing (h : Resumable kind id stage request provisioner c) :
    ∃ cs, Standing kind id stage request cs c := by
  rcases h.conditions with ⟨cs, hcs⟩
  exact ⟨cs, h.stored, h.address, h.nameable, h.version, h.staged, hcs⟩

/-- A request enters a stage. -/
theorem Resumable.advance_comes {target : Stage} (h : Resumable kind id stage request provisioner c)
    (hmove : stage.canAdvanceTo target = true) (cs : List Condition) :
    Comes (fun c' _ => Entered kind id target c c') (advance kind request target (conditionList cs))
      c := by
  rcases h.standing with ⟨_, hstanding⟩
  refine (posts_iff_comes []).mp ((hstanding.advance_posts hmove cs).mono ?_)
  intro c' _ _ hposted
  exact hposted.1.entered

/-- A provisioner that is there is gone on with. -/
theorem Resumable.withProvisioner_comes {post : Cluster → Directive → Prop}
    {next : Value → Pass Directive} (h : Resumable kind id stage request provisioner c)
    (hnext : Comes post (next provisioner) c) :
    Comes post (withProvisioner kind request next) c := by
  rcases h.supplied with ⟨name, hrequest, hfind⟩
  rcases addressOf_eq_ok.mp h.address with ⟨metadata, hmeta, -, hns, -⟩
  rcases hrequest.wellFormed.specOf with ⟨spec, hspec, hfields⟩
  have hname : (Value.object spec).fieldOrNull "provisioner" = .ok name := by
    simp only [Value.fieldOrNull, Value.fieldOr, hfields, hrequest.provisioner, Option.getD_some]
  have hn : (⟨.text Kind.provisioner, id.ns, name⟩ : Address).nameable = true := by
    have hns := (nameable_requestAt.mp h.nameable).1
    simp [Address.nameable, hns, hrequest.nameable]
  unfold withProvisioner
  refine comes_outcome ?_
  -- the name is there and no empty one, so the provisioner is fetched and found
  unfold getProvisioner
  refine Pass.ensures_value (Value.require_eq_ok.mpr hmeta) ?_
  refine Pass.ensures_value hns ?_
  refine Pass.ensures_value hspec ?_
  refine Pass.ensures_value hname ?_
  rw [if_pos hrequest.given]
  exact comes_answered (get_of_find? hn hfind) (comes_pure hnext)

/-- The job of a request is created when there is none, and taken for its own when there is one. -/
theorem Resumable.createJob_comes (h : Resumable kind id stage request provisioner c)
    (middle : Cluster) :
    Comes (fun c' d => d = .requeueNow ∧
        (middle.find? (jobOf id) = none ∧ (∃ manifest,
            provisioningJob request provisioner = .ok manifest ∧ Launched id manifest middle c') ∨
          (∃ job, middle.find? (jobOf id) = some job) ∧ c' = middle))
      (createJob kind request provisioner) middle := by
  rcases h.supplied with ⟨name, hrequest, -⟩
  rcases addressOf_eq_ok.mp h.address with ⟨metadata, hmeta, -, -, hname⟩
  rcases exists_provisioningJob hrequest h.provisions with ⟨manifest, hmanifest⟩
  have haddr : addressOf manifest = .ok (jobOf id) :=
    (controllerOf_provisioningJob hmanifest h.address).1
  have hn := nameable_jobOf h.nameable
  unfold createJob
  refine Pass.ensures_value (Value.require_eq_ok.mpr hmeta) ?_
  refine Pass.ensures_value hmanifest ?_
  -- a job of that name may be there from an earlier attempt
  cases hfind : middle.find? (jobOf id) with
  | none =>
    rcases create_of_absent haddr hn hfind with ⟨job, -, -, hcompletes, hcreate⟩
    rcases h.provisions.object with ⟨_, hobject⟩
    rcases specOf_of_field? hobject h.provisions.spec with ⟨supply, hsupply, -⟩
    have hnameOf : nameOf request = .ok id.name := nameOf_eq_ok.mpr ⟨metadata, hmeta, hname⟩
    refine comes_answered hcreate ?_
    refine Pass.ensures_tell ?_
    refine Pass.ensures_value hnameOf ?_
    refine Pass.ensures_value hsupply ?_
    refine Pass.ensures_value rfl ?_
    refine comes_note hname ?_
    refine Pass.ensures_tell ?_
    exact comes_pure ⟨rfl, .inl ⟨rfl, manifest, hmanifest, job, hcompletes, rfl⟩⟩
  | some job =>
    refine comes_refused (create_of_present haddr hn (by simp [hfind])) ?_
    exact Pass.ensures_tell (comes_pure ⟨rfl, .inr ⟨⟨job, rfl⟩, rfl⟩⟩)

/-- A request without a stage is started. -/
theorem Resumable.start_comes (hkind : kind ∈ requestKinds)
    (h : Resumable kind id .unset request provisioner c) :
    Comes (fun c' d => Resumes settings kind id request provisioner c c' .unset d)
      (start kind request) c := by
  rcases h.conditions with ⟨cs, hcs⟩
  unfold start
  refine h.withProvisioner_comes ?_
  refine Pass.ensures_value hcs ?_
  refine Pass.ensures_now ?_
  intro now
  refine comes_bind ((h.advance_comes rfl _).mono ?_)
  intro middle _ hentered
  refine (h.createJob_comes middle).mono ?_
  rintro c' d ⟨rfl, ⟨hnone, manifest, hmanifest, hlaunched⟩ | ⟨⟨job, hjob⟩, rfl⟩⟩
  · rw [hentered.find?_job hkind] at hnone
    exact .started hnone hmanifest hentered hlaunched
  · rw [hentered.find?_job hkind] at hjob
    exact .adopted hjob hentered

/-- A request whose job completed is completed. -/
theorem Resumable.complete_comes {metadata name : Value} (hname : metadata.field? "name" = some name)
    (h : Resumable kind id .creating request provisioner c) :
    Comes (fun c' d => Entered kind id .ready c c' ∧ d = .done) (complete kind request metadata) c := by
  rcases h.conditions with ⟨cs, hcs⟩
  unfold complete
  refine Pass.ensures_value hcs ?_
  refine ensures_recordNow ?_
  intro now
  refine comes_bind ((h.advance_comes rfl _).mono ?_)
  intro c' _ hentered
  refine comes_note hname ?_
  refine Pass.ensures_value (Value.require_eq_ok.mpr hname) ?_
  exact Pass.ensures_tell (comes_pure ⟨hentered, rfl⟩)

/-- A request whose job failed fails. -/
theorem Resumable.fail_comes {metadata name job : Value}
    (hname : metadata.field? "name" = some name) (hreports : JobOutcome.Reports job)
    (h : Resumable kind id .creating request provisioner c) :
    Comes (fun c' d => Entered kind id .failed c c' ∧ d = .done) (fail kind request metadata job) c := by
  rcases h.conditions with ⟨cs, hcs⟩
  rcases JobOutcome.exists_failureReason hreports with ⟨reason, hreason⟩
  unfold fail
  refine Pass.ensures_value hcs ?_
  refine Pass.ensures_value (Value.require_eq_ok.mpr hname) ?_
  refine Pass.ensures_value hreason ?_
  refine ensures_recordNow ?_
  intro now
  refine ensures_recordNow ?_
  intro now'
  refine comes_bind ((h.advance_comes rfl _).mono ?_)
  intro c' _ hentered
  refine comes_note hname ?_
  exact Pass.ensures_tell (comes_pure ⟨hentered, rfl⟩)

/-- A request in `Creating` is judged by its job, or its job is made again. -/
theorem Resumable.observe_comes (hpoll : 0 < settings.pollInterval)
    (h : Resumable kind id .creating request provisioner c) :
    Comes (fun c' d => Resumes settings kind id request provisioner c c' .creating d)
      (observe settings kind request) c := by
  rcases addressOf_eq_ok.mp h.address with ⟨metadata, hmeta, -, hns, hname⟩
  have hn := nameable_jobOf h.nameable
  unfold observe
  refine Pass.ensures_value (Value.require_eq_ok.mpr hmeta) ?_
  refine Pass.ensures_value hns ?_
  refine Pass.ensures_value (Value.require_eq_ok.mpr hname) ?_
  -- the job may never have been created, or may be gone
  cases hfind : c.find? (jobOf id) with
  | none =>
    refine comes_refused (get_of_absent hn hfind) ?_
    refine comes_note hname ?_
    refine h.withProvisioner_comes ?_
    refine (h.createJob_comes c).mono ?_
    rintro c' d ⟨rfl, ⟨-, manifest, hmanifest, hlaunched⟩ | ⟨⟨job, hjob⟩, -⟩⟩
    · exact .restarted hfind hmanifest hlaunched
    · rw [hfind] at hjob
      cases hjob
  | some job =>
    -- the job can be judged, and decides between waiting and finishing
    rcases h.job job hfind with ⟨hreports, hcomparable⟩
    rcases JobOutcome.exists_ofJob hreports hcomparable with ⟨outcome, houtcome⟩
    refine comes_answered (get_of_find? hn hfind) ?_
    refine Pass.ensures_value houtcome ?_
    cases outcome with
    | running =>
      refine (Pass.ensures_liftRead _ _).mpr ?_
      rw [Directive.after_of_pos hpoll]
      exact ⟨_, rfl, .waited hfind houtcome rfl⟩
    | complete =>
      refine (h.complete_comes hname).mono ?_
      rintro c' d ⟨hentered, rfl⟩
      exact .finished hfind houtcome (by decide) hentered
    | failed =>
      refine (h.fail_comes hname hreports).mono ?_
      rintro c' d ⟨hentered, rfl⟩
      exact .finished hfind houtcome (by decide) hentered

/-- A pass over a request that can be gone on with succeeds, and does what is left to do. -/
theorem Resumable.converge_comes (hkind : kind ∈ requestKinds) (hpoll : 0 < settings.pollInterval)
    (h : Resumable kind id stage request provisioner c) :
    Comes (fun c' d => Resumes settings kind id request provisioner c c' stage d)
      (converge settings kind id) c := by
  rcases h.standing with ⟨cs, hstanding⟩
  refine hstanding.converge_ensures ?_
  cases stage with
  | unset => exact h.start_comes hkind
  | creating => exact h.observe_comes hpoll
  | ready => exact comes_pure (.left rfl rfl)
  | failed => exact comes_pure (.left rfl rfl)

end Pass

/-! ## After any run -/

/-- One pass over a request, from its first question to its directive, when nothing gets in its way. -/
def Undisturbed (settings settings' : Settings) (kind : String) (id : Identity) (c : Cluster)
    (d : Directive) (c' : Cluster) : Prop :=
  Program.Leads (facing reliable) ((handler settings kind).reconcile settings' id) c (.done d) c'

/-- What is expected of the next pass over a request in some stage: it comes to its end, and not by a
failure; a request without a job gets one, and one with a job goes where the job has got to. -/
structure Recovers (settings settings' : Settings) (kind : String) (id : Identity)
    (request provisioner : Value) (c : Cluster) (stage : Stage) : Prop where
  ends : ∃ d c', Undisturbed settings settings' kind id c d c'
  succeeds : ∀ r c', Program.Leads (facing reliable) (converge settings kind id).run c (.done r) c' →
    ∃ d, r = .ok d
  starts : stage = .unset ∨ stage = .creating ∧ c.find? (jobOf id) = none →
    ∀ d c', Undisturbed settings settings' kind id c d c' →
      d = .requeueNow ∧ stageAt (requestAt kind id) c' = some .creating ∧
      (∀ job, c.find? (jobOf id) = some job → c'.find? (jobOf id) = some job) ∧
      (c.find? (jobOf id) = none → ∃ manifest job,
        provisioningJob request provisioner = .ok manifest ∧ Completes manifest job ∧
          c'.find? (jobOf id) = some job)
  judged : stage = .creating → ∀ job, c.find? (jobOf id) = some job →
    ∃ outcome, JobOutcome.ofJob job = .ok outcome ∧
      ∀ d c', Undisturbed settings settings' kind id c d c' →
        (outcome = .running → d = .requeueAfter settings.pollInterval ∧ c' = c) ∧
        (outcome ≠ .running → d = .done ∧ stageAt (requestAt kind id) c' = some outcome.stage ∧
          c'.find? (jobOf id) = some job)
  rests : stage.isFinal = true → ∀ d c', Undisturbed settings settings' kind id c d c' →
    d = .done ∧ c' = c

section Runs

variable {settings : Settings} {kind : String} {id : Identity} {stage : Stage}
variable {request provisioner : Value} {c : Cluster}

theorem Resumable.undisturbed (hkind : kind ∈ requestKinds) (hpoll : 0 < settings.pollInterval)
    (h : Resumable kind id stage request provisioner c) {settings' : Settings} {d : Directive}
    {c' : Cluster} (hrun : Undisturbed settings settings' kind id c d c') :
    Resumes settings kind id request provisioner c c' stage d := by
  have hensures := Comes.reconcile (h := handler settings kind) settings' (h.converge_comes hkind hpoll)
  exact hensures.of_leads hrun

/-- A request that can be gone on with recovers. -/
theorem Resumable.recovers (hkind : kind ∈ requestKinds) (hpoll : 0 < settings.pollInterval)
    (h : Resumable kind id stage request provisioner c) (settings' : Settings) :
    Recovers settings settings' kind id request provisioner c stage := by
  constructor
  case ends =>
    exact Program.exists_leads_done (fun c op => ⟨_, _, c.facing_answered op⟩) _ c
  case succeeds =>
    intro r c' hrun
    rcases Program.Ensures.of_leads (h.converge_comes hkind hpoll) hrun with ⟨d, hd, -⟩
    exact ⟨d, hd⟩
  case starts =>
    -- a request without a stage and one whose job is gone have their job by the end of the pass
    intro hstarts d c' hrun
    cases h.undisturbed hkind hpoll hrun with
    | started hnone hmanifest hentered hlaunched =>
      have hstage := (hlaunched.stageAt hkind).trans hentered.stageAt
      rcases hlaunched with ⟨job, hcompletes, rfl⟩
      refine ⟨rfl, hstage, ?_, fun _ => ⟨_, job, hmanifest, hcompletes, by simp [find?_withObject]⟩⟩
      intro other hother
      rw [hnone] at hother
      cases hother
    | adopted hjob hentered =>
      refine ⟨rfl, hentered.stageAt, ?_, ?_⟩
      · intro other hother
        rw [hentered.find?_job hkind, hother]
      · intro hnone
        rw [hnone] at hjob
        cases hjob
    | restarted hnone hmanifest hlaunched =>
      have hcreating : stageAt (requestAt kind id) c = some .creating := by
        simp [stageAt, h.stored, h.staged, Except.toOption]
      have hstage := (hlaunched.stageAt hkind).trans hcreating
      rcases hlaunched with ⟨job, hcompletes, rfl⟩
      refine ⟨rfl, hstage, ?_, fun _ => ⟨_, job, hmanifest, hcompletes, by simp [find?_withObject]⟩⟩
      intro other hother
      rw [hnone] at hother
      cases hother
    | waited hjob _ _ | finished hjob _ _ _ =>
      rcases hstarts with hunset | ⟨-, hnone⟩
      · cases hunset
      · rw [hnone] at hjob
        cases hjob
    | left hfinal _ =>
      rcases hstarts with rfl | ⟨rfl, -⟩
      · cases hfinal
      · cases hfinal
  case judged =>
    rintro rfl job hjob
    -- in `Creating` with a job, the outcome of the job decides
    rcases h.job job hjob with ⟨hreports, hcomparable⟩
    rcases JobOutcome.exists_ofJob hreports hcomparable with ⟨outcome, houtcome⟩
    refine ⟨outcome, houtcome, ?_⟩
    intro d c' hrun
    cases h.undisturbed hkind hpoll hrun with
    | restarted hnone _ _ =>
      rw [hnone] at hjob
      cases hjob
    | waited hother hrunning hsame =>
      obtain rfl := Option.some.inj (hother.symm.trans hjob)
      obtain rfl := Except.ok.inj (hrunning.symm.trans houtcome)
      exact ⟨fun _ => ⟨rfl, hsame⟩, fun hne => absurd rfl hne⟩
    | finished hother hfinished hne hentered =>
      obtain rfl := Option.some.inj (hother.symm.trans hjob)
      obtain rfl := Except.ok.inj (hfinished.symm.trans houtcome)
      refine ⟨fun hrunning => absurd hrunning hne, fun _ => ⟨rfl, hentered.stageAt, ?_⟩⟩
      rw [hentered.find?_job hkind, hjob]
    | left hfinal _ => cases hfinal
  case rests =>
    -- a finished request is left alone
    intro hfinal d c' hrun
    cases h.undisturbed hkind hpoll hrun with
    | left _ hsame => exact ⟨rfl, hsame⟩
    | started | adopted | restarted | waited | finished => cases hfinal

/-- Whatever passes were cut off, whatever calls failed, with or without having taken effect, and whatever
others did: when a request is found well formed, with a provisioner that is there and a job that is
missing or can be judged, the next pass that nothing gets in the way of does what is left to do. -/
theorem provisioning_recovers {first name : Value} {stage₀ : Stage} {cs₀ : List Condition}
    {states : List System} {s : System} (hkind : kind ∈ requestKinds)
    (hfirst : c.find? (requestAt kind id) = some first)
    (haddr : addressOf first = .ok (requestAt kind id)) (hversion : Versioned c first)
    (hstage : stageOf first = .ok stage₀) (hconditions : conditionsOf first = .ok cs₀)
    (hrun : System.Run (System.Step (PassOver kind id) (Edits (requestAt kind id))) (System.idle c)
      states) (hs : s ∈ states)
    (hstored : s.cluster.find? (requestAt kind id) = some request)
    (hnameable : (requestAt kind id).nameable = true) (hrequest : Provisionable request name)
    (hprovisioner : s.cluster.find? ⟨.text Kind.provisioner, id.ns, name⟩ = some provisioner)
    (hprovisions : Provisions provisioner)
    (hjob : ∀ job, s.cluster.find? (jobOf id) = some job →
      JobOutcome.Reports job ∧ JobOutcome.Comparable job)
    (settings' : Settings) (hpoll : 0 < settings.pollInterval) :
    ∃ stage, stageOf request = .ok stage ∧
      Recovers settings settings' kind id request provisioner s.cluster stage := by
  have hidle := legible_idle hfirst haddr hversion hstage hconditions
  -- at every moment the stage and the conditions of the stored request can be read
  rcases hidle.run hkind hrun s hs with ⟨stage, cs, hlegible⟩
  rcases hlegible.staged.stored with ⟨request', hstored', hstage', hself, -⟩
  obtain rfl : request = request' := Option.some.inj (hstored.symm.trans hstored')
  rcases hlegible.conditions with ⟨request', hstored', hcs⟩
  obtain rfl : request = request' := Option.some.inj (hstored.symm.trans hstored')
  rcases hself.versioned with ⟨n, -, hn⟩
  have hresumable : Resumable kind id stage request provisioner s.cluster :=
    { stored := hstored
      address := hself.address
      nameable := hnameable
      version := ⟨_, hn⟩
      staged := hstage'
      conditions := ⟨cs, hcs⟩
      provisions := hprovisions
      supplied := ⟨name, hrequest, hprovisioner⟩
      job := hjob }
  exact ⟨stage, hstage', hresumable.recovers hkind hpoll settings'⟩

end Runs

/-! ### A pass that is cut off -/

def startedRequest : Value :=
  .object [("apiVersion", .text apiGroupVersion), ("kind", .text Kind.resource),
    ("metadata", .object [("name", .text "db"), ("namespace", .text "default"),
      ("uid", .text "uid-StarlaneResource"), ("resourceVersion", .text "3")]),
    ("spec", .object [("provisioner", .text "postgres")]),
    ("status", .object [("lifecycleStage", .text "Creating"), ("conditions", .list []),
      ("observedGeneration", .integer 0)])]

def storedProvisioner : Value :=
  .object [("apiVersion", .text apiGroupVersion), ("kind", .text Kind.provisioner),
    ("metadata", .object [("name", .text "postgres"), ("namespace", .text "default"),
      ("uid", .text "uid-postgres"), ("resourceVersion", .text "1")]),
    ("spec", .object [("image", .text "postgres-provisioner")])]

theorem provisionable_startedRequest : Provisionable startedRequest (.text "postgres") :=
  { wellFormed := ⟨⟨_, rfl⟩, ⟨_, rfl⟩, .inr (.inr ⟨_, rfl⟩)⟩
    provisioner := rfl
    given := rfl
    nameable := rfl
    initArgs := .inl rfl }

theorem provisions_storedProvisioner : Provisions storedProvisioner :=
  ⟨⟨_, rfl⟩, .inr (.inr ⟨_, rfl⟩), .inl rfl⟩

/-- The request for a database is stored as it was started, and its provisioner is there. -/
def Started (c : Cluster) : Prop :=
  c.find? (requestAt Kind.resource sampleId) = some startedRequest ∧
    c.find? ⟨.text Kind.provisioner, .text "default", .text "postgres"⟩ = some storedProvisioner

instance (c : Cluster) : Decidable (Started c) :=
  inferInstanceAs (Decidable (_ ∧ _))

/-- After seven answers the stage is stored, and the job is not created yet. -/
theorem cut_off_start :
    ∃ s ∈ (sampleTurns 7 (sampleCluster Kind.resource) [id]).head?,
      Started s.cluster ∧ s.cluster.find? (jobOf sampleId) = none := by
  decide +kernel

theorem cut_off_start_recovers :
    stageOf startedRequest = .ok .creating ∧
    ∃ s ∈ sampleTurns 7 (sampleCluster Kind.resource) [id],
      Started s.cluster ∧ s.cluster.find? (jobOf sampleId) = none ∧
      Recovers {} {} Kind.resource sampleId startedRequest storedProvisioner s.cluster .creating := by
  have hcreating : stageOf startedRequest = .ok .creating := rfl
  rcases cut_off_start with ⟨s, hhead, ⟨hstored, hprovisioner⟩, hjob⟩
  have hmem := List.mem_of_mem_head? hhead
  have hchanges : ∀ change ∈ [id], ∀ c, Edits (requestAt Kind.resource sampleId) c (change c) := by
    simp [edits_refl]
  have hpoll : 0 < ({} : Settings).pollInterval := by decide
  -- the pass was cut off between entering the stage and creating the job
  obtain ⟨stage, hstage, hrecovers⟩ := provisioning_recovers (by decide) rfl rfl ⟨2, by decide, rfl⟩
    rfl rfl (run_sampleTurns (sampleCluster Kind.resource) hchanges) hmem hstored rfl
    provisionable_startedRequest hprovisioner provisions_storedProvisioner (by simp [hjob]) {}
    hpoll
  obtain rfl : stage = .creating := Except.ok.inj (hstage.symm.trans hcreating)
  exact ⟨hcreating, s, hmem, ⟨hstored, hprovisioner⟩, hjob, hrecovers⟩

/-! ### A condition with a strange type -/

/-- Whatever others do between the passes over the request for a database, the next pass does not fail, as
long as the conditions of the job are objects. -/
def AlwaysRecovers (c : Cluster) : Prop :=
  ∀ changes : List (Cluster → Cluster),
    (∀ change ∈ changes, ∀ c, Edits (requestAt Kind.resource sampleId) c (change c)) →
    ∀ s ∈ sampleTurns 30 c changes, ∀ request name provisioner,
      s.cluster.find? (requestAt Kind.resource sampleId) = some request →
      Provisionable request name →
      s.cluster.find? ⟨.text Kind.provisioner, sampleId.ns, name⟩ = some provisioner →
      Provisions provisioner →
      (∀ job, s.cluster.find? (jobOf sampleId) = some job → JobOutcome.Reports job) →
      ∀ d c', Undisturbed {} {} Kind.resource sampleId s.cluster d c' → ∀ f, d ≠ .failed f

def strangeCondition : Fields :=
  [("type", .list [.text "Complete"]), ("status", .text "True")]

def strangeStatus : Value :=
  .object [("conditions", .list [.object strangeCondition])]

/-- The job of the requests for a database gets that status. -/
def confuseSampleJob : Cluster → Cluster :=
  edited (jobOf sampleId) (·.setField "status" strangeStatus)

theorem confused :
    ∃ s ∈ (sampleTurns 30 (sampleCluster Kind.resource) [id, confuseSampleJob]).head?,
      Started s.cluster ∧
      (s.cluster.find? (jobOf sampleId)).map (fun job => (job.field? "kind", job.field? "status")) =
        some (some (.text Kind.job), some strangeStatus) ∧
      (((handler {} Kind.resource).reconcile {} sampleId).run reliably s.cluster).1 =
        .failed (some ⟨.wrongShape, none⟩) := by
  decide +kernel

/-- A pass over a request fails when its job has a condition whose type is a list. -/
theorem not_alwaysRecovers : ¬ AlwaysRecovers (sampleCluster Kind.resource) := by
  intro hrecovers
  have hchanges : ∀ change ∈ [id, confuseSampleJob], ∀ c,
      Edits (requestAt Kind.resource sampleId) c (change c) := by
    simp only [List.forall_mem_cons]
    exact ⟨edits_refl, edits_edited (by decide) _, by simp⟩
  rcases confused with ⟨s, hhead, ⟨hstored, hprovisioner⟩, hjob, hfailed⟩
  -- the job lists its condition as an object, so its report is well formed, and only its type is strange
  have hreports : ∀ job, s.cluster.find? (jobOf sampleId) = some job → JobOutcome.Reports job := by
    intro job hfound
    simp only [hfound, Option.map_some, Option.some.injEq, Prod.mk.injEq] at hjob
    rcases hjob with ⟨hkind, hstatus⟩
    have hpart : JobOutcome.conditionsPart job = some (.list [.object strangeCondition]) := by
      rw [JobOutcome.conditionsPart, hstatus]
      rfl
    refine ⟨⟨_, hkind⟩, .inr (.inr ⟨_, hstatus⟩), .inr (.inr ⟨_, hpart⟩), ?_⟩
    intro items hitems item hitem
    obtain rfl : [.object strangeCondition] = items := by
      simpa using hpart.symm.trans hitems
    exact ⟨_, List.mem_singleton.mp hitem⟩
  have hrun : Undisturbed {} {} Kind.resource sampleId s.cluster _ _ :=
    Program.leads_run facing_reliably _ s.cluster
  exact hrecovers _ hchanges s (List.mem_of_mem_head? hhead) startedRequest _ storedProvisioner
    hstored provisionable_startedRequest hprovisioner provisions_storedProvisioner
    hreports _ _ hrun _ hfailed

end Provisioning

end Reconciler
