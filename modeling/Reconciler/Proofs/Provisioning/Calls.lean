import Reconciler.Handler.Provisioning
import Reconciler.Proofs.History
import Reconciler.Proofs.Cluster
import Reconciler.Proofs.Reads

/-! # The calls of a provisioning pass

Everything a pass over a request may ask of the store, whatever it is answered: one read of the request,
reads of other kinds, the job of the request, and four ways of writing its status, each with what must
have been read before.

* `MayAsk`: the permitted calls;
* `converge_asks`, `reconcile_asks`: a pass makes no others.
-/

namespace Reconciler

def requestKinds : List String := [Kind.resource, Kind.provisioningJob]

namespace Provisioning

def requestAt (kind : String) (id : Identity) : Address := ⟨.text kind, id.ns, id.name⟩

def stageOf (request : Value) : Except Fault Stage := do
  Stage.ofStatus (← request.fieldOrNull "status")

/-- Where a request looks for its job. -/
def jobAt (request : Value) : Except Fault Address := do
  let metadata ← request.require "metadata"
  let ns ← metadata.fieldOr "namespace" (.text "default")
  let name ← metadata.require "name"
  return ⟨.text Kind.job, ns, name⟩

/-- Where a request looks for its provisioner. -/
def provisionerAt (request : Value) : Except Fault Address := do
  let ns ← (← request.require "metadata").fieldOr "namespace" (.text "default")
  let name ← (← Manifest.specOf request).fieldOrNull "provisioner"
  return ⟨.text Kind.provisioner, ns, name⟩

/-- A fetch from an address was answered with the report that something is missing. -/
def ToldMissing (h : History) (a : Address) : Prop :=
  ∃ f : Failure, (.get a.kind a.ns a.name, .error f) ∈ h ∧
    (f.belongsTo .notFound = true ∨ f.belongsTo .dependencyMissing = true)

/-- A pass over a request was told that the provisioner is missing, and in `Creating` that the job is. -/
structure Bereft (h : History) (request : Value) (stage : Stage) : Prop where
  provisioner : ∃ a, provisionerAt request = .ok a ∧ ToldMissing h a
  job : stage = .creating → ∃ a, jobAt request = .ok a ∧ ToldMissing h a

/-- What a history was told, a longer one was told too. -/
theorem ToldMissing.mono {h h' : History} {a : Address} (htold : ToldMissing h a)
    (hsub : ∀ e ∈ h, e ∈ h') : ToldMissing h' a := by
  rcases htold with ⟨f, hmem, hf⟩
  exact ⟨f, hsub _ hmem, hf⟩

/-- A job that was found where a request looks for it. -/
def JobRead (h : History) (request job : Value) : Prop :=
  ∃ a, jobAt request = .ok a ∧ h.reads a = [job]

/-- The status a pass may store, after it read a request and perhaps its job. -/
inductive StatusWrite (h : History) (request : Value) : Value → Prop where
  /-- The provisioner is waited for. -/
  | waiting {stage : Stage} {conditions : List Condition} {name : Value} {now : Instant}
      {o : Value} :
      stageOf request = .ok stage → stage.isFinal = false → Bereft h request stage →
      conditionsOf request = .ok conditions →
      withStatus request [("conditions", conditionList (Condition.record (Condition.provisionerMissing
        (.text s!"Waiting for provisioner {name.shown}") .null) (.text (Instant.shown now))
        conditions))] = .ok o →
      StatusWrite h request o
  /-- The request is started. -/
  | starting {conditions : List Condition} {now : Instant} {o : Value} :
      stageOf request = .ok .unset → conditionsOf request = .ok conditions →
      advanced request .creating (conditionList
        (Condition.clearProvisionerMissing .null (.text (Instant.shown now)) conditions)) =
        .ok (.unset, o) →
      StatusWrite h request o
  /-- The job was found completed. -/
  | completing {job : Value} {conditions : List Condition} {now : Instant} {o : Value} :
      stageOf request = .ok .creating → JobRead h request job →
      JobOutcome.ofJob job = .ok .complete → conditionsOf request = .ok conditions →
      advanced request .ready (conditionList (Condition.record
        (Condition.ready true (.text "Provisioning job completed") .null)
        (.text (Instant.shown now)) conditions)) = .ok (.creating, o) →
      StatusWrite h request o
  /-- The job was found failed. -/
  | failing {job message : Value} {conditions : List Condition} {now now' : Instant} {o : Value} :
      stageOf request = .ok .creating → JobRead h request job →
      JobOutcome.ofJob job = .ok .failed → conditionsOf request = .ok conditions →
      advanced request .failed (conditionList (Condition.record
        (Condition.ready false message .null) (.text (Instant.shown now'))
        (Condition.record (Condition.jobFailed message .null) (.text (Instant.shown now))
          conditions))) = .ok (.creating, o) →
      StatusWrite h request o

/-- The calls a pass over a request may make. -/
inductive MayAsk (kind : String) (id : Identity) (h : History) : StoreCall → Prop where
  /-- The request is read, once and first. -/
  | request : h = [] → MayAsk kind id h (.get (.text kind) id.ns id.name)
  /-- Jobs and provisioners are read; a job only in `Creating`. -/
  | other {k : String} {ns name : Value} : k ≠ kind → MayAsk kind id h (.get (.text k) ns name)
  /-- The job of the request is created. -/
  | job {request provisioner job : Value} {stage : Stage} :
      h.reads (requestAt kind id) = [request] → stageOf request = .ok stage →
      stage.isFinal = false → Manifest.provisioningJob request provisioner = .ok job →
      MayAsk kind id h (.create job)
  /-- The status of the request is written. -/
  | status {request o : Value} :
      h.reads (requestAt kind id) = [request] → StatusWrite h request o →
      MayAsk kind id h (.updateStatus o)

/-! ## Line by line -/

section Passes

variable {settings : Settings} {kind : String} {id : Identity} {request : Value} {h : History}
variable {α : Type}

/-- What is asked of a pass: that it makes permitted calls only. -/
abbrev Asks (kind : String) (id : Identity) (p : Pass α) (h : History) : Prop :=
  Pass.Ensures noted (MayAsk kind id) (fun _ _ => True) p h

/-- What is known of a history after the provisioner was looked for: nothing of other kinds was read since,
and if it was missing, that was told. -/
structure SoughtProvisioner (h : History) (request : Value) (h' : History)
    (r : Except Failure Value) : Prop where
  reads : ∀ a : Address, a.kind ≠ .text Kind.provisioner → h'.reads a = h.reads a
  kept : ∀ e ∈ h, e ∈ h'
  told : ∀ f, r = .error f → f.belongsTo .dependencyMissing = true →
    ∃ a, provisionerAt request = .ok a ∧ ToldMissing h' a

/-- A failure of a read does not say that the provisioner is missing. -/
theorem SoughtProvisioner.of_read {α : Type} {read : Except Fault α} (hread : Classless read)
    {f : Fault} (hf : read = .error f) :
    SoughtProvisioner h request h (.error ⟨f, none⟩) := by
  refine ⟨fun _ _ => rfl, fun _ he => he, ?_⟩
  rintro _ ⟨⟩ hdependency
  simp [Failure.belongsTo, Fault.belongsTo_of_classless (hread.of_error hf)] at hdependency

/-- Looking for the provisioner is one fetch at most. -/
theorem getProvisioner_ensures {post : History → Except Failure Value → Prop}
    (hkind : kind ∈ requestKinds)
    (hpost : ∀ h' r, SoughtProvisioner h request h' r → post h' r) :
    Pass.Ensures noted (MayAsk kind id) post (getProvisioner request) h := by
  have hne : Kind.provisioner ≠ kind := by
    rintro rfl
    exact absurd hkind (by decide)
  unfold getProvisioner
  refine Pass.ensures_read (fun metadata hmeta => ?_)
    (fun f hf => hpost _ _ (.of_read (request.classless_require _) hf))
  refine Pass.ensures_read (fun ns hns => ?_)
    (fun f hf => hpost _ _ (.of_read (metadata.classless_fieldOr _ _) hf))
  refine Pass.ensures_read (fun spec hspec => ?_)
    (fun f hf => hpost _ _ (.of_read (Manifest.classless_specOf request) hf))
  refine Pass.ensures_read (fun name hname => ?_)
    (fun f hf => hpost _ _ (.of_read (spec.classless_fieldOrNull _) hf))
  have haddr : provisionerAt request = .ok ⟨.text Kind.provisioner, ns, name⟩ := by
    simp [provisionerAt, hmeta, hns, hspec, hname, bind, Except.bind, pure, Except.pure]
  split
  · refine Pass.ensures_attempt (.other hne) ?_
    rintro reply h' rfl
    -- the provisioner is read from another address than anything else
    have hreads : ∀ a : Address, a.kind ≠ .text Kind.provisioner →
        History.reads a (h ++ [(.get (.text Kind.provisioner) ns name, reply)]) = h.reads a := by
      intro a ha
      refine History.reads_append_get_of_ne ?_
      rintro rfl
      exact ha rfl
    have hkept : ∀ e ∈ h, e ∈ h ++ [(.get (.text Kind.provisioner) ns name, reply)] :=
      fun e he => List.mem_append_left _ he
    -- found, or told missing, or not told at all
    cases reply with
    | ok provisioner =>
      refine hpost _ _ ⟨hreads, hkept, ?_⟩
      rintro _ ⟨⟩
    | error f =>
      have htold : (f.belongsTo .notFound = true ∨ f.belongsTo .dependencyMissing = true) →
          ∃ a, provisionerAt request = .ok a ∧
            ToldMissing (h ++ [(.get (.text Kind.provisioner) ns name, .error f)]) a := fun hf =>
        ⟨_, haddr, f, by simp, hf⟩
      dsimp only
      split
      case isTrue hf => exact hpost _ _ ⟨hreads, hkept, fun _ _ _ => htold (.inl hf)⟩
      case isFalse =>
        refine hpost _ _ ⟨hreads, hkept, ?_⟩
        rintro _ ⟨⟩ hdependency
        exact htold (.inr hdependency)
  · refine hpost _ _ ⟨fun _ _ => rfl, fun _ he => he, ?_⟩
    rintro _ ⟨⟩ hdependency
    exact absurd hdependency (by decide)

theorem ensures_recordNow {σ : Type} {answers : Answering σ} {may : σ → StoreCall → Prop} {s : σ}
    {post : σ → Except Failure α → Prop} {r : Condition.Report} {conditions : List Condition}
    {k : List Condition → Pass α}
    (hnext : ∀ now, Pass.Ensures answers may post
      (k (Condition.record r (.text (Instant.shown now)) conditions)) s) :
    Pass.Ensures answers may post (liftM (recordNow r conditions) >>= k) s := by
  rw [Pass.ensures_bind, Pass.ensures_liftSafe, recordNow, SafePass.ensures_bind,
    SafePass.ensures_instant]
  exact hnext

/-- Recording that the provisioner is missing writes nothing but that. -/
theorem recordMissing_ensures {post : History → Except Failure Unit → Prop} {stage : Stage}
    {name : Value} (hread : h.reads (requestAt kind id) = [request])
    (hstage : stageOf request = .ok stage) (hopen : stage.isFinal = false)
    (hbereft : Bereft h request stage) (hpost : ∀ h' r, post h' r) :
    Pass.Ensures noted (MayAsk kind id) post (recordMissing kind request name) h := by
  unfold recordMissing
  refine Pass.ensures_read (fun conditions hconditions => ?_) (fun _ _ => hpost _ _)
  refine Pass.ensures_read (fun metadata _ => ?_) (fun _ _ => hpost _ _)
  refine Pass.ensures_note ?_ (fun _ _ => hpost _ _)
  split
  · exact hpost _ _
  · refine ensures_recordNow ?_
    intro now
    refine Pass.ensures_read (fun changed hchanged => ?_) (fun _ _ => hpost _ _)
    refine Pass.ensures_must ?_ (fun _ _ _ => hpost _ _) (fun _ _ _ => hpost _ _)
    exact .status hread (.waiting hstage hopen hbereft hconditions hchanged)

/-- While the provisioner is missing nothing else is written. -/
theorem withProvisioner_asks {stage : Stage} {next : Value → Pass Directive}
    (hkind : kind ∈ requestKinds) (hread : h.reads (requestAt kind id) = [request])
    (hstage : stageOf request = .ok stage) (hopen : stage.isFinal = false)
    (hjob : stage = .creating → ∃ a, jobAt request = .ok a ∧ ToldMissing h a)
    (hnext : ∀ provisioner h', h'.reads (requestAt kind id) = [request] →
      Asks kind id (next provisioner) h') :
    Asks kind id (withProvisioner kind request next) h := by
  have hne : (requestAt kind id).kind ≠ .text Kind.provisioner := by
    intro heq
    obtain rfl : kind = Kind.provisioner := by simpa [requestAt] using heq
    exact absurd hkind (by decide)
  unfold withProvisioner
  rw [Asks, Pass.ensures_bind, Pass.ensures_outcome]
  refine getProvisioner_ensures hkind ?_
  intro h' r hsought
  have hread' : h'.reads (requestAt kind id) = [request] := (hsought.reads _ hne).trans hread
  cases r with
  | ok provisioner => exact hnext provisioner h' hread'
  | error f =>
    simp only [Pass.andThen]
    split
    · next hfault =>
      have hdependency : f.belongsTo .dependencyMissing = true := by
        rw [Failure.belongsTo, hfault]
        rfl
      have hbereft : Bereft h' request stage := by
        refine ⟨hsought.told f rfl hdependency, ?_⟩
        intro hcreating
        rcases hjob hcreating with ⟨a, ha, htold⟩
        exact ⟨a, ha, htold.mono hsought.kept⟩
      rw [Pass.ensures_bind]
      refine recordMissing_ensures hread' hstage hopen hbereft ?_
      -- the pass ends here, waiting for the provisioner
      rintro h'' (f | u) <;> trivial
    · trivial

/-- A job is only created for the request that was read. -/
theorem createJob_asks {stage : Stage} {provisioner : Value}
    (hread : h.reads (requestAt kind id) = [request]) (hstage : stageOf request = .ok stage)
    (hopen : stage.isFinal = false) : Asks kind id (createJob kind request provisioner) h := by
  unfold createJob
  refine Pass.ensures_read (fun metadata _ => ?_) (fun _ _ => trivial)
  refine Pass.ensures_read (fun job hjob => ?_) (fun _ _ => trivial)
  -- the name being taken is no failure, since the job is then there already
  refine Pass.ensures_attempt (.job hread hstage hopen hjob) ?_
  rintro (f | created) h' -
  · dsimp only
    split
    · exact Pass.ensures_tell trivial
    · trivial
  · refine Pass.ensures_tell ?_
    refine Pass.ensures_read (fun name _ => ?_) (fun _ _ => trivial)
    refine Pass.ensures_read (fun spec _ => ?_) (fun _ _ => trivial)
    refine Pass.ensures_read (fun image _ => ?_) (fun _ _ => trivial)
    refine Pass.ensures_note ?_ (fun _ _ => trivial)
    exact Pass.ensures_tell trivial

/-- Entering a stage is one write, and reads nothing. -/
theorem advance_ensures {post : History → Except Failure Unit → Prop} {target : Stage}
    {conditions : Value}
    (hmay : ∀ current o, advanced request target conditions = .ok (current, o) →
      MayAsk kind id h (.updateStatus o))
    (hpost : ∀ h' r, (∀ a, h'.reads a = h.reads a) → post h' r) :
    Pass.Ensures noted (MayAsk kind id) post (advance kind request target conditions) h := by
  unfold advance
  refine Pass.ensures_read (fun moved hmoved => ?_) (fun _ _ => hpost _ _ fun _ => rfl)
  rcases moved with ⟨current, changed⟩
  have hwrite : ∀ a reply, History.reads a (h ++ [(.updateStatus changed, reply)]) = h.reads a :=
    fun a reply => History.reads_append_write rfl
  refine Pass.ensures_must (hmay current changed hmoved) ?_ ?_
  · rintro v h' rfl
    refine Pass.ensures_tell ?_
    refine Pass.ensures_read (fun metadata _ => ?_) (fun _ _ => hpost _ _ fun a => hwrite a _)
    rw [Pass.ensures_log]
    exact hpost _ _ fun a => hwrite a _
  · rintro f h' rfl
    exact hpost _ _ fun a => hwrite a _

/-- What a request is stored as when it enters a stage. -/
theorem of_advanced {target current : Stage} {conditions o : Value}
    (h : advanced request target conditions = .ok (current, o)) :
    stageOf request = .ok current ∧ current.canAdvanceTo target = true ∧
      ∃ status fields generation, statusOf request = .ok status ∧ status.spread = .ok fields ∧
        request.setField "status" (.object (Fields.merge fields
          [("lifecycleStage", .text target.name), ("conditions", conditions),
           ("observedGeneration", generation)])) = .ok o := by
  simp only [advanced, bind_eq_ok] at h
  rcases h with ⟨status, hstatus, stage, hstage, h⟩
  -- a move that is not legal is refused before anything is written
  by_cases hmove : stage.canAdvanceTo target = true
  · rw [if_pos hmove] at h
    simp only [bind_eq_ok, pure_eq_ok, Prod.mk.injEq] at h
    rcases h with ⟨old, hold, fields, hfields, _, _, generation, _, changed, hchanged, rfl, rfl⟩
    refine ⟨?_, hmove, old, fields, generation, hold, hfields, hchanged⟩
    simp only [stageOf, hstatus, bind, Except.bind]
    exact hstage
  · simp [hmove, throw, throwThe, MonadExceptOf.throw] at h

/-- A request without a stage is started. -/
theorem start_asks (hkind : kind ∈ requestKinds)
    (hread : h.reads (requestAt kind id) = [request]) (hstage : stageOf request = .ok .unset) :
    Asks kind id (start kind request) h := by
  unfold start
  refine withProvisioner_asks hkind hread hstage rfl (by simp) ?_
  intro provisioner h' hread'
  refine Pass.ensures_read (fun conditions hconditions => ?_) (fun _ _ => trivial)
  refine Pass.ensures_now ?_
  intro now
  rw [Pass.ensures_bind]
  refine advance_ensures ?_ ?_
  · intro current o hmoved
    -- the stage that is advanced is read from the same request again
    obtain rfl : current = .unset := by
      simpa [hstage] using (of_advanced hmoved).1.symm
    exact .status hread' (.starting hstage hconditions hmoved)
  · rintro h'' (f | u) hreads
    · trivial
    · exact createJob_asks ((hreads _).trans hread') hstage rfl

/-- A request is only completed with a job that was read. -/
theorem complete_asks {job metadata : Value} (hread : h.reads (requestAt kind id) = [request])
    (hstage : stageOf request = .ok .creating) (hjob : JobRead h request job)
    (hdone : JobOutcome.ofJob job = .ok .complete) :
    Asks kind id (complete kind request metadata) h := by
  unfold complete
  refine Pass.ensures_read (fun conditions hconditions => ?_) (fun _ _ => trivial)
  refine ensures_recordNow ?_
  intro now
  rw [Pass.ensures_bind]
  refine advance_ensures ?_ ?_
  · intro current o hmoved
    obtain rfl : current = .creating := by
      simpa [hstage] using (of_advanced hmoved).1.symm
    exact .status hread (.completing hstage hjob hdone hconditions hmoved)
  · rintro h' (f | u) -
    · trivial
    · refine Pass.ensures_note ?_ (fun _ _ => trivial)
      refine Pass.ensures_read (fun name _ => ?_) (fun _ _ => trivial)
      exact Pass.ensures_tell trivial

/-- A request only fails with a job that was read. -/
theorem fail_asks {job metadata : Value} (hread : h.reads (requestAt kind id) = [request])
    (hstage : stageOf request = .ok .creating) (hjob : JobRead h request job)
    (hfailed : JobOutcome.ofJob job = .ok .failed) :
    Asks kind id (fail kind request metadata job) h := by
  unfold fail
  refine Pass.ensures_read (fun conditions hconditions => ?_) (fun _ _ => trivial)
  refine Pass.ensures_read (fun name _ => ?_) (fun _ _ => trivial)
  refine Pass.ensures_read (fun reason _ => ?_) (fun _ _ => trivial)
  refine ensures_recordNow ?_
  intro now
  refine ensures_recordNow ?_
  intro now'
  rw [Pass.ensures_bind]
  refine advance_ensures ?_ ?_
  · intro current o hmoved
    -- the stage that is advanced is the one that the job was judged in
    obtain rfl : current = .creating := by
      simpa [hstage] using (of_advanced hmoved).1.symm
    exact .status hread (.failing hstage hjob hfailed hconditions hmoved)
  · rintro h' (f | u) -
    · trivial
    · refine Pass.ensures_note ?_ (fun _ _ => trivial)
      exact Pass.ensures_tell trivial

/-- A request in `Creating` is judged by its job. -/
theorem observe_asks (hkind : kind ∈ requestKinds)
    (hreads : ∀ a : Address, a ≠ requestAt kind id → h.reads a = [])
    (hread : h.reads (requestAt kind id) = [request]) (hstage : stageOf request = .ok .creating) :
    Asks kind id (observe settings kind request) h := by
  have hne : Kind.job ≠ kind := by
    rintro rfl
    exact absurd hkind (by decide)
  unfold observe
  refine Pass.ensures_read (fun metadata hmeta => ?_) (fun _ _ => trivial)
  refine Pass.ensures_read (fun ns hns => ?_) (fun _ _ => trivial)
  refine Pass.ensures_read (fun name hname => ?_) (fun _ _ => trivial)
  have haddr : (⟨.text Kind.job, ns, name⟩ : Address) ≠ requestAt kind id := by
    intro heq
    injection heq with hk
    exact hne (by simpa using hk)
  refine Pass.ensures_attempt (.other hne) ?_
  rintro reply h' rfl
  -- the job is fetched from another address than the request
  have hread' : History.reads (requestAt kind id)
      (h ++ [(.get (.text Kind.job) ns name, reply)]) = [request] :=
    (History.reads_append_get_of_ne haddr.symm).trans hread
  have hjobAt : jobAt request = .ok ⟨.text Kind.job, ns, name⟩ := by
    simp [jobAt, hmeta, hns, hname, bind, Except.bind, pure, Except.pure]
  cases reply with
  | error f =>
    dsimp only
    split
    · next hmissing =>
      -- without its job, a request in this stage still needs its provisioner
      have htold : ToldMissing (h ++ [(.get (.text Kind.job) ns name, .error f)])
          ⟨.text Kind.job, ns, name⟩ := ⟨f, by simp, .inl hmissing⟩
      refine Pass.ensures_note ?_ (fun _ _ => trivial)
      refine withProvisioner_asks hkind hread' hstage rfl (fun _ => ⟨_, hjobAt, htold⟩) ?_
      intro provisioner h' hread''
      exact createJob_asks hread'' hstage rfl
    · trivial
  | ok job =>
    have hjob : JobRead (h ++ [(.get (.text Kind.job) ns name, .ok job)]) request job := by
      refine ⟨_, hjobAt, ?_⟩
      rw [History.reads_append_get, hreads _ haddr]
      rfl
    refine Pass.ensures_read (fun outcome houtcome => ?_) (fun _ _ => trivial)
    cases outcome with
    | running => exact (Pass.ensures_liftRead _ _).mpr trivial
    | complete => exact complete_asks hread' hstage hjob houtcome
    | failed => exact fail_asks hread' hstage hjob houtcome

/-- A pass over a request makes permitted calls only. -/
theorem converge_asks (hkind : kind ∈ requestKinds) :
    Asks kind id (converge settings kind id) [] := by
  unfold converge
  refine Pass.ensures_must (.request rfl) ?_ (fun _ _ _ => trivial)
  rintro request h' rfl
  have hread : History.reads (requestAt kind id)
      [(.get (.text kind) id.ns id.name, .ok request)] = [request] :=
    History.reads_append_get (h := []) _ _ _ _
  -- nothing but the request was read so far
  have hreads : ∀ a : Address, a ≠ requestAt kind id →
      History.reads a [(.get (.text kind) id.ns id.name, .ok request)] = [] := fun a ha =>
    History.reads_append_get_of_ne (h := []) ha
  refine Pass.ensures_read (fun metadata _ => ?_) (fun _ _ => trivial)
  refine Pass.ensures_read (fun status hstatus => ?_) (fun _ _ => trivial)
  have hstageOf : stageOf request = Stage.ofStatus status := by
    simp [stageOf, hstatus, bind, Except.bind]
  split
  · -- one case for each stage, and one for a stage that is not known
    next hstage => exact start_asks hkind hread (hstageOf.trans hstage)
  · next hstage => exact observe_asks hkind hreads hread (hstageOf.trans hstage)
  · trivial
  · trivial
  · refine Pass.ensures_read (fun stored _ => ?_) (fun _ _ => trivial)
    exact Pass.ensures_note trivial (fun _ _ => trivial)
  · trivial

/-- Reconciling a request makes permitted calls only. -/
theorem reconcile_asks (hkind : kind ∈ requestKinds) (settings' : Settings) :
    SafePass.Ensures noted (MayAsk kind id) (fun _ _ => True)
      ((handler settings kind).reconcile settings' id) [] :=
  (Handler.reconcile_ensures settings' (handler settings kind) id []).mpr (converge_asks hkind)

end Passes

end Provisioning

end Reconciler
