import Reconciler.Handler.All
import Reconciler.Proofs.Convergence.Children
import Reconciler.Proofs.Reports.Course

/-! # What passes leave behind of themselves

A pass notes what it does, counts the writes, drifts and transitions it sees, and posts events about them.
It never counts or times itself and never reports its own failure: that is left to what runs it. When it
posts a warning, the text is that of a fault it found in something it fetched: a descriptor that cannot be
read, or a job that failed.

Main definitions and statements:

* `Raised`: the faults a pass may warn about, by the reason of the warning;
* `Ordinary`: what a pass may leave behind after what it heard;
* `ordinary_converge`: the passes of all handlers leave nothing else behind.
-/

namespace Reconciler

open Convergence (create patch walk)

/-! ## Warnings -/

def descriptorOf (provisioner : Value) : Except Fault Value := do
  (← Manifest.specOf provisioner).fieldOrNull "typeKindSpecific"

/-- A fault that was found in something fetched, with the reason of the warning about it. -/
inductive Raised (h : History) : String → Fault → Prop where
  /-- The descriptor of a provisioner cannot be read. -/
  | descriptor {ns name stored descriptor : Value} {complaint : String} :
      (.get (.text Kind.provisioner) ns name, .ok stored) ∈ h →
      descriptorOf stored = .ok descriptor →
      Descriptor.parse descriptor = .error (.build complaint) →
      Raised h "DescriptorInvalid" (.build complaint)
  /-- A job failed, for a reason that its conditions give. -/
  | job {ns name job reason : Value} :
      (.get (.text Kind.job) ns name, .ok job) ∈ h →
      JobOutcome.failureReason job = .ok reason →
      Raised h "ProvisioningFailed" (.jobFailed name reason)

/-- What a pass may leave behind after what it heard from the store. -/
inductive Ordinary (h : History) : Trace → Prop where
  | log (entry : LogEntry) : Ordinary h (.log entry)
  | mark (key : String) (value : Value) : Ordinary h (.annotateSpan key value)
  | write (kind operation result : String) : Ordinary h (.count (.childOperations kind operation result))
  | drift (kind resourceType : String) : Ordinary h (.count (.drifts kind resourceType))
  | transition (kind stage : String) : Ordinary h (.count (.transitions kind stage))
  | news {e : ClusterEvent} (hnormal : e.warning = false) : Ordinary h (.event e)
  | warning {object : Value} {reason : String} {fault : Fault} (hraised : Raised h reason fault) :
      Ordinary h (.event (.about object true reason fault.message))

/-- A fault that was found in something fetched stays so, whatever else is fetched. -/
theorem Raised.mono {h : History} {reason : String} {fault : Fault} (hraised : Raised h reason fault)
    (more : History) : Raised (h ++ more) reason fault := by
  cases hraised with
  | descriptor hfetched hread hparse =>
    exact .descriptor (List.mem_append_left _ hfetched) hread hparse
  | job hfetched hreason => exact .job (List.mem_append_left _ hfetched) hreason

/-- What may be left behind may be so later on. -/
theorem Ordinary.mono {h : History} {t : Trace} (ht : Ordinary h t) (more : History) :
    Ordinary (h ++ more) t := by
  cases ht with
  | log entry => exact .log entry
  | mark key value => exact .mark key value
  | write kind operation result => exact .write kind operation result
  | drift kind resourceType => exact .drift kind resourceType
  | transition kind stage => exact .transition kind stage
  | news hnormal => exact .news hnormal
  | warning hraised => exact .warning (hraised.mono more)

/-! ## Passes -/

/-- A pass that leaves nothing else behind, and that names the failure when it fails. -/
abbrev Plain (p : Pass Directive) (h : History) : Prop :=
  Pass.Leaves Ordinary (fun _ r => r ≠ .ok (.failed none)) p h

variable {h : History}

theorem error_ne_failed (f : Failure) : (.error f : Except Failure Directive) ≠ .ok (.failed none) :=
  nofun

theorem plain_read {α : Type} {read : Except Fault α} {k : α → Pass Directive}
    (hok : ∀ a, read = .ok a → Plain (k a) h) : Plain (liftM read >>= k) h :=
  Pass.leaves_read hok error_ne_failed

theorem plain_note {kind : String} {level : Level} {metadata : Value} {r : Remark}
    {k : Unit → Pass Directive} (hnext : Plain (k ()) h) :
    Plain (Pass.log kind level metadata r >>= k) h :=
  Pass.leaves_note .log hnext error_ne_failed

theorem plain_must {c : StoreCall} {k : Value → Pass Directive}
    (hok : ∀ v, Plain (k v) (h ++ [(c, .ok v)])) : Plain (Pass.call c >>= k) h :=
  Pass.leaves_must hok error_ne_failed

/-- A pass that only asks to come back names no failure. -/
theorem after_ne_failed {delay : Rat} {d : Directive} (hd : Directive.after delay = .ok d) :
    d ≠ .failed none := by
  unfold Directive.after at hd
  split at hd
  · cases hd
  · obtain rfl := Except.ok.inj hd
    exact nofun

theorem plain_after (delay : Rat) : Plain (liftM (Directive.after delay)) h := by
  refine Pass.leaves_liftRead ?_
  cases hd : Directive.after delay with
  | error f => exact nofun
  | ok d => exact fun hfailed => after_ne_failed hd (Except.ok.inj hfailed)

/-! ### Tiers -/

namespace Convergence

variable {settings : Settings} {kind : String} {id : Identity} {parent : Value} {tier : Tier}

/-- A tier whose child is built without leaving anything behind or hearing anything. -/
def Unseen (tier : Tier) : Prop :=
  ∀ {post : History → Except Failure Value → Prop} {h : History}, (∀ r, post h r) →
    Pass.Leaves Ordinary post tier.build h

/-- A pass that creates a child leaves marks, counts of writes and news. -/
theorem plain_create (hunseen : Unseen tier) : Plain (create kind parent tier) h := by
  unfold create
  refine plain_read (fun metadata _ => ?_)
  refine Pass.leaves_tell (.mark _ _) ?_
  refine Pass.leaves_bind (hunseen ?_)
  rintro (f | manifest)
  · exact nofun
  refine plain_note ?_
  refine Pass.leaves_attempt ?_
  rintro (f | created)
  · dsimp only
    split
    · exact Pass.leaves_tell (.write _ _ _) (Pass.leaves_pure nofun)
    · exact Pass.leaves_tell (.write _ _ _) (Pass.leaves_throw (error_ne_failed f))
  · exact Pass.leaves_tell (.write _ _ _) (Pass.leaves_tell (.news rfl) (Pass.leaves_pure nofun))

theorem plain_patch {existing : Value} {changes : Fields} :
    Plain (patch settings kind parent tier existing changes) h := by
  unfold patch
  refine Pass.leaves_tell (.mark _ _) ?_
  refine plain_read (fun metadata _ => ?_)
  refine Pass.leaves_tell (.drift _ _) ?_
  refine plain_note ?_
  refine plain_read (fun changed _ => ?_)
  refine Pass.leaves_attempt ?_
  rintro (f | updated)
  · dsimp only
    split
    · exact Pass.leaves_tell (.write _ _ _) (Pass.leaves_pure nofun)
    · exact Pass.leaves_tell (.write _ _ _) (Pass.leaves_throw (error_ne_failed f))
  · exact Pass.leaves_tell (.write _ _ _) (Pass.leaves_tell (.news rfl) (plain_after _))

/-- A walk over children leaves behind what its steps do. -/
theorem plain_walk {tiers : List Tier} (hunseen : ∀ tier ∈ tiers, Unseen tier) :
    Plain (walk settings kind id parent tiers) h := by
  induction tiers generalizing h with
  | nil =>
    unfold walk
    refine plain_read (fun metadata _ => ?_)
    exact plain_note (Pass.leaves_pure nofun)
  | cons tier rest ih =>
    have hrest : ∀ {h}, Plain (walk settings kind id parent rest) h :=
      fun {h} => ih (fun tier htier => hunseen tier (by simp [htier]))
    unfold walk
    refine Pass.leaves_attempt ?_
    rintro (f | existing)
    · dsimp only
      split
      · exact plain_create (hunseen tier (by simp))
      · exact Pass.leaves_throw (error_ne_failed f)
    · cases hdrift : tier.drift with
      | none => exact hrest
      | some drift =>
        dsimp only
        -- building the wanted child leaves nothing behind
        refine Pass.leaves_bind (hunseen tier (by simp) ?_)
        rintro (f | wanted)
        · exact nofun
        refine plain_read (fun changes _ => ?_)
        split
        · exact hrest
        · exact plain_patch

/-- What is read off the parent is built unseen, and so is a credential. -/
theorem unseen_tiers (family : Family) (images : Images) {all : List Tier}
    (hall : family.tiers images parent = .ok all) : ∀ tier ∈ all, Unseen tier := by
  have hread : ∀ {name kind : String} {childName : Value} (build : Except Fault Value)
      {drift : Option Drift}, Unseen { name, kind, childName, build := Pass.lift build, drift } := by
    intro name kind childName build drift post h hpost
    exact Pass.leaves_liftRead (hpost _)
  refine family.forall_tiers images hall ?_ ?_ ?_
  · exact fun _ _ _ build => hread build
  · exact fun _ _ build => hread build
  · intro name childName post h hpost
    refine Pass.leaves_bind (Pass.leaves_draw _ ?_)
    rintro (f | password)
    · exact hpost _
    · exact Pass.leaves_liftRead (hpost _)

theorem plain_converge (family : Family) :
    Plain (converge settings family.kind (family.tiers settings.images) id) h := by
  unfold converge
  refine plain_must (fun parent => ?_)
  refine plain_read (fun metadata _ => ?_)
  refine plain_read (fun all hall => ?_)
  exact plain_walk (unseen_tiers family settings.images hall)

end Convergence

/-! ### Provisioning -/

namespace Provisioning

variable {settings : Settings} {kind : String} {id : Identity} {request metadata : Value}
variable {α : Type}

theorem leaves_getProvisioner {post : History → Except Failure Value → Prop}
    (hpost : ∀ h' r, post h' r) : Pass.Leaves Ordinary post (getProvisioner request) h := by
  unfold getProvisioner
  refine Pass.leaves_read (fun metadata _ => ?_) (fun _ => hpost _ _)
  refine Pass.leaves_read (fun ns _ => ?_) (fun _ => hpost _ _)
  refine Pass.leaves_read (fun spec _ => ?_) (fun _ => hpost _ _)
  refine Pass.leaves_read (fun name _ => ?_) (fun _ => hpost _ _)
  split
  · refine Pass.leaves_attempt ?_
    rintro (f | provisioner)
    · dsimp only
      split
      · exact hpost _ _
      · exact hpost _ _
    · exact hpost _ _
  · exact hpost _ _

theorem leaves_recordNow {post : History → Except Failure α → Prop} {r : Condition.Report}
    {conditions : List Condition} {k : List Condition → Pass α}
    (hnext : ∀ now, Pass.Leaves Ordinary post
      (k (Condition.record r (.text (Instant.shown now)) conditions)) h) :
    Pass.Leaves Ordinary post (liftM (recordNow r conditions) >>= k) h :=
  Pass.leaves_now hnext

theorem leaves_recordMissing {post : History → Except Failure Unit → Prop} {name : Value}
    (hpost : ∀ h' r, post h' r) :
    Pass.Leaves Ordinary post (recordMissing kind request name) h := by
  unfold recordMissing
  refine Pass.leaves_read (fun conditions _ => ?_) (fun _ => hpost _ _)
  refine Pass.leaves_read (fun metadata _ => ?_) (fun _ => hpost _ _)
  refine Pass.leaves_note .log ?_ (fun _ => hpost _ _)
  split
  · exact hpost _ _
  · refine leaves_recordNow ?_
    intro now
    refine Pass.leaves_read (fun changed _ => ?_) (fun _ => hpost _ _)
    exact Pass.leaves_must (fun _ => hpost _ _) (fun _ => hpost _ _)

theorem plain_withProvisioner {next : Value → Pass Directive}
    (hnext : ∀ provisioner h', Plain (next provisioner) h') :
    Plain (withProvisioner kind request next) h := by
  unfold withProvisioner
  refine Pass.leaves_bind (Pass.leaves_outcome (leaves_getProvisioner ?_))
  rintro h' (f | provisioner)
  · dsimp only
    split
    · refine Pass.leaves_bind (leaves_recordMissing ?_)
      rintro h'' (f | u)
      · exact error_ne_failed f
      · exact Pass.leaves_pure nofun
    · exact Pass.leaves_throw (error_ne_failed f)
  · exact hnext provisioner h'

/-- A pass that creates a job leaves a count of the write and the news. -/
theorem plain_createJob {provisioner : Value} : Plain (createJob kind request provisioner) h := by
  unfold createJob
  refine plain_read (fun metadata _ => ?_)
  refine plain_read (fun job _ => ?_)
  refine Pass.leaves_attempt ?_
  rintro (f | created)
  · dsimp only
    split
    · exact Pass.leaves_tell (.write _ _ _) (Pass.leaves_pure nofun)
    · exact Pass.leaves_throw (error_ne_failed f)
  · refine Pass.leaves_tell (.write _ _ _) ?_
    refine plain_read (fun name _ => ?_)
    refine plain_read (fun spec _ => ?_)
    refine plain_read (fun image _ => ?_)
    refine plain_note ?_
    exact Pass.leaves_tell (.news rfl) (Pass.leaves_pure nofun)

/-- Entering a stage forgets nothing that was heard. -/
theorem leaves_advance {post : History → Except Failure Unit → Prop} {target : Stage}
    {conditions : Value} (hpost : ∀ h' r, (∀ e ∈ h, e ∈ h') → post h' r) :
    Pass.Leaves Ordinary post (advance kind request target conditions) h := by
  have hkept : ∀ e', ∀ e ∈ h, e ∈ h ++ [e'] := fun _ _ he => List.mem_append_left _ he
  unfold advance
  refine Pass.leaves_read (fun moved _ => ?_) (fun _ => hpost _ _ fun _ he => he)
  refine Pass.leaves_must (fun v => ?_) (fun _ => hpost _ _ (hkept _))
  refine Pass.leaves_tell (.transition _ _) ?_
  refine Pass.leaves_read (fun metadata _ => ?_) (fun _ => hpost _ _ (hkept _))
  exact Pass.leaves_log .log (hpost _ _ (hkept _)) (fun _ => hpost _ _ (hkept _))

theorem plain_start : Plain (start kind request) h := by
  unfold start
  refine plain_withProvisioner (fun provisioner h' => ?_)
  refine plain_read (fun conditions _ => ?_)
  refine Pass.leaves_now ?_
  intro now
  refine Pass.leaves_bind (leaves_advance ?_)
  rintro h'' (f | u) -
  · exact error_ne_failed f
  · exact plain_createJob

theorem plain_complete : Plain (complete kind request metadata) h := by
  unfold complete
  refine plain_read (fun conditions _ => ?_)
  refine leaves_recordNow ?_
  intro now
  refine Pass.leaves_bind (leaves_advance ?_)
  rintro h' (f | u) -
  · exact error_ne_failed f
  · refine plain_note ?_
    refine plain_read (fun name _ => ?_)
    exact Pass.leaves_tell (.news rfl) (Pass.leaves_pure nofun)

/-- The warning about a failed job is about the job that was fetched. -/
theorem plain_fail {ns name job : Value} (hname : metadata.require "name" = .ok name)
    (hjob : (.get (.text Kind.job) ns name, .ok job) ∈ h) :
    Plain (fail kind request metadata job) h := by
  unfold fail
  refine plain_read (fun conditions _ => ?_)
  refine plain_read (fun name' hname' => ?_)
  obtain rfl : name' = name := Except.ok.inj (hname'.symm.trans hname)
  refine plain_read (fun reason hreason => ?_)
  refine leaves_recordNow ?_
  intro now
  refine leaves_recordNow ?_
  intro now'
  refine Pass.leaves_bind (leaves_advance ?_)
  rintro h' (f | u) hkept
  · exact error_ne_failed f
  · refine plain_note ?_
    -- the reason was read from the job that the pass fetched
    exact Pass.leaves_tell (.warning (.job (hkept _ hjob) hreason)) (Pass.leaves_pure nofun)

theorem plain_observe : Plain (observe settings kind request) h := by
  unfold observe
  refine plain_read (fun metadata _ => ?_)
  refine plain_read (fun ns _ => ?_)
  refine plain_read (fun name hname => ?_)
  refine Pass.leaves_attempt ?_
  rintro (f | job)
  · dsimp only
    split
    · exact plain_note (plain_withProvisioner fun _ _ => plain_createJob)
    · exact Pass.leaves_throw (error_ne_failed f)
  · refine plain_read (fun outcome _ => ?_)
    -- only a failed job is warned about
    cases outcome with
    | running => exact plain_after _
    | complete => exact plain_complete
    | failed => exact plain_fail hname List.mem_concat_self

theorem plain_converge : Plain (converge settings kind id) h := by
  unfold converge
  refine plain_must (fun request => ?_)
  refine plain_read (fun metadata _ => ?_)
  refine plain_read (fun status _ => ?_)
  split
  · exact plain_start
  · exact plain_observe
  · exact Pass.leaves_pure nofun
  · exact Pass.leaves_pure nofun
  · refine plain_read (fun stored _ => ?_)
    exact plain_note (Pass.leaves_pure nofun)
  · exact Pass.leaves_throw (error_ne_failed _)

end Provisioning

/-! ### Labels -/

namespace Labelling

/-- Giving a provisioner empty metadata leaves its descriptor alone. -/
theorem descriptorOf_withDefault {stored provisioner default : Value}
    (hstored : stored.withDefault "metadata" default = .ok provisioner) :
    descriptorOf stored = descriptorOf provisioner := by
  have hspec : provisioner.field? "spec" = stored.field? "spec" :=
    Value.field?_withDefault_of_ne hstored (by decide)
  obtain ⟨fields, rfl, rfl⟩ := Value.withDefault_eq_ok.mp hstored
  simp only [Value.field?] at hspec
  simp only [descriptorOf, Manifest.specOf, Value.fieldOrNull, Value.fieldOr, hspec]

theorem plain_converge {id : Identity} : Plain (converge id) h := by
  unfold converge
  refine plain_must (fun stored => ?_)
  refine plain_read (fun provisioner hprovisioner => ?_)
  refine plain_read (fun metadata _ => ?_)
  refine plain_read (fun labels _ => ?_)
  refine plain_read (fun labelled _ => ?_)
  split
  · exact Pass.leaves_pure nofun
  refine plain_read (fun spec hspec => ?_)
  refine plain_read (fun descriptor hdescriptor => ?_)
  split
  · next complaint hparse =>
    have hread : descriptorOf stored = .ok descriptor := by
      rw [descriptorOf_withDefault hprovisioner, descriptorOf, hspec]
      exact hdescriptor
    refine plain_note ?_
    refine Pass.leaves_tell (.warning (.descriptor List.mem_concat_self hread hparse)) ?_
    exact Pass.leaves_pure nofun
  · exact Pass.leaves_throw (error_ne_failed _)
  · refine plain_read (fun labeled _ => ?_)
    refine plain_must (fun _ => ?_)
    refine plain_note ?_
    exact Pass.leaves_tell (.news rfl) (Pass.leaves_pure nofun)

end Labelling

/-- The passes of all handlers leave nothing else behind. -/
theorem ordinary_converge {settings : Settings} {handler : Handler}
    (hhandler : handler ∈ handlers settings) (id : Identity) : Plain (handler.converge id) [] := by
  simp only [handlers, List.mem_cons, List.not_mem_nil, or_false] at hhandler
  rcases hhandler with rfl | rfl | rfl | rfl | rfl
  · exact Convergence.plain_converge .service
  · exact Convergence.plain_converge .database
  · exact Labelling.plain_converge
  · exact Provisioning.plain_converge
  · exact Provisioning.plain_converge

end Reconciler
