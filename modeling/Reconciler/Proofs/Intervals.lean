import Reconciler.Proofs.Convergence.Turns
import Reconciler.Proofs.Provisioning.Verdicts

/-! # Pauses between passes

A pass that corrected an endpoint, or that found a job at work, asks to be repeated after a pause. How long it
is to pause is set from outside, and any number can be set; but a directive only carries a positive one. So
with a pause of zero or less these passes fail, the first kind after the correction was written. There is no
other way in which a pass over a well-formed resource fails, but for two that have nothing to do with pauses:
an endpoint whose spec is null, and a job that cannot be judged.

Main definitions and statements:

* `Directive.pausing`: the directive of a pass that asks for a pause;
* `Convergence.Outcome`, `Convergence.Turn.outcome`: what a pass over a parent comes to, by the first child
  that is missing or has drifted;
* `Provisioning.Standing.observe_waits`: what a pass over a request that waits for its job comes to;
* `failures_decided_by_pauses`: when passes fail, whatever is set;
* `not_neverFails`: and with some settings they do.
-/

namespace Reconciler

open Cluster Manifest

/-- The directive of a pass that asks to be repeated after a pause: it fails unless the pause is positive. -/
def Directive.pausing (seconds : Rat) : Directive :=
  if 0 < seconds then .requeueAfter seconds
  else .failed (some ⟨.badValue "requeue delay must be positive", none⟩)

/-- There is no pause of no length. -/
theorem Directive.pausing_eq_failed_iff {seconds : Rat} :
    (∃ error, pausing seconds = .failed error) ↔ seconds ≤ 0 := by
  unfold pausing
  split
  · next hpos => simpa using Rat.not_le.mpr hpos
  · next hpos => simpa using Rat.not_lt.mp hpos

/-- The directive of such a pass is what the pause makes of it. -/
theorem Handler.directiveOf_paused (h : Handler) (id : Identity) (seconds : Rat) :
    h.directiveOf id (Directive.paused seconds) = .pausing seconds := by
  by_cases hpos : 0 < seconds
  · simp only [Directive.paused, Directive.after_of_pos hpos, Directive.pausing, if_pos hpos]
    rfl
  · have hrefused : seconds ≤ 0 := Rat.not_lt.mp hpos
    simp only [Directive.paused, Directive.after, if_pos hrefused, Directive.pausing, if_neg hpos]
    exact h.directiveOf_classless id rfl

/-! ## After a correction -/

namespace Convergence

section Outcomes

variable {family : Family} {ns parent : Value} {name : String} {settings : Settings} {c : Cluster}
variable {child : Child} {children : List Child} {writes : History}
variable {result : Except Failure Directive} {d : Directive}

/-- The specs of all endpoints that are there are absent, null or objects. -/
def SpecsReadable (children : List Child) (c : Cluster) : Prop :=
  ∀ child ∈ children, child.exposure ≠ none → ∀ object, c.find? child.address = some object →
    Value.ObjectOrNone (object.field? "spec")

/-- The first child that is missing or has drifted is an endpoint that is there. -/
def Drifts (children : List Child) (c : Cluster) (existing : Value) : Prop :=
  ∃ child, children.find? (unsettled c) = some child ∧ c.find? child.address = some existing

/-- What a pass over a parent comes to: there is nothing to do, or the first child that is missing was created,
or the first that has drifted cannot be corrected, or it was. -/
inductive Outcome (settings : Settings) (c : Cluster) (children : List Child) :
    History → Except Failure Directive → Prop where
  | settled : children.find? (unsettled c) = none → Outcome settings c children [] (.ok .done)
  | created {child : Child} {writes : History} : children.find? (unsettled c) = some child →
      c.find? child.address = none → Outcome settings c children writes (.ok .requeueNow)
  | stuck {existing : Value} : Drifts children c existing → existing.field? "spec" = some .null →
      Outcome settings c children [] (.error ⟨.noAttribute, none⟩)
  | corrected {existing changed stored : Value} : Drifts children c existing →
      existing.field? "spec" ≠ some .null →
      Outcome settings c children [(.update changed, .ok stored)] (Directive.paused settings.cooldown)

/-- A child that is settled is passed over. -/
theorem find?_cons_of_settled (rest : List Child) (h : unsettled c child = false) :
    (child :: rest).find? (unsettled c) = rest.find? (unsettled c) := by
  simp [h]

/-- A settled child in front makes no difference to what a pass comes to. -/
theorem Outcome.cons (h : Outcome settings c children writes result)
    (hsettled : unsettled c child = false) : Outcome settings c (child :: children) writes result := by
  have hfirst := find?_cons_of_settled children hsettled
  have hdrifts : ∀ {existing}, Drifts children c existing → Drifts (child :: children) c existing := by
    rintro existing ⟨other, hother, hfind⟩
    exact ⟨other, hfirst.trans hother, hfind⟩
  cases h with
  | settled hnone => exact .settled (hfirst.trans hnone)
  | created hother hnone => exact .created (hfirst.trans hother) hnone
  | stuck hdrift hnull => exact .stuck (hdrifts hdrift) hnull
  | corrected hdrift hnull => exact .corrected (hdrifts hdrift) hnull

/-- Whether an endpoint that is there has drifted is what its exposure says. -/
theorem unsettled_of_find? {existing wanted : Value} (hfind : c.find? child.address = some existing)
    (hwanted : child.exposure = some wanted) :
    unsettled c child = !(exposureOf existing).same wanted := by
  simp [unsettled, missing, drifted, hfind, hwanted]

/-- A turn comes to what the first child that is missing or has drifted makes of it. -/
theorem Turn.outcome (h : Turn settings c children writes result)
    (hkept : ∀ child ∈ children, ∀ object, c.find? child.address = some object → Kept child object)
    (hspecs : SpecsReadable children c) : Outcome settings c children writes result := by
  -- what a turn makes of an endpoint that is there follows from its spec
  have hcorrects : ∀ {child : Child} {existing desired : Value}, child ∈ children →
      c.find? child.address = some existing → child.exposure ≠ none → Built child desired →
      ∃ wanted, child.exposure = some wanted ∧
        Corrects existing wanted (correction existing desired) := by
    intro child existing desired hchild hfind hendpoint hbuilt
    rcases Option.ne_none_iff_exists'.mp hendpoint with ⟨wanted, hwanted⟩
    exact ⟨wanted, hwanted, correction_corrects (hkept child hchild existing hfind).address
      (hspecs child hchild hendpoint existing hfind) hbuilt hwanted⟩
  -- the induction is on the turn: children that are passed over, and then one that is not
  induction h with
  | settled => exact .settled rfl
  | @passed child rest existing _ _ hfind hsettled _ ih =>
    have ih := ih (fun other hother => hkept other (by simp [hother]))
      (fun other hother => hspecs other (by simp [hother])) fun hother => hcorrects (by simp [hother])
    refine ih.cons ?_
    cases hwanted : child.exposure with
    | none => simp [unsettled, missing, drifted, hfind, hwanted]
    | some wanted =>
      rcases hsettled (by simp [hwanted]) with ⟨desired, hbuilt, hnone⟩
      obtain ⟨_, hwanted', hcorrect⟩ := hcorrects (by simp) hfind (by simp [hwanted]) hbuilt
      obtain rfl := Option.some.inj (hwanted'.symm.trans hwanted)
      -- nothing is to be corrected, so the exposure is the wanted one
      rw [hnone] at hcorrect
      cases hcorrect with | same hsame =>
      rw [unsettled_of_find? hfind hwanted, hsame]
      rfl
  | @created child rest _ _ hnone _ =>
    exact .created (by simp [unsettled, missing, hnone]) hnone
  | @corrected child rest existing _ _ _ hfind hendpoint hbuilt hcorrection =>
    obtain ⟨wanted, hwanted, hcorrect⟩ := hcorrects (by simp) hfind hendpoint hbuilt
    rw [hcorrection] at hcorrect
    cases hcorrect with | exposed hsame hnull _ _ =>
    -- something is to be corrected, so the exposure is not the wanted one
    refine .corrected ⟨child, ?_, hfind⟩ hnull
    simp [unsettled_of_find? hfind hwanted, hsame]
  | @stuck child rest existing _ _ hfind hendpoint hbuilt hcorrection =>
    obtain ⟨wanted, hwanted, hcorrect⟩ := hcorrects (by simp) hfind hendpoint hbuilt
    rw [hcorrection] at hcorrect
    cases hcorrect with | stuck hsame hnull =>
    refine .stuck ⟨child, ?_, hfind⟩ hnull
    simp [unsettled_of_find? hfind hwanted, hsame]

/-- When a pass over a parent fails, and what it did before. -/
structure FailsAtDrift (settings : Settings) (children : List Child) (c : Cluster) (writes : History)
    (d : Directive) : Prop where
  failed_iff : (∃ error, d = .failed error) ↔ ∃ existing, Drifts children c existing ∧
    (existing.field? "spec" = some .null ∨ settings.cooldown ≤ 0)
  corrected : ∀ existing, Drifts children c existing → existing.field? "spec" ≠ some .null →
    (∃ changed stored, writes = [(.update changed, .ok stored)]) ∧ d = .pausing settings.cooldown

/-- There is one endpoint at most that drifts first. -/
theorem Drifts.unique {existing other : Value} (h : Drifts children c existing)
    (h' : Drifts children c other) : existing = other := by
  rcases h with ⟨child, hfirst, hfind⟩
  rcases h' with ⟨child', hfirst', hfind'⟩
  obtain rfl := Option.some.inj (hfirst.symm.trans hfirst')
  exact Option.some.inj (hfind.symm.trans hfind')

/-- A pass that corrects nothing does not fail; one that corrects an endpoint fails when its spec is null, or
when there is no pause to be repeated after. -/
theorem Outcome.failsAtDrift (h : Outcome settings c children writes result) (handler : Handler)
    (id : Identity) :
    FailsAtDrift settings children c writes (handler.directiveOf id result) := by
  cases h with
  | settled hnone =>
    have hnot : ∀ existing, ¬ Drifts children c existing := by
      rintro existing ⟨child, hfirst, -⟩
      cases hnone.symm.trans hfirst
    exact ⟨by simp [Handler.directiveOf, hnot], fun existing hdrift => absurd hdrift (hnot existing)⟩
  | @created child _ hfirst hmissing =>
    have hnot : ∀ existing, ¬ Drifts children c existing := by
      rintro existing ⟨child', hfirst', hfind⟩
      -- the first child is missing, so it is no endpoint that is there
      obtain rfl := Option.some.inj (hfirst.symm.trans hfirst')
      cases hmissing.symm.trans hfind
    exact ⟨by simp [Handler.directiveOf, hnot], fun existing hdrift => absurd hdrift (hnot existing)⟩
  | stuck hdrift hnull =>
    -- a null spec fails the pass, whatever the pause
    rw [handler.directiveOf_classless id rfl]
    refine ⟨⟨fun _ => ⟨_, hdrift, .inl hnull⟩, fun _ => ⟨_, rfl⟩⟩, fun existing hdrift' hne => ?_⟩
    exact absurd (hdrift'.unique hdrift ▸ hnull) hne
  | corrected hdrift hne =>
    -- the correction is written, and the pass fails if its pause is not positive
    rw [handler.directiveOf_paused]
    refine ⟨Directive.pausing_eq_failed_iff.trans ⟨fun hzero => ⟨_, hdrift, .inr hzero⟩, ?_⟩,
      fun _ _ _ => ⟨⟨_, _, rfl⟩, rfl⟩⟩
    rintro ⟨existing, hdrift', hnull | hzero⟩
    · exact absurd (hdrift.unique hdrift' ▸ hnull) hne
    · exact hzero

/-- A pass over a parent fails as its first drifted child makes it. -/
theorem Placed.reconcile_failsAtDrift (h : Placed family ns name parent c)
    (hspecs : SpecsReadable (family.children parent ns name) c) (settings settings' : Settings) :
    SafePass.Ensures overheard (fun _ _ => True)
      (fun s d => FailsAtDrift settings (family.children parent ns name) c s.2.writes d)
      ((family.handler settings).reconcile settings' ⟨ns, .text name⟩) (c, []) := by
  refine (h.reconcile_turns settings settings').mono (fun _ _ hmay => hmay) ?_
  rintro s d ⟨result, hturn, rfl⟩
  exact (hturn.outcome h.kept hspecs).failsAtDrift _ _

end Outcomes

end Convergence

/-! ## While a job is running -/

/-- A job whose conditions cannot be read is a fault of no class. -/
theorem JobOutcome.classless_ofJob (job : Value) : Classless (ofJob job) := by
  -- the conditions are read one after the other
  have htypes : ∀ items, Classless (activeTypes items) := by
    intro items
    induction items with
    | nil => trivial
    | cons item rest ih =>
      refine (item.classless_fieldOr _ _).andThen fun status => ?_
      split
      · refine (item.classless_fieldOrNull _).andThen fun type => ?_
        split
        · exact ih.andThen fun types => trivial
        · rfl
      · exact ih
  refine Classless.andThen ?_ fun items => (htypes items).andThen fun types => ?_
  · refine (job.classless_fieldOrNull _).andThen fun status => ?_
    exact (Value.classless_fieldOrNull _ _).andThen fun conditions => Value.classless_elements _
  · split
    · trivial
    · split <;> trivial

namespace Provisioning

section Waiting

variable {settings : Settings} {kind : String} {id : Identity} {request job : Value}
variable {cs : List Condition} {c : Cluster}

/-- When a pass over a request fails that waits for its job. -/
def FailsWaiting (settings : Settings) (job : Value) (d : Directive) : Prop :=
  (∃ error, d = .failed error) ↔
    (JobOutcome.ofJob job = .ok .running ∧ settings.pollInterval ≤ 0) ∨
      ∃ f, JobOutcome.ofJob job = .error f

/-- A job that is over is not waited for. -/
theorem failsWaiting_done {outcome : JobOutcome} (h : JobOutcome.ofJob job = .ok outcome)
    (hne : outcome ≠ .running) : FailsWaiting settings job .done := by
  simp [FailsWaiting, h, hne]

/-- A pass over a request that waits for its job does what the job asks for, or fails. -/
theorem Standing.observe_waits (h : Standing kind id .creating request cs c)
    (hjob : c.find? (jobOf id) = some job) (handler : Handler) (settings : Settings) :
    Pass.Ensures reliable (fun _ _ => True)
      (fun _ r => FailsWaiting settings job (handler.directiveOf id r))
      (observe settings kind request) c := by
  rcases addressOf_eq_ok.mp h.address with ⟨metadata, hmeta, -, hns, hname⟩
  have hget : c.perform (.get (.text Kind.job) id.ns id.name) = (.ok job, c) :=
    get_of_find? (nameable_jobOf h.nameable) hjob
  -- a pass that succeeds with nothing left to do has not failed
  have hdone : ∀ {outcome : JobOutcome} {p : Pass Directive}, JobOutcome.ofJob job = .ok outcome →
      outcome ≠ .running → Comes (fun _ d => d = .done) p c →
      Pass.Ensures reliable (fun _ _ => True)
        (fun _ r => FailsWaiting settings job (handler.directiveOf id r)) p c := by
    intro outcome p houtcome hne hcomes
    refine Pass.Ensures.mono hcomes (fun _ _ hmay => hmay) ?_
    rintro c' _ ⟨_, rfl, rfl⟩
    exact failsWaiting_done houtcome hne
  unfold observe
  refine Pass.ensures_value (Value.require_eq_ok.mpr hmeta) ?_
  refine Pass.ensures_value hns ?_
  refine Pass.ensures_value (Value.require_eq_ok.mpr hname) ?_
  refine Pass.ensures_attempt trivial ?_
  rintro reply c' ⟨rfl, rfl⟩
  rw [Cluster.reported, requestAt, hget]
  refine (Pass.ensures_bind (Pass.lift (JobOutcome.ofJob job)) _ _).mpr ?_
  rw [Pass.ensures_lift]
  cases houtcome : JobOutcome.ofJob job with
  | error f =>
    -- the conditions of the job cannot be read
    have hclassless := (JobOutcome.classless_ofJob job).of_error houtcome
    exact ⟨fun _ => .inr ⟨f, houtcome⟩, fun _ => ⟨_, handler.directiveOf_classless id hclassless⟩⟩
  | ok outcome =>
    cases outcome with
    | running =>
      refine (Pass.ensures_liftRead _ _).mpr ?_
      -- the job is running, so the pass fails when there is no pause before the next
      have hiff := @Directive.pausing_eq_failed_iff settings.pollInterval
      rw [← handler.directiveOf_paused id] at hiff
      exact hiff.trans ⟨fun hzero => .inl ⟨houtcome, hzero⟩, fun h => by simpa [houtcome] using h⟩
    | complete =>
      refine hdone houtcome (by decide) ((posts_iff_comes []).mp ?_)
      exact (h.complete_moves hname).mono fun _ _ _ hmoves => hmoves.1
    | failed =>
      rcases JobOutcome.exists_failureReason_of_ofJob houtcome with ⟨reason, hreason⟩
      refine hdone houtcome (by decide) ((posts_iff_comes []).mp ?_)
      exact (h.fail_moves hname hreason).mono fun _ _ _ hmoves => hmoves.1

/-- Reconciling a request that waits for its job does what the job asks for, or fails. -/
theorem Standing.reconcile_waits (h : Standing kind id .creating request cs c)
    (hjob : c.find? (jobOf id) = some job) (settings settings' : Settings) :
    SafePass.Ensures reliable (fun _ _ => True) (fun _ d => FailsWaiting settings job d)
      ((handler settings kind).reconcile settings' id) c :=
  (Handler.reconcile_ensures settings' _ _ _).mpr
    (h.converge_ensures (h.observe_waits hjob (handler settings kind) settings))

end Waiting

end Provisioning

/-! ## All failures -/

section Failures

open Convergence Provisioning

/-- Whatever pauses are set, a pass over a parent, against a store that does not fail and with nobody else at
work, fails if and only if the first child that is missing or has drifted is an endpoint that is there, and
either its spec is null or the pause after a correction is not positive; in the second case the correction was
written. A pass over a request in `Creating` whose job exists fails if and only if the job is running and the
pause until it is looked at again is not positive, or the job cannot be judged. -/
theorem failures_decided_by_pauses (settings settings' : Settings) :
    (∀ (family : Family) (ns : Value) (name : String) (parent : Value) (c : Cluster),
      Placed family ns name parent c → SpecsReadable (family.children parent ns name) c →
      SafePass.Ensures overheard (fun _ _ => True)
        (fun s d => FailsAtDrift settings (family.children parent ns name) c s.2.writes d)
        ((family.handler settings).reconcile settings' ⟨ns, .text name⟩) (c, [])) ∧
    ∀ (kind : String) (id : Identity) (request job : Value) (cs : List Condition) (c : Cluster),
      Standing kind id .creating request cs c → c.find? (jobOf id) = some job →
      SafePass.Ensures reliable (fun _ _ => True) (fun _ d => FailsWaiting settings job d)
        ((Provisioning.handler settings kind).reconcile settings' id) c := by
  constructor
  · intro family ns name parent c hplaced hspecs
    exact hplaced.reconcile_failsAtDrift hspecs settings settings'
  · intro kind id request job cs c hstanding hjob
    exact hstanding.reconcile_waits hjob settings settings'

end Failures

/-! ### Pauses of zero -/

namespace Convergence

def zeroPauses : Settings := { cooldown := 0, pollInterval := 0 }

/-- The first child that is not as it should be is the endpoint. -/
theorem drifts_clusterWith :
    Drifts (Family.database.children storedDatabase (.text "default") "pg")
      (clusterWith driftedEndpoint) driftedEndpoint :=
  ⟨wantedEndpoint, rfl, rfl⟩

theorem spec_clusterWith :
    ∀ child ∈ Family.database.children storedDatabase (.text "default") "pg",
      child.exposure ≠ none → ∀ object, (clusterWith driftedEndpoint).find? child.address = some object →
      object.field? "spec" = none ∨ ∃ fields, object.field? "spec" = some (.object fields) := by
  simp only [Family.children, List.forall_mem_cons]
  refine ⟨fun h => absurd rfl h, fun h => absurd rfl h, fun h => absurd rfl h, ?_, by simp⟩
  rintro - object ⟨⟩
  exact .inr ⟨_, rfl⟩

theorem specsReadable_clusterWith :
    SpecsReadable (Family.database.children storedDatabase (.text "default") "pg")
      (clusterWith driftedEndpoint) :=
  fun child hchild hendpoint object hobject =>
    (spec_clusterWith child hchild hendpoint object hobject).imp_right .inr

/-- Without pauses, the pass that corrects an endpoint fails although its write was accepted, and the pass
that waits for a job fails. -/
theorem zero_pauses_fail :
    (∃ d s, Program.Leads (facing overheard)
        ((Family.database.handler zeroPauses).reconcile zeroPauses ⟨.text "default", .text "pg"⟩)
        (clusterWith driftedEndpoint, []) (.done d) s ∧
      (∃ changed stored, s.2.writes = [(.update changed, .ok stored)]) ∧
      d = .failed (some ⟨.badValue "requeue delay must be positive", none⟩)) ∧
    ∃ d c', Program.Leads (facing reliable)
        ((Provisioning.handler zeroPauses Kind.resource).reconcile zeroPauses Provisioning.sampleId)
        (Provisioning.judgedCluster []) (.done d) c' ∧ ∃ error, d = .failed error := by
  obtain ⟨hconverge, hobserve⟩ := failures_decided_by_pauses zeroPauses zeroPauses
  constructor
  · have hensures := hconverge _ _ _ _ _
      (@placed_clusterWith driftedEndpoint rfl proper_driftedEndpoint) specsReadable_clusterWith
    rcases exists_overheard ((Family.database.handler zeroPauses).reconcile zeroPauses
      ⟨.text "default", .text "pg"⟩) (clusterWith driftedEndpoint, []) with ⟨d, s, hrun⟩
    have hfails : FailsAtDrift _ _ _ _ _ := hensures.of_leads hrun
    exact ⟨d, s, hrun, hfails.corrected _ drifts_clusterWith (by decide)⟩
  · have hensures := hobserve _ _ _ _ _ _ (Provisioning.standing_judgedCluster []) rfl
    rcases Program.exists_leads_done (E := facing reliable) (fun c op => ⟨_, _, c.facing_answered op⟩)
      ((Provisioning.handler zeroPauses Kind.resource).reconcile zeroPauses Provisioning.sampleId)
      (Provisioning.judgedCluster []) with ⟨d, c', hrun⟩
    have hfails : Provisioning.FailsWaiting _ _ _ := hensures.of_leads hrun
    exact ⟨d, c', hrun, hfails.mpr (.inl ⟨by rfl, by decide⟩)⟩

/-- With some settings, passes do not fail: neither those over parents whose endpoints have specs that are
absent or objects, nor those over requests that wait for a job that can be judged. -/
def NeverFails (settings : Settings) : Prop :=
  (∀ (family : Family) (ns : Value) (name : String) (parent : Value) (c : Cluster),
    Placed family ns name parent c →
    (∀ child ∈ family.children parent ns name, child.exposure ≠ none → ∀ object,
      c.find? child.address = some object →
      object.field? "spec" = none ∨ ∃ fields, object.field? "spec" = some (.object fields)) →
    SafePass.Ensures overheard (fun _ _ => True) (fun _ d => ∀ error, d ≠ .failed error)
      ((family.handler settings).reconcile settings ⟨ns, .text name⟩) (c, [])) ∧
  ∀ (kind : String) (id : Identity) (request job : Value) (cs : List Condition) (c : Cluster)
    (outcome : JobOutcome), Provisioning.Standing kind id .creating request cs c →
    c.find? (Provisioning.jobOf id) = some job → JobOutcome.ofJob job = .ok outcome →
    SafePass.Ensures reliable (fun _ _ => True) (fun _ d => ∀ error, d ≠ .failed error)
      ((Provisioning.handler settings kind).reconcile settings id) c

/-- Without pauses they do: a correction was written, and the pass fails. -/
theorem not_neverFails : ¬ ∀ settings, NeverFails settings := by
  intro hclaim
  have hplaced := @placed_clusterWith driftedEndpoint rfl proper_driftedEndpoint
  have hnever := (hclaim zeroPauses).1 .database _ _ _ _ hplaced spec_clusterWith
  have hfails := hplaced.reconcile_failsAtDrift specsReadable_clusterWith zeroPauses zeroPauses
  rcases exists_overheard ((Family.database.handler zeroPauses).reconcile zeroPauses
    ⟨.text "default", .text "pg"⟩) (clusterWith driftedEndpoint, []) with ⟨d, s, hrun⟩
  have hfails : FailsAtDrift _ _ _ _ _ := hfails.of_leads hrun
  rcases hfails.failed_iff.mpr ⟨_, drifts_clusterWith, .inr (by decide)⟩ with ⟨error, rfl⟩
  exact hnever.of_leads hrun error rfl

end Convergence

end Reconciler
