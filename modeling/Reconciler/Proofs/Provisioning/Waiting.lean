import Reconciler.Proofs.Ownership.Writes
import Reconciler.Proofs.Provisioning.Recovery

/-! # Waiting for a provisioner

A request whose provisioner is missing is looked at again and again. Each pass asks whether the request says
already what it waits for, by the first condition that says that a provisioner is missing, and otherwise
records that, in place of the first condition of that type, whatever it says. The two searches may end at
different conditions. But what was recorded is what the next pass finds (`Condition.has_record`), so waiting
takes one write at most.

Main definitions and statements:

* `Waiting`, `Tells`: a request that waits, and whether it says what for;
* `Waiting.converge_comes`: what one pass comes to;
* `waiting_writes_at_most_once`: and any number of passes.
-/

namespace Reconciler

open Cluster

namespace Provisioning

/-! ## Requests that wait -/

/-- What a request says while it waits for a provisioner. -/
def waitingMessage (name : Value) : String := s!"Waiting for provisioner {name.shown}"

/-- A condition that says that a provisioner is missing. -/
def saysMissing (c : Condition) : Bool :=
  c.part "type" = .text ConditionType.provisionerNotFound ∧ c.part "status" = .text "True"

/-- The first condition that says that a provisioner is missing names this one. -/
def Tells (name : Value) (cs : List Condition) : Prop :=
  ∃ c, cs.find? saysMissing = some c ∧ c.part "message" = .text (waitingMessage name)

/-- The failure of a pass that misses a provisioner. -/
def missingProvisioner (id : Identity) (name : Value) : Failure :=
  ⟨.dependencyMissing (.text Kind.provisioner) id.ns name,
    some (Fault.missing ⟨.text Kind.provisioner, id.ns, name⟩)⟩

/-- A cluster with a request that is to be started, or whose job is to be made again, and without the
provisioner that it names. -/
structure Waiting (kind : String) (id : Identity) (name : Value) (stage : Stage) (request : Value)
    (cs : List Condition) (c : Cluster) : Prop extends Standing kind id stage request cs c where
  idle : stage = .unset ∨ stage = .creating ∧ c.find? (jobOf id) = none
  provisioner : (request.field? "spec").bind (·.field? "provisioner") = some name
  given : name.truthy = true
  named : name.nameable = true
  missing : c.find? ⟨.text Kind.provisioner, id.ns, name⟩ = none

/-- The parts of a request that waiting may change. -/
def waitingParts : List Path := [versionPart, ["status", "conditions"]]

/-- What a pass over a request that waits leaves behind. -/
structure Waited (kind : String) (id : Identity) (name : Value) (stage : Stage) (request : Value)
    (cs : List Condition) (c c' : Cluster) : Prop where
  waits : ∃ request' cs', Waiting kind id name stage request' cs' c' ∧ Tells name cs' ∧
    SameBut waitingParts request request'
  quiet : Tells name cs → c' = c
  noted : ¬ Tells name cs → c'.journal = c.journal ++ [⟨"update_status", requestAt kind id⟩]

/-- The handler asks whether a request says what it waits for. -/
theorem has_iff_tells {name : Value} {cs : List Condition} :
    Condition.has (.text ConditionType.provisionerNotFound) (.text "True")
        (some (.text (waitingMessage name))) cs = true ↔ Tells name cs := by
  -- what is looked for in both cases is the first condition with this type and status
  have hsays : (fun c : Condition => c.isOf (.text ConditionType.provisionerNotFound) &&
      (c.part "status").same (.text "True")) = saysMissing := by
    funext c
    have hsame : (c.part "status").same (.text "True") = true ↔ c.part "status" = .text "True" := by
      refine ⟨Value.eq_of_same_text, fun h => ?_⟩
      rw [h]
      rfl
    rw [Bool.eq_iff_iff, Bool.and_eq_true, Condition.isOf_iff, hsame, saysMissing, decide_eq_true_iff]
  rw [Condition.has_eq_any, hsays, Tells]
  cases cs.find? saysMissing with
  | none => simp
  | some c =>
    simp only [Option.any_some, Option.some.injEq, exists_eq_left']
    refine ⟨Value.eq_of_same_text, fun h => ?_⟩
    rw [h]
    simp [Value.same]

/-- What is recorded while waiting is found by the next pass. -/
theorem tells_record (name now : Value) (cs : List Condition) :
    Tells name (Condition.record
      (Condition.provisionerMissing (.text (waitingMessage name)) .null) now cs) := by
  have htype : (Condition.provisionerMissing (.text (waitingMessage name)) .null).type.Proper :=
    trivial
  exact has_iff_tells.mp (Condition.has_record htype trivial trivial now cs)

section Pass

variable {settings : Settings} {kind : String} {id : Identity} {name : Value} {stage : Stage}
variable {request : Value} {cs : List Condition} {c c' : Cluster}

/-- The request is still waiting after conditions were stored in it. -/
theorem Waiting.renoted {cs' : List Condition} {changed replaced : Value}
    (hkind : kind ∈ requestKinds) (h : Waiting kind id name stage request cs c)
    (hchanged : withStatus request [("conditions", conditionList cs')] = .ok changed)
    (hreplaced : withVersion changed c.nextVersion = .ok replaced) :
    Waiting kind id name stage replaced cs'
        ((c.bumped.withObject (requestAt kind id) replaced).recorded "update_status"
          (requestAt kind id)) ∧
      SameBut waitingParts request replaced := by
  have hset := hchanged
  simp only [withStatus, bind_eq_ok] at hset
  rcases hset with ⟨status, hstatus, fields, hfields, hset⟩
  have hstatusSame := sameBut_setStatus hstatus hfields hset (by simp)
  have hsame : SameBut waitingParts request replaced :=
    (hstatusSame.mono (by simp [waitingParts])).trans
      ((sameBut_withVersion hreplaced).mono (by simp [waitingParts]))
  have haddr : addressOf replaced = .ok (requestAt kind id) := hsame.addressOf (by decide) h.address
  have haddr' : addressOf changed = .ok (requestAt kind id) :=
    (addressOf_withVersion hreplaced).symm.trans haddr
  have hstatus' : replaced.field? "status" = changed.field? "status" :=
    field?_withVersion hreplaced (by decide)
  -- no object but the request was changed
  have hothers : ∀ a, a ≠ requestAt kind id →
      ((c.bumped.withObject (requestAt kind id) replaced).recorded "update_status"
        (requestAt kind id)).find? a = c.find? a := by
    intro a ha
    simp [find?_withObject, ha]
  refine ⟨{ h with stored := ?_, address := haddr, version := ?_, staged := ?_, conditions := ?_,
                   idle := ?_, provisioner := ?_, missing := ?_ }, hsame⟩
  · simp [find?_withObject]
  · exact ⟨_, versionOf_withVersion hreplaced⟩
  · rw [stageOf_congr haddr haddr' hstatus', stageOf_withStatus hchanged, h.staged]
  · rw [conditionsOf_congr haddr haddr' hstatus']
    exact conditionsOf_setField hset (Fields.find?_insert _ _ fields)
  · rw [hothers _ (requestAt_ne_jobOf hkind).symm]
    exact h.idle
  · have hpart := hsame ["spec", "provisioner"] (by decide)
    simpa [Value.part?, h.provisioner] using hpart
  · rw [hothers _ ?_]
    · exact h.missing
    · intro heq
      injection heq with hk
      obtain rfl : Kind.provisioner = kind := by simpa using hk
      exact absurd hkind (by decide)

/-- A pass that misses the provisioner records that, unless the request says so. -/
theorem Waiting.recordMissing_comes (hkind : kind ∈ requestKinds)
    (h : Waiting kind id name stage request cs c) :
    Comes (fun c' _ => Waited kind id name stage request cs c c') (recordMissing kind request name) c := by
  rcases addressOf_eq_ok.mp h.address with ⟨metadata, hmeta, -, -, hname⟩
  rcases h.version with ⟨version, hversion⟩
  unfold recordMissing
  refine Pass.ensures_value h.conditions ?_
  refine Pass.ensures_value (Value.require_eq_ok.mpr hmeta) ?_
  refine comes_note hname ?_
  split
  · next hhas =>
    have htells := has_iff_tells.mp hhas
    exact comes_pure ⟨⟨request, cs, h, htells, fun _ _ => rfl⟩, fun _ => rfl,
      fun hnot => absurd htells hnot⟩
  · next hhas =>
    -- nothing tells the name yet, so the note is written, and from then on it does
    have hnot : ¬ Tells name cs := fun htells => hhas (has_iff_tells.mpr htells)
    refine ensures_recordNow ?_
    intro now
    rcases exists_withStatus h.address h.staged _ with ⟨changed, hchanged, status, hset⟩
    rcases updateStatus_of_read h.nameable h.stored h.address hversion hset with
      ⟨replaced, -, -, hreplaced, hupdate⟩
    rcases h.renoted hkind hchanged hreplaced with ⟨hwaits, hsame⟩
    refine Pass.ensures_value hchanged ?_
    refine comes_call hupdate ?_
    exact comes_pure ⟨⟨replaced, _, hwaits, tells_record name _ cs, hsame⟩,
      fun htells => absurd htells hnot, fun _ => by simp⟩

/-- The provisioner is looked for, and missing. -/
theorem Waiting.getProvisioner_misses (h : Waiting kind id name stage request cs c) :
    Pass.Ensures reliable (fun _ _ => True)
      (fun c' r => r = .error (missingProvisioner id name) ∧ c' = c) (getProvisioner request) c := by
  rcases addressOf_eq_ok.mp h.address with ⟨metadata, hmeta, -, hns, -⟩
  -- a spec in which the name is found is an object
  have hspecPart : Value.ObjectOrNone (request.field? "spec") := by
    rcases Option.bind_eq_some_iff.mp h.provisioner with ⟨spec, hspec, hfield⟩
    cases spec with
    | object fields => exact .inr (.inr ⟨fields, hspec⟩)
    | _ => cases hfield
  rcases Manifest.specOf_of_field? hmeta hspecPart with ⟨spec, hspec, hfields⟩
  have hname : (Value.object spec).fieldOrNull "provisioner" = .ok name := by
    simp only [Value.fieldOrNull, Value.fieldOr, hfields, h.provisioner, Option.getD_some]
  have hn : (⟨.text Kind.provisioner, id.ns, name⟩ : Address).nameable = true := by
    have hns := (nameable_requestAt.mp h.nameable).1
    simp [Address.nameable, hns, h.named]
  have hget : c.perform (.get (.text Kind.provisioner) (requestAt kind id).ns name) =
      (.error (Fault.missing _), c) := get_of_absent hn h.missing
  unfold getProvisioner
  refine Pass.ensures_value (Value.require_eq_ok.mpr hmeta) ?_
  refine Pass.ensures_value hns ?_
  refine Pass.ensures_value hspec ?_
  refine Pass.ensures_value hname ?_
  rw [if_pos h.given]
  refine Pass.ensures_attempt trivial ?_
  rintro reply c' ⟨rfl, rfl⟩
  rw [Cluster.reported, hget]
  exact ⟨rfl, rfl⟩

/-- A pass that needs the provisioner fails, after the request was told. -/
theorem Waiting.withProvisioner_comes (hkind : kind ∈ requestKinds)
    (h : Waiting kind id name stage request cs c) (next : Value → Pass Directive) :
    Comes (fun c' d => d = .failed (some (missingProvisioner id name)) ∧
        Waited kind id name stage request cs c c')
      (withProvisioner kind request next) c := by
  unfold withProvisioner
  rw [Comes, Pass.ensures_bind, Pass.ensures_outcome]
  refine h.getProvisioner_misses.mono (fun _ _ _ => trivial) ?_
  rintro c' r ⟨rfl, rfl⟩
  refine comes_bind ((h.recordMissing_comes hkind).mono ?_)
  intro c'' _ hwaited
  exact comes_pure ⟨rfl, hwaited⟩

/-- A pass over a request that waits fails for want of the provisioner. -/
theorem Waiting.converge_comes (hkind : kind ∈ requestKinds)
    (h : Waiting kind id name stage request cs c) :
    Comes (fun c' d => d = .failed (some (missingProvisioner id name)) ∧
        Waited kind id name stage request cs c c')
      (converge settings kind id) c := by
  rcases addressOf_eq_ok.mp h.address with ⟨metadata, hmeta, -, hns, hname⟩
  refine h.toStanding.converge_ensures ?_
  rcases h.idle with rfl | ⟨rfl, hjob⟩
  · exact h.withProvisioner_comes hkind _
  · -- the job is looked for first
    change Comes _ (observe settings kind request) c
    unfold observe
    refine Pass.ensures_value (Value.require_eq_ok.mpr hmeta) ?_
    refine Pass.ensures_value hns ?_
    refine Pass.ensures_value (Value.require_eq_ok.mpr hname) ?_
    refine comes_refused (get_of_absent (nameable_jobOf h.nameable) hjob) ?_
    refine comes_note hname ?_
    exact h.withProvisioner_comes hkind _

end Pass

/-! ## All passes -/

/-- Passes over a request, one after the other, with nobody else at work. -/
structure Passes (settings settings' : Settings) (kind : String) (id : Identity) (start : Cluster)
    (c : Nat → Cluster) (d : Nat → Directive) : Prop where
  first : c 0 = start
  next : ∀ i, Undisturbed settings settings' kind id (c i) (d i) (c (i + 1))

section Passes

variable {settings settings' : Settings} {kind : String} {id : Identity} {name : Value} {stage : Stage}
variable {request : Value} {cs : List Condition} {start : Cluster}
variable {c : Nat → Cluster} {d : Nat → Directive}

/-- Every pass comes to its end, so there can always be another one. -/
theorem exists_passes (settings settings' : Settings) (kind : String) (id : Identity) (start : Cluster) :
    ∃ c d, Passes settings settings' kind id start c d := by
  have hend : ∀ c, ∃ d c', Undisturbed settings settings' kind id c d c' :=
    Program.exists_leads_done (fun s op => ⟨_, _, s.facing_answered op⟩) _
  rcases exists_iterates hend start with ⟨c, d, hfirst, hnext⟩
  exact ⟨c, d, hfirst, hnext⟩

theorem Passes.waited (h : Passes settings settings' kind id start c d) (hkind : kind ∈ requestKinds)
    {i : Nat} (hwaits : Waiting kind id name stage request cs (c i)) :
    d i = .failed (some (missingProvisioner id name)) ∧
      Waited kind id name stage request cs (c i) (c (i + 1)) := by
  have hensures := Comes.reconcile (h := handler settings kind) settings' (hwaits.converge_comes hkind)
  exact hensures.of_leads (h.next i)

/-- After the first pass the request says what it waits for. -/
theorem Passes.tells (h : Passes settings settings' kind id start c d) (hkind : kind ∈ requestKinds)
    (hwaits : Waiting kind id name stage request cs start) (i : Nat) :
    ∃ request' cs', Waiting kind id name stage request' cs' (c (i + 1)) ∧ Tells name cs' ∧
      SameBut waitingParts request request' := by
  induction i with
  | zero =>
    rw [← h.first] at hwaits
    exact (h.waited hkind hwaits).2.waits
  | succ i ih =>
    rcases ih with ⟨request₁, cs₁, hwaits₁, -, hsame₁⟩
    rcases (h.waited hkind hwaits₁).2.waits with ⟨request₂, cs₂, hwaits₂, htells, hsame₂⟩
    exact ⟨request₂, cs₂, hwaits₂, htells, hsame₁.trans hsame₂⟩

/-- No pass after the first changes anything. -/
theorem Passes.rests (h : Passes settings settings' kind id start c d) (hkind : kind ∈ requestKinds)
    (hwaits : Waiting kind id name stage request cs start) (i : Nat) : c (i + 1) = c 1 := by
  induction i with
  | zero => rfl
  | succ i ih =>
    rcases h.tells hkind hwaits i with ⟨_, _, hwaits', htells, -⟩
    exact ((h.waited hkind hwaits').2.quiet htells).trans ih

end Passes

/-- However often a request is looked at whose provisioner is missing, every pass fails for want of that
provisioner, and all passes together make one write at most: the first pass stores what the request waits
for, unless the first condition that says that a provisioner is missing names this one already. Stage, spec
and metadata stay as they are, but for the version. -/
theorem waiting_writes_at_most_once (settings settings' : Settings) {kind : String} {id : Identity}
    {name : Value} {stage : Stage} {request : Value} {cs : List Condition} {start : Cluster}
    (hkind : kind ∈ requestKinds) (hwaits : Waiting kind id name stage request cs start) :
    (∃ c d, Passes settings settings' kind id start c d) ∧
      ∀ c d, Passes settings settings' kind id start c d →
        (∀ i, d i = .failed (some (missingProvisioner id name))) ∧
        (Tells name cs → ∀ i, c i = start) ∧
        (¬ Tells name cs →
          (c 1).journal = start.journal ++ [⟨"update_status", requestAt kind id⟩] ∧
            ∀ i, c (i + 1) = c 1) ∧
        ∀ i, ∃ stored, (c i).find? (requestAt kind id) = some stored ∧
          stageOf stored = .ok stage ∧ SameBut waitingParts request stored := by
  refine ⟨exists_passes settings settings' kind id start, fun c d hpasses => ?_⟩
  obtain rfl := hpasses.first
  rcases hpasses.waited hkind hwaits with ⟨hfails, hwaited⟩
  -- after the first pass the request tells the name, and nothing is written any more
  have hrests := hpasses.rests hkind hwaits
  refine ⟨?_, ?_, ?_, ?_⟩
  · intro i
    cases i with
    | zero => exact hfails
    | succ i =>
      rcases hpasses.tells hkind hwaits i with ⟨_, _, hwaits', -⟩
      exact (hpasses.waited hkind hwaits').1
  · intro htells i
    cases i with
    | zero => rfl
    | succ i => exact (hrests i).trans (hwaited.quiet htells)
  · intro hnot
    exact ⟨hwaited.noted hnot, hrests⟩
  · intro i
    cases i with
    | zero => exact ⟨request, hwaits.stored, hwaits.staged, fun _ _ => rfl⟩
    | succ i =>
      rcases hpasses.tells hkind hwaits i with ⟨request', _, hwaits', -, hsame⟩
      exact ⟨request', hwaits'.stored, hwaits'.staged, hsame⟩

/-- Conditions of all sorts: a provisioner that was found, one without a status, another one that is missing,
and something that is not even a condition. -/
def sampleConditions : List Condition :=
  [[("type", .text ConditionType.provisionerNotFound), ("status", .text "False"),
      ("message", .text "Provisioner is available")],
    [("type", .text ConditionType.provisionerNotFound)],
    [("type", .text ConditionType.provisionerNotFound), ("status", .text "True"),
      ("message", .text "Waiting for provisioner mysql")], []]

/-- A request for a database in `Creating` that has these conditions. -/
def stuckRequest : Value :=
  .object [("kind", .text Kind.resource),
    ("metadata", .object [("name", .text "db"), ("resourceVersion", .text "7")]),
    ("spec", .object [("provisioner", .text "postgres")]),
    ("status", .object [("lifecycleStage", .text "Creating"),
      ("conditions", conditionList sampleConditions)])]

def stuckCluster : Cluster :=
  ⟨[(requestAt Kind.resource sampleId, stuckRequest)], 7, []⟩

theorem waiting_stuckRequest :
    Waiting Kind.resource sampleId (.text "postgres") .creating stuckRequest sampleConditions
      stuckCluster where
  stored := rfl
  address := rfl
  nameable := rfl
  version := ⟨_, rfl⟩
  staged := rfl
  conditions := rfl
  idle := .inr ⟨rfl, rfl⟩
  provisioner := rfl
  given := rfl
  named := rfl
  missing := rfl

theorem stuck_request_writes_once :
    ∃ c d, Passes {} {} Kind.resource sampleId stuckCluster c d ∧
      (c 1).journal = [⟨"update_status", requestAt Kind.resource sampleId⟩] ∧
      ∀ i, c (i + 1) = c 1 ∧
        d i = .failed (some (missingProvisioner sampleId (.text "postgres"))) := by
  have hnot : ¬ Tells (.text "postgres") sampleConditions := by
    rw [← has_iff_tells]
    decide
  obtain ⟨⟨c, d, hpasses⟩, hall⟩ :=
    waiting_writes_at_most_once {} {} (by decide) waiting_stuckRequest
  rcases hall c d hpasses with ⟨hfails, -, hwrites, -⟩
  rcases hwrites hnot with ⟨hjournal, hrest⟩
  exact ⟨c, d, hpasses, hjournal, fun i => ⟨hrest i, hfails i⟩⟩

end Provisioning

end Reconciler
