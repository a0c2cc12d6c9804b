import Reconciler.Proofs.Provisioning.Calls
import Reconciler.Proofs.Schedule
import Mathlib.Data.List.Destutter

/-! # Stages only move forward

A pass decides where a request goes by the copy it read, which may be stale by the time it writes. What
saves it is the version: a copy with the version of the stored request has its status, so a write made
from any other copy is refused (`Seen`).

Main statements:

* `StatusWrite.moves`: a status that a pass may store is a legal move away from the copy it read;
* `Staged.step`: one step of any interleaving keeps or legally moves the stored stage;
* `stages_only_move_forward`: so every run goes through the stages in order.
-/

namespace Reconciler

namespace Stage

/-- The stages a request went through to get to a stage, the latest first. -/
def path : Stage → List Stage
  | unset => [unset]
  | creating => [creating, unset]
  | ready => [ready, creating, unset]
  | failed => [failed, creating, unset]

/-- A request may stay in its stage. -/
theorem canAdvanceTo_self (stage : Stage) : stage.canAdvanceTo stage = true := by
  cases stage <;> rfl

/-- A legal move stays or goes one stage further. -/
theorem path_of_canAdvanceTo {stage after : Stage} (h : stage.canAdvanceTo after = true) :
    after = stage ∨ after ≠ stage ∧ after.path = after :: stage.path := by
  revert h
  cases stage <;> cases after <;> decide

end Stage

namespace Provisioning

open Cluster

/-! ## The stage a write stores -/

theorem ofValue_name (stage : Stage) :
    Stage.ofValue ((Value.text stage.name).orElse (.text "")) = .ok stage := by
  cases stage <;> decide

/-- A status that keeps its stage field keeps its stage. -/
theorem ofStatus_merge {old status : Value} {fields changes : Fields}
    (hstatus : old.orElse (.object []) = status) (hfields : status.spread = .ok fields)
    (hne : changes ≠ []) (hkeep : ∀ change ∈ changes, change.1 ≠ "lifecycleStage") :
    Stage.ofStatus (.object (Fields.merge fields changes)) = Stage.ofStatus old := by
  obtain rfl := Value.spread_eq_ok.mp hfields
  have htruthy := Value.truthy_object (Fields.merge_ne_nil hne fields)
  simp only [Stage.ofStatus, hstatus, Value.orElse_of_truthy htruthy, Value.fieldOrNull,
    Value.fieldOr, Fields.find?_merge_of_not_mem changes hkeep]

/-- A status that is given a stage has that stage. -/
theorem ofStatus_advanced (fields : Fields) (stage : Stage) (conditions generation : Value) :
    Stage.ofStatus (.object (Fields.merge fields [("lifecycleStage", .text stage.name),
      ("conditions", conditions), ("observedGeneration", generation)])) = .ok stage := by
  have htruthy : (Value.object (Fields.merge fields [("lifecycleStage", .text stage.name),
      ("conditions", conditions), ("observedGeneration", generation)])).truthy = true :=
    Value.truthy_object (Fields.merge_ne_nil (by simp) fields)
  have hfind : Fields.find? "lifecycleStage" (Fields.merge fields
      [("lifecycleStage", .text stage.name), ("conditions", conditions),
       ("observedGeneration", generation)]) = some (.text stage.name) := by
    simp only [Fields.merge]
    rw [Fields.find?_insert_of_ne (by decide), Fields.find?_insert_of_ne (by decide),
      Fields.find?_insert]
  simp only [Stage.ofStatus, Value.orElse_of_truthy htruthy, Value.fieldOrNull, Value.fieldOr, hfind,
    Option.getD_some, bind, Except.bind, ofValue_name]

theorem stageOf_setField {request status o : Value} (h : request.setField "status" status = .ok o) :
    stageOf o = Stage.ofStatus status := by
  simp only [stageOf, Value.fieldOrNull, Value.fieldOr_of_field? (Value.field?_setField h), bind,
    Except.bind]

theorem stageOf_withStatus {request o conditions : Value}
    (h : withStatus request [("conditions", conditions)] = .ok o) : stageOf o = stageOf request := by
  simp only [withStatus, statusOf, bind_eq_ok, pure_eq_ok] at h
  rcases h with ⟨_, ⟨old, hold, rfl⟩, fields, hfields, hset⟩
  rw [stageOf_setField hset, ofStatus_merge rfl hfields (by simp) (by simp)]
  simp only [stageOf, hold, bind, Except.bind]

/-- A request that is advanced was not finished, and goes where its stage may go. -/
theorem advanced_moves {request conditions o : Value} {current target : Stage}
    (hopen : current.isFinal = false)
    (h : advanced request target conditions = .ok (current, o)) :
    ∃ before after status, stageOf request = .ok before ∧ before.isFinal = false ∧
      stageOf o = .ok after ∧ before.canAdvanceTo after = true ∧
      request.setField "status" status = .ok o := by
  rcases of_advanced h with ⟨hstage, hmove, _, fields, generation, -, -, hset⟩
  refine ⟨current, target, _, hstage, hopen, ?_, hmove, hset⟩
  rw [stageOf_setField hset, ofStatus_advanced]

/-- A status that a pass may store changes nothing else of the request it read, and is a legal move
away from a stage that is not final. -/
theorem StatusWrite.moves {h : History} {request o : Value} (hw : StatusWrite h request o) :
    ∃ before after status, stageOf request = .ok before ∧ before.isFinal = false ∧
      stageOf o = .ok after ∧ before.canAdvanceTo after = true ∧
      request.setField "status" status = .ok o := by
  cases hw with
  | @waiting stage _ _ _ _ hstage hopen _ _ hset =>
    have hset' := hset
    simp only [withStatus, bind_eq_ok] at hset'
    rcases hset' with ⟨_, -, _, -, hset'⟩
    refine ⟨stage, stage, _, hstage, hopen, (stageOf_withStatus hset).trans hstage, ?_, hset'⟩
    cases stage <;> rfl
  | starting _ _ hadvanced => exact advanced_moves rfl hadvanced
  | completing _ _ _ _ hadvanced => exact advanced_moves rfl hadvanced
  | failing _ _ _ _ hadvanced => exact advanced_moves rfl hadvanced

/-! ## One step of an interleaving -/

/-- The stage stored at an address, if a request with a known stage is there. -/
def stageAt (a : Address) (c : Cluster) : Option Stage :=
  (c.find? a).bind fun request => (stageOf request).toOption

/-- What others may do while a request is worked on: anything to other objects; and the request may be
edited, except for its status, if it takes a new version. -/
structure Edits (a : Address) (c c' : Cluster) : Prop where
  version : c.version ≤ c'.version
  request : c'.find? a = c.find? a ∨
    ∃ before after, c.find? a = some before ∧ c'.find? a = some after ∧
      addressOf after = .ok a ∧ after.field? "status" = before.field? "status" ∧
      c.version < c'.version ∧ versionOf after = some (.text (toString c'.version))

/-- What a copy of the stored request says: with the version of the stored one it has its status. -/
structure Seen (a : Address) (c : Cluster) (stored copy : Value) : Prop where
  address : addressOf copy = .ok a
  versioned : Versioned c copy
  status : versionOf copy = versionOf stored → copy.field? "status" = stored.field? "status"

/-- A request with a known stage is stored, and every pass has read what it or an older one was. -/
structure Staged (kind : String) (id : Identity) (stage : Stage) (s : System) : Prop where
  sound : s.Sound (MayAsk kind id)
  stored : ∃ request, s.cluster.find? (requestAt kind id) = some request ∧
    stageOf request = .ok stage ∧ Seen (requestAt kind id) s.cluster request request ∧
    ∀ h ∈ s.histories, ∀ copy ∈ h.reads (requestAt kind id),
      Seen (requestAt kind id) s.cluster request copy

/-- What a copy says of the stored request, it says while the request stays as it is. -/
theorem Seen.mono {a : Address} {c c' : Cluster} {stored copy : Value} (h : Seen a c stored copy)
    (hle : c.version ≤ c'.version) : Seen a c' stored copy :=
  ⟨h.address, h.versioned.mono hle, h.status⟩

/-- A request stored under a new version makes every copy stale. -/
theorem Seen.stale {a : Address} {c c' : Cluster} {stored copy replaced : Value}
    (h : Seen a c stored copy) (hlt : c.version < c'.version)
    (hversion : versionOf replaced = some (.text (toString c'.version))) :
    Seen a c' replaced copy := by
  refine ⟨h.address, h.versioned.mono (Nat.le_of_lt hlt), fun heq => ?_⟩
  exact absurd (heq.trans hversion) (h.versioned.ne_of_lt hlt)

theorem stageOf_congr {v w : Value} {a b : Address} (hv : addressOf v = .ok a)
    (hw : addressOf w = .ok b) (h : v.field? "status" = w.field? "status") :
    stageOf v = stageOf w := by
  rcases addressOf_eq_ok.mp hv with ⟨_, hmv, -⟩
  rcases addressOf_eq_ok.mp hw with ⟨_, hmw, -⟩
  simp only [stageOf, Value.fieldOrNull, Value.fieldOr_eq_getD hmv, Value.fieldOr_eq_getD hmw, h]

section Step

variable {kind : String} {id : Identity} {stage : Stage} {s s' : System}
variable {begins : SafePass Directive → Prop}

/-- A step that leaves the request alone, and after which every copy was already read or is the stored
request, keeps everything. -/
theorem Staged.of_kept (hs : Staged kind id stage s) (hsound : s'.Sound (MayAsk kind id))
    (hfind : s'.cluster.find? (requestAt kind id) = s.cluster.find? (requestAt kind id))
    (hle : s.cluster.version ≤ s'.cluster.version)
    (hreads : ∀ h' ∈ s'.histories, ∀ copy ∈ h'.reads (requestAt kind id),
      (∃ h ∈ s.histories, copy ∈ h.reads (requestAt kind id)) ∨
        s.cluster.find? (requestAt kind id) = some copy) :
    Staged kind id stage s' := by
  rcases hs.stored with ⟨request, hstored, hstage, hself, hcopies⟩
  refine ⟨hsound, request, hfind.trans hstored, hstage, hself.mono hle, ?_⟩
  intro h' hh' copy hcopy
  rcases hreads h' hh' copy hcopy with ⟨h, hh, hmem⟩ | hnow
  · exact (hcopies h hh copy hmem).mono hle
  · obtain rfl : request = copy := Option.some.inj (hstored.symm.trans hnow)
    exact hself.mono hle

/-- A step that stores the request under a new version makes all copies stale. -/
theorem Staged.of_replaced {after : Stage} {replaced : Value} (hs : Staged kind id stage s)
    (hsound : s'.Sound (MayAsk kind id))
    (hfind : s'.cluster.find? (requestAt kind id) = some replaced)
    (hstage : stageOf replaced = .ok after) (haddr : addressOf replaced = .ok (requestAt kind id))
    (hlt : s.cluster.version < s'.cluster.version)
    (hversion : versionOf replaced = some (.text (toString s'.cluster.version)))
    (hreads : ∀ h' ∈ s'.histories, ∀ copy ∈ h'.reads (requestAt kind id),
      (∃ h ∈ s.histories, copy ∈ h.reads (requestAt kind id)) ∨
        s.cluster.find? (requestAt kind id) = some copy) :
    Staged kind id after s' := by
  rcases hs.stored with ⟨request, hstored, -, hself, hcopies⟩
  refine ⟨hsound, replaced, hfind, hstage, ⟨haddr, ⟨_, Nat.le_refl _, hversion⟩, fun _ => rfl⟩, ?_⟩
  intro h' hh' copy hcopy
  rcases hreads h' hh' copy hcopy with ⟨h, hh, hmem⟩ | hnow
  · exact (hcopies h hh copy hmem).stale hlt hversion
  · obtain rfl : request = copy := Option.some.inj (hstored.symm.trans hnow)
    exact hself.stale hlt hversion

/-- A status that was made from a copy is only stored when the copy had the status of the request. -/
theorem Seen.updateStatus {a : Address} {c : Cluster} {stored copy status o : Value}
    (hseen : Seen a c stored copy) (hself : Seen a c stored stored)
    (hstored : c.find? a = some stored)
    (hset : copy.setField "status" status = .ok o) :
    (c.updateStatus o).2 = c ∨
      ∃ replaced, (c.updateStatus o).2 =
          (c.bumped.withObject a replaced).recorded "update_status" a ∧
        copy.field? "status" = stored.field? "status" ∧ addressOf replaced = .ok a ∧
        replaced.field? "status" = some status ∧ versionOf replaced = some c.nextVersion := by
  have haddr : addressOf o = .ok a := by
    rw [addressOf_setField hset (by decide) (by decide), hseen.address]
  have hversion : versionOf o = versionOf copy := versionOf_setField hset (by decide)
  have hversioned : Versioned c o := by
    rw [Versioned, hversion]
    exact hseen.versioned
  -- a write that is not refused has the version of the stored request, so the copy had it too
  rcases updateStatus_cases c o with ⟨f, hrefused⟩ |
    ⟨b, current, sent, base, replaced, hb, hcurrent, hsent, hbase, hreplaced, hdone⟩
  · exact .inl (congrArg Prod.snd hrefused)
  · obtain rfl : a = b := Except.ok.inj (haddr.symm.trans hb)
    obtain rfl : stored = current :=
      Option.some.inj (hstored.symm.trans (of_current hcurrent).1)
    have hsame := versionOf_of_current hversioned hcurrent
    obtain rfl : status = sent := by
      rw [Value.fieldOrNull, Value.fieldOr_of_field? (Value.field?_setField hset)] at hsent
      exact Except.ok.inj hsent
    refine .inr ⟨replaced, congrArg Prod.snd hdone, hseen.status ?_, ?_, ?_, ?_⟩
    · rw [hsame, hversion]
    · rw [addressOf_withVersion hreplaced, addressOf_setField hbase (by decide) (by decide),
        hself.address]
    · rw [field?_withVersion hreplaced (by decide), Value.field?_setField hbase]
    · exact versionOf_withVersion hreplaced

theorem isChild_provisioningJob {request provisioner job : Value}
    (h : Manifest.provisioningJob request provisioner = .ok job) : IsChild Kind.job job := by
  simp only [Manifest.provisioningJob, bind_eq_ok, pure_eq_ok] at h
  obtain ⟨_, -, _, -, _, -, _, -, _, -, _, -, _, -, rfl⟩ := h
  exact .of_ne rfl (by decide)

/-- A job is not stored where a request is. -/
theorem find?_createJob {request provisioner job : Value} (hkind : kind ∈ requestKinds)
    (hjob : Manifest.provisioningJob request provisioner = .ok job) (id : Identity) (c : Cluster) :
    (c.create job).2.find? (requestAt kind id) = c.find? (requestAt kind id) ∧
      c.version ≤ (c.create job).2.version := by
  have hjobKind : job.field? "kind" = some (.text Kind.job) := (isChild_provisioningJob hjob).ofKind
  rcases create_cases c job with ⟨f, hrefused⟩ | ⟨a, stored, haddr, -, -, -, -, hdone⟩
  · rw [hrefused]
    exact ⟨rfl, Nat.le_refl _⟩
  · have hne : requestAt kind id ≠ a := by
      rintro rfl
      rcases addressOf_eq_ok.mp haddr with ⟨_, -, hk, -⟩
      obtain rfl : kind = Kind.job := by simpa [requestAt, hjobKind, eq_comm] using hk
      exact absurd hkind (by decide)
    rw [hdone]
    refine ⟨?_, by simp⟩
    simp [find?_withObject, hne]

/-- A permitted write of the status, whether it took effect or not, keeps the stored stage or moves it
forward. -/
theorem Staged.of_write {h : History} {copy o : Value} {c : Cluster} (hs : Staged kind id stage s)
    (hsound : s'.Sound (MayAsk kind id)) (hh : h ∈ s.histories)
    (hread : h.reads (requestAt kind id) = [copy]) (hwrite : StatusWrite h copy o)
    (hafter : s'.cluster = c) (hc : c = s.cluster ∨ c = (s.cluster.updateStatus o).2)
    (hreads : ∀ h' ∈ s'.histories, ∀ copy ∈ h'.reads (requestAt kind id),
      (∃ h ∈ s.histories, copy ∈ h.reads (requestAt kind id)) ∨
        s.cluster.find? (requestAt kind id) = some copy) :
    ∃ after, stage.canAdvanceTo after = true ∧ Staged kind id after s' := by
  rcases hs.stored with ⟨request, hstored, hstage, hself, hcopies⟩
  have hseen := hcopies h hh copy (by simp [hread])
  rcases hwrite.moves with ⟨before, after, status, hbefore, hopen, hmoved, hmove, hset⟩
  have hkept : s'.cluster = s.cluster →
      ∃ after, stage.canAdvanceTo after = true ∧ Staged kind id after s' := fun heq =>
    ⟨stage, Stage.canAdvanceTo_self stage,
      hs.of_kept hsound (by rw [heq]) (by rw [heq]) hreads⟩
  -- the write may have been refused, may have failed before it took effect, or took effect
  rcases hc with rfl | rfl
  · exact hkept hafter
  · rcases hseen.updateStatus hself hstored hset with hsame |
      ⟨replaced, hdone, hstatus, haddr, hfield, hversion⟩
    · exact hkept (hafter.trans hsame)
    · -- the copy was up to date, so the move away from it is a move of the stored request
      obtain rfl : stage = before := by
        have hsame := stageOf_congr hseen.address hself.address hstatus
        rw [hbefore, hstage] at hsame
        exact (Except.ok.inj hsame).symm
      have hcluster := hafter.trans hdone
      have hstage' : stageOf replaced = .ok after := by
        rw [← hmoved, stageOf_setField hset]
        simp only [stageOf, Value.fieldOrNull, Value.fieldOr_of_field? hfield, bind, Except.bind]
      refine ⟨after, hmove, hs.of_replaced hsound ?_ hstage' haddr ?_ ?_ hreads⟩
      · simp [hcluster, find?_withObject]
      · simp [hcluster]
      · rw [hversion, hcluster]
        rfl

/-- One step of any interleaving keeps the stored stage or moves it forward. -/
theorem Staged.step (hkind : kind ∈ requestKinds)
    (hbegins : ∀ p, begins p → SafePass.Ensures noted (MayAsk kind id) (fun _ _ => True) p [])
    (hs : Staged kind id stage s)
    (hstep : System.Step begins (Edits (requestAt kind id)) s s') :
    ∃ after, stage.canAdvanceTo after = true ∧ Staged kind id after s' := by
  have hsound := hstep.sound hbegins hs.sound
  have hstay := Stage.canAdvanceTo_self stage
  have hreads : ∀ h' ∈ s'.histories, ∀ copy ∈ h'.reads (requestAt kind id),
      (∃ h ∈ s.histories, copy ∈ h.reads (requestAt kind id)) ∨
        s.cluster.find? (requestAt kind id) = some copy := fun h' hh' copy hcopy =>
    hstep.reads hs.sound hh' hcopy
  rcases hstep.change hs.sound with ⟨hout, -⟩ | ⟨hcluster, -⟩ |
    ⟨h, hh, call, reply, -, hmay, hanswer, -⟩
  · -- others left the request alone, or edited it; then it has a new version and the old status
    rcases hs.stored with ⟨request, hstored, hstage, hself, -⟩
    rcases hout.request with hsame | ⟨before, edited, hb, ha, haddr, hstatus, hlt, hversion⟩
    · exact ⟨stage, hstay, hs.of_kept hsound hsame hout.version hreads⟩
    · obtain rfl : request = before := Option.some.inj (hstored.symm.trans hb)
      have hstage' : stageOf edited = .ok stage :=
        (stageOf_congr haddr hself.address hstatus).trans hstage
      exact ⟨stage, hstay, hs.of_replaced hsound ha hstage' haddr hlt hversion hreads⟩
  · exact ⟨stage, hstay, hs.of_kept hsound (by rw [hcluster]) (by rw [hcluster]) hreads⟩
  · -- a call: what it was is known from what the pass may do
    cases hmay with
    | request _ | other _ =>
      have heq := eq_of_fetching hanswer
      exact ⟨stage, hstay, hs.of_kept hsound (by rw [heq]) (by rw [heq]) hreads⟩
    | job _ _ _ hjob =>
      rcases after_unreliable hanswer with heq | heq
      · exact ⟨stage, hstay, hs.of_kept hsound (by rw [heq]) (by rw [heq]) hreads⟩
      · rcases find?_createJob hkind hjob id s.cluster with ⟨hfind, hle⟩
        exact ⟨stage, hstay, hs.of_kept hsound (by rw [heq]; exact hfind) (by rw [heq]; exact hle)
          hreads⟩
    | status hread hwrite =>
      exact hs.of_write hsound hh hread hwrite rfl (after_unreliable hanswer) hreads

end Step

/-! ## Runs -/

/-- A pass over a request, with any settings. -/
def PassOver (kind : String) (id : Identity) (p : SafePass Directive) : Prop :=
  ∃ settings settings', p = (handler settings kind).reconcile settings' id

theorem PassOver.asks {kind : String} {id : Identity} (hkind : kind ∈ requestKinds)
    (p : SafePass Directive) (hp : PassOver kind id p) :
    SafePass.Ensures noted (MayAsk kind id) (fun _ _ => True) p [] := by
  rcases hp with ⟨settings, settings', rfl⟩
  exact reconcile_asks hkind settings'

theorem Staged.stageAt {kind : String} {id : Identity} {stage : Stage} {s : System}
    (h : Staged kind id stage s) : stageAt (requestAt kind id) s.cluster = some stage := by
  rcases h.stored with ⟨request, hstored, hstage, -⟩
  simp [Provisioning.stageAt, hstored, hstage, Except.toOption]

/-- Of the stages that a run stored, those that differ from the one before are a path of the
lifecycle. -/
theorem Staged.run {kind : String} {id : Identity} {first : System} {states : List System}
    (hkind : kind ∈ requestKinds) (hfirst : Staged kind id .unset first)
    (hrun : System.Run (System.Step (PassOver kind id) (Edits (requestAt kind id))) first states) :
    ∃ s past stage, states = s :: past ∧ Staged kind id stage s ∧
      (states.map fun s => Provisioning.stageAt (requestAt kind id) s.cluster).destutter (· ≠ ·) =
        stage.path.map some := by
  induction hrun with
  | start => exact ⟨_, _, _, rfl, hfirst, by simp [hfirst.stageAt, Stage.path]⟩
  | @next s s' past hrun hstep ih =>
    rcases ih with ⟨_, _, stage, ⟨⟩, hs, hpath⟩
    rcases hs.step hkind (PassOver.asks hkind) hstep with ⟨after, hmove, hs'⟩
    refine ⟨_, _, after, rfl, hs', ?_⟩
    simp only [List.map_cons, hs.stageAt, hs'.stageAt] at hpath ⊢
    -- the path stays as it is, or has one more stage at its front
    rcases Stage.path_of_canAdvanceTo hmove with rfl | ⟨hne, hpath'⟩
    · rw [← hpath, List.destutter_cons_cons]
      simp [List.destutter_cons']
    · rw [List.destutter_cons_cons, if_pos (by simpa using hne), hpath', ← List.destutter_cons', hpath]
      rfl

/-- A pass that found its request finished, or in a stage it does not know, makes no write. -/
theorem asked_no_write {kind : String} {id : Identity} {h : History}
    (hasked : Asked (MayAsk kind id) h) {copy : Value}
    (hcopy : copy ∈ h.reads (requestAt kind id))
    (hfinal : ∀ stage, stageOf copy = .ok stage → stage.isFinal = true) :
    ∀ exchange ∈ h, exchange.1.writes = false := by
  induction hasked with
  | nil => simp
  | @snoc h call reply hasked hmay ih =>
    intro exchange hexchange
    rcases History.mem_reads_append hcopy with hold | ⟨rfl, rfl⟩
    · rcases List.mem_append.mp hexchange with hbefore | hlast
      · exact ih hold exchange hbefore
      · obtain rfl : exchange = (call, reply) := by simpa using hlast
        cases hmay with
        | request _ | other _ => rfl
        | @job request _ _ _ hread hstage hopen _ =>
          obtain rfl : copy = request := by simpa [hread] using hold
          simp [hfinal _ hstage] at hopen
        | @status request _ hread hwrite =>
          obtain rfl : copy = request := by simpa [hread] using hold
          rcases hwrite.moves with ⟨before, _, _, hbefore, hopen, -⟩
          simp [hfinal _ hbefore] at hopen
    · -- the request is read first, so nothing was asked before
      cases hmay with
      | request hnil =>
        subst hnil
        obtain rfl : exchange = _ := List.mem_singleton.mp hexchange
        rfl
      | other hne => exact absurd rfl hne

/-- Whatever passes, edits and failing calls come in whatever order, the stages that a request is stored
with go from unset to `Creating` and from there to `Ready` or `Failed`, each at most once. And whatever
a pass is answered, it makes no write after it found its request in `Ready`, in `Failed` or in a stage
it does not know. -/
theorem stages_only_move_forward {kind : String} {id : Identity} {c : Cluster} {request : Value}
    {states : List System} (hkind : kind ∈ requestKinds)
    (hstored : c.find? (requestAt kind id) = some request)
    (haddr : addressOf request = .ok (requestAt kind id)) (hversion : Versioned c request)
    (hunset : stageOf request = .ok .unset)
    (hrun : System.Run (System.Step (PassOver kind id) (Edits (requestAt kind id)))
      (System.idle c) states) :
    ((states.map fun s => stageAt (requestAt kind id) s.cluster).destutter (· ≠ ·) <:+
        [some .ready, some .creating, some .unset] ∨
      (states.map fun s => stageAt (requestAt kind id) s.cluster).destutter (· ≠ ·) <:+
        [some .failed, some .creating, some .unset]) ∧
    ∀ other ∈ requestKinds, ∀ id p rest h copy, PassOver other id p →
      Program.Leads (facing noted) p [] rest h → copy ∈ h.reads (requestAt other id) →
      stageOf copy = .ok .ready ∨ stageOf copy = .ok .failed ∨
        (∃ message, stageOf copy = .error (.badValue message)) →
      ∀ exchange ∈ h, exchange.1.writes = false := by
  constructor
  · -- the first state has the stage unset, and each path is one of five
    have hfirst : Staged kind id .unset (System.idle c) :=
      ⟨System.sound_idle c, request, hstored, hunset, ⟨haddr, hversion, fun _ => rfl⟩,
        by simp [System.histories, System.idle]⟩
    rcases hfirst.run hkind hrun with ⟨s, past, stage, -, -, hpath⟩
    rw [hpath]
    cases stage <;> simp [Stage.path, List.suffix_cons_iff]
  · intro other hother id p rest h copy hp hrun hcopy hfound
    -- every call of the pass was permitted when it was made
    refine asked_no_write (asked_of_leads .nil (hp.asks hother) hrun) hcopy ?_
    intro stage hstage
    rcases hfound with hready | hfailed | ⟨message, hunknown⟩
    · rw [hready] at hstage
      cases hstage
      rfl
    · rw [hfailed] at hstage
      cases hstage
      rfl
    · rw [hunknown] at hstage
      cases hstage

/-! ### A request that is completed -/

theorem edits_edited {a b : Address} (hne : a ≠ b) (change : Value → Except Fault Value)
    (c : Cluster) : Edits a c (edited b change c) := by
  rcases edited_cases b change c with h | ⟨before, after, -, -, h⟩
  · rw [h]
    exact ⟨Nat.le_refl _, .inl rfl⟩
  · rw [h]
    refine ⟨Nat.le_refl _, .inl ?_⟩
    simp [find?_withObject, hne]

def sampleRequest (kind : String) : Value :=
  .object [("apiVersion", .text apiGroupVersion), ("kind", .text kind),
    ("metadata", .object [("name", .text "db"), ("namespace", .text "default"),
      ("uid", .text s!"uid-{kind}")]),
    ("spec", .object [("provisioner", .text "postgres")])]

def sampleProvisioner : Value :=
  .object [("apiVersion", .text apiGroupVersion), ("kind", .text Kind.provisioner),
    ("metadata", .object [("name", .text "postgres"), ("namespace", .text "default")]),
    ("spec", .object [("image", .text "postgres-provisioner")])]

def sampleId : Identity := ⟨.text "default", .text "db"⟩

def sampleCluster (kind : String) : Cluster :=
  ((Cluster.empty.put sampleProvisioner).2.put (sampleRequest kind)).2

def completeSampleJob : Cluster → Cluster :=
  edited ⟨.text Kind.job, .text "default", .text "db"⟩ fun job =>
    job.setField "status" (.object [("conditions", .list [.object [("type", .text "Complete")]])])

/-- One pass starts the job; it completes; another pass finds it. -/
def sampleMoves (kind : String) : List System.Move :=
  let pass := (handler {} kind).reconcile {} sampleId
  .begin pass :: List.replicate 30 (.turn 0) ++ [.outside completeSampleJob, .begin pass]
    ++ List.replicate 30 (.turn 1)

def sampleStates (kind : String) : List System :=
  (System.idle (sampleCluster kind)).played [] (sampleMoves kind)

theorem sampleMoves_allowed (kind : String) (hkind : kind ∈ requestKinds) :
    ∀ move ∈ sampleMoves kind,
      move.Allowed (PassOver kind sampleId) (Edits (requestAt kind sampleId)) := by
  have hne : requestAt kind sampleId ≠ ⟨.text Kind.job, .text "default", .text "db"⟩ := by
    intro heq
    injection heq with hk
    obtain rfl : kind = Kind.job := by simpa using hk
    exact absurd hkind (by decide)
  simp only [sampleMoves, List.forall_mem_append, List.forall_mem_cons, List.mem_replicate]
  refine ⟨⟨⟨⟨_, _, rfl⟩, ?_⟩, ?_, ⟨_, _, rfl⟩, by simp⟩, ?_⟩
  · rintro move ⟨-, rfl⟩
    trivial
  · exact edits_edited hne _
  · rintro move ⟨-, rfl⟩
    trivial

theorem sample_request_moves_forward :
    ((sampleStates Kind.resource).map fun s =>
        stageAt (requestAt Kind.resource sampleId) s.cluster).destutter (· ≠ ·) =
      [some .ready, some .creating, some .unset] ∧
    (((sampleStates Kind.resource).map fun s =>
        stageAt (requestAt Kind.resource sampleId) s.cluster).destutter (· ≠ ·) <:+
        [some .ready, some .creating, some .unset] ∨
      ((sampleStates Kind.resource).map fun s =>
        stageAt (requestAt Kind.resource sampleId) s.cluster).destutter (· ≠ ·) <:+
        [some .failed, some .creating, some .unset]) := by
  have hkind : Kind.resource ∈ requestKinds := by decide
  have hrun := System.run_of_moves (sampleMoves_allowed Kind.resource hkind)
    (System.idle (sampleCluster Kind.resource))
  exact ⟨by decide +kernel,
    (stages_only_move_forward hkind rfl rfl ⟨2, by decide, rfl⟩ rfl hrun).1⟩

end Provisioning

end Reconciler
