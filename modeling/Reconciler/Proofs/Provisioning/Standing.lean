import Reconciler.Proofs.Posting
import Reconciler.Proofs.Provisioning.Conditions

/-! # Passes over a stored request

What a pass does with a request that is stored with a stage and with conditions that can be read, when
nothing gets in its way, whatever else the request says.

Main definitions and statements:

* `Standing`: a request that is stored, with its stage and its conditions;
* `Standing.converge_posts`: a pass goes on as the stage asks;
* `Moved`, `Standing.advance_posts`: what a move to another stage stores.
-/

namespace Reconciler

open Cluster

namespace Provisioning

/-- A cluster with a request whose stage and conditions can be read. -/
structure Standing (kind : String) (id : Identity) (stage : Stage) (request : Value)
    (cs : List Condition) (c : Cluster) : Prop where
  stored : c.find? (requestAt kind id) = some request
  address : addressOf request = .ok (requestAt kind id)
  nameable : (requestAt kind id).nameable = true
  version : ∃ version, versionOf request = some (.text version)
  staged : stageOf request = .ok stage
  conditions : conditionsOf request = .ok cs

/-- A request entered a stage with some conditions, and nothing but the request was changed. -/
def Moved (kind : String) (id : Identity) (stage : Stage) (cs : List Condition) (c c' : Cluster) :
    Prop :=
  ∃ replaced, stageOf replaced = .ok stage ∧ conditionsOf replaced = .ok cs ∧
    c' = (c.bumped.withObject (requestAt kind id) replaced).recorded "update_status" (requestAt kind id)

/-- What a pass does with a request in a stage. -/
def passIn (settings : Settings) (kind : String) (request : Value) : Stage → Pass Directive
  | .unset => start kind request
  | .creating => observe settings kind request
  | .ready | .failed => pure .done

variable {settings : Settings} {kind : String} {id : Identity} {stage target : Stage}
variable {request : Value} {cs : List Condition} {c c' : Cluster} {events : List ClusterEvent}

/-! ## Changes that can be made -/

theorem status_of_staged {a : Address} (haddr : addressOf request = .ok a)
    (hstage : stageOf request = .ok stage) :
    ∃ status, request.fieldOrNull "status" = .ok status ∧ Stage.ofStatus status = .ok stage := by
  rcases addressOf_eq_ok.mp haddr with ⟨_, hmeta, -⟩
  have hread : request.fieldOrNull "status" = .ok ((request.field? "status").getD .null) :=
    Value.fieldOr_eq_getD hmeta
  refine ⟨_, hread, ?_⟩
  simpa only [stageOf, hread, bind, Except.bind] using hstage

/-- The status of a request whose stage is known is an object, or stands for one. -/
theorem exists_statusFields {a : Address} (haddr : addressOf request = .ok a)
    (hstage : stageOf request = .ok stage) : ∃ fields, statusOf request = .ok (.object fields) := by
  rcases status_of_staged haddr hstage with ⟨status, hread, hofStatus⟩
  simp only [Stage.ofStatus, bind_eq_ok] at hofStatus
  rcases hofStatus with ⟨stored, hstored, -⟩
  rcases Value.fieldOr_eq_ok.mp hstored with ⟨fields, hfields, -⟩
  refine ⟨fields, ?_⟩
  simp only [statusOf, hread, hfields, bind, Except.bind, pure, Except.pure]

/-- Fields of the status of every request can be set whose stage is known. -/
theorem exists_withStatus {a : Address} (haddr : addressOf request = .ok a)
    (hstage : stageOf request = .ok stage) (changes : Fields) :
    ∃ changed, withStatus request changes = .ok changed ∧
      ∃ status, request.setField "status" status = .ok changed := by
  rcases addressOf_eq_ok.mp haddr with ⟨_, hmeta, -⟩
  rcases exists_statusFields haddr hstage with ⟨fields, hfields⟩
  obtain ⟨changed, hchanged⟩ := Value.exists_setField hmeta "status"
    (.object (Fields.merge fields changes))
  refine ⟨changed, ?_, _, hchanged⟩
  simp only [withStatus, hfields, Value.spread, hchanged, bind, Except.bind]

/-- A legal move can be made of every request whose stage is known. -/
theorem exists_advanced {a : Address} (haddr : addressOf request = .ok a)
    (hstage : stageOf request = .ok stage) (hmove : stage.canAdvanceTo target = true)
    (conditions : Value) : ∃ changed, advanced request target conditions = .ok (stage, changed) := by
  rcases addressOf_eq_ok.mp haddr with ⟨metadata, hmeta, -, -, hname⟩
  rcases exists_statusFields haddr hstage with ⟨fields, hfields⟩
  rcases status_of_staged haddr hstage with ⟨status, hread, hcurrent⟩
  have hgeneration : metadata.fieldOr "generation" (.integer 0) =
      .ok ((metadata.field? "generation").getD (.integer 0)) := Value.fieldOr_eq_getD hname
  obtain ⟨changed, hchanged⟩ := Value.exists_setField hmeta "status"
    (.object (Fields.merge fields [("lifecycleStage", .text target.name), ("conditions", conditions),
      ("observedGeneration", (metadata.field? "generation").getD (.integer 0))]))
  refine ⟨changed, ?_⟩
  simp only [advanced, hfields, hread, hcurrent, hmove, Value.spread, Value.require_eq_ok.mpr hmeta,
    hgeneration, hchanged, bind, Except.bind, pure, Except.pure, if_true]

/-! ## Steps of a pass -/

/-- A pass reads the request, and goes on as its stage asks. -/
theorem Standing.converge_posts {post : Cluster → List ClusterEvent → Directive → Prop}
    (h : Standing kind id stage request cs c)
    (hnext : Posts post (passIn settings kind request stage) c events) :
    Posts post (converge settings kind id) c events := by
  rcases addressOf_eq_ok.mp h.address with ⟨metadata, hmeta, -, -, -⟩
  rcases status_of_staged h.address h.staged with ⟨status, hread, hstage⟩
  unfold converge
  refine posts_call (get_of_find? h.nameable h.stored) ?_
  refine posts_value (Value.fieldOr_of_field? hmeta _) ?_
  refine posts_value hread ?_
  rw [hstage]
  cases stage with
  | unset | creating | ready | failed => exact hnext

/-- A pass that may fail reads the stage, and does what a pass does with a request in this stage. -/
theorem Standing.converge_ensures {post : Cluster → Except Failure Directive → Prop}
    (h : Standing kind id stage request cs c)
    (hnext : Pass.Ensures reliable (fun _ _ => True) post (passIn settings kind request stage) c) :
    Pass.Ensures reliable (fun _ _ => True) post (converge settings kind id) c := by
  rcases addressOf_eq_ok.mp h.address with ⟨metadata, hmeta, -, -, -⟩
  rcases status_of_staged h.address h.staged with ⟨status, hread, hstage⟩
  -- the request is fetched, and its stage decides how the pass goes on
  have hget : c.perform (.get (.text kind) id.ns id.name) = (.ok request, c) :=
    get_of_find? h.nameable h.stored
  unfold converge
  refine (Pass.ensures_bind _ _ _).mpr ((Pass.ensures_call _ _).mpr ⟨trivial, ?_⟩)
  rintro reply c' ⟨rfl, rfl⟩
  rw [Cluster.reported, hget]
  refine Pass.ensures_value (Value.fieldOr_of_field? hmeta _) ?_
  refine Pass.ensures_value hread ?_
  rw [hstage]
  cases stage with
  | unset | creating | ready | failed => exact hnext

theorem posts_recordNow {α : Type} {post : Cluster → List ClusterEvent → α → Prop}
    {r : Condition.Report} {k : List Condition → Pass α}
    (hnext : ∀ now, Posts post (k (Condition.record r (.text (Instant.shown now)) cs)) c events) :
    Posts post (liftM (recordNow r cs) >>= k) c events :=
  Program.ensures_aside (fun _ _ hafter => hafter) rfl hnext

/-- A legal move is stored, and no event is posted. -/
theorem Standing.advance_posts (h : Standing kind id stage request cs c)
    (hmove : stage.canAdvanceTo target = true) (cs' : List Condition) :
    Posts (fun c' events' _ => Moved kind id target cs' c c' ∧ events' = events)
      (advance kind request target (conditionList cs')) c events := by
  rcases h.version with ⟨version, hversion⟩
  rcases addressOf_eq_ok.mp h.address with ⟨metadata, hmeta, -, -, hname⟩
  -- a legal move can be made, and the write carries the version that is stored
  rcases exists_advanced h.address h.staged hmove (conditionList cs') with ⟨changed, hchanged⟩
  rcases of_advanced hchanged with ⟨-, -, _, fields, generation, -, -, hset⟩
  obtain ⟨replaced, haddr, hstatus, hreplaced, hupdate⟩ :=
    updateStatus_of_read h.nameable h.stored h.address hversion hset
  -- the stored object has the status that was sent
  rcases conditionsOf_advanced hchanged with ⟨hstage, hconditions⟩
  have haddr' : addressOf changed = .ok (requestAt kind id) :=
    (addressOf_withVersion hreplaced).symm.trans haddr
  have hsame : replaced.field? "status" = changed.field? "status" :=
    field?_withVersion hreplaced (by decide)
  have hmoved : Moved kind id target cs' c
      ((c.bumped.withObject (requestAt kind id) replaced).recorded "update_status"
        (requestAt kind id)) :=
    ⟨replaced, (stageOf_congr haddr haddr' hsame).trans hstage,
      (conditionsOf_congr haddr haddr' hsame).trans hconditions, rfl⟩
  unfold advance
  refine posts_value hchanged ?_
  refine posts_call hupdate ?_
  refine posts_count ?_
  refine posts_value (Value.require_eq_ok.mpr hmeta) ?_
  exact posts_log hname ⟨hmoved, rfl⟩

theorem Moved.stageAt (h : Moved kind id stage cs c c') :
    Provisioning.stageAt (requestAt kind id) c' = some stage := by
  rcases h with ⟨replaced, hstage, -, rfl⟩
  simp [Provisioning.stageAt, find?_withObject, hstage, Except.toOption]

end Provisioning

end Reconciler
