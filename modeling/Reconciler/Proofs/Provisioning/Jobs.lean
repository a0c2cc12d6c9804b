import Reconciler.Proofs.Value
import Reconciler.Resource.Lifecycle

/-! # Jobs that can be judged

How a job stands is read from the types of those of its conditions that hold. A job is written by others, so
its status may have any shape, and not every shape can be read. These are the shapes that can.

* `Reports`, `Comparable`: what is asked of the conditions of a job;
* `exists_ofJob`: then it has an outcome;
* `exists_failureReason`: and it can be asked why it failed;
* `exists_failureReason_of_ofJob`: as can every job that has an outcome.
-/

namespace Reconciler

namespace JobOutcome

def conditionsPart (job : Value) : Option Value :=
  (job.field? "status").bind (·.field? "conditions")

/-- Whether a condition holds. -/
def active (condition : Fields) : Bool :=
  ((Fields.find? "status" condition).getD (.text "True")).isText "True"

/-- A job whose conditions, if it has any, are objects. -/
structure Reports (job : Value) : Prop where
  object : ∃ kind, job.field? "kind" = some kind
  status : Value.ObjectOrNone (job.field? "status")
  conditions : Value.ListOrNone (conditionsPart job)
  entries : ∀ items, conditionsPart job = some (.list items) →
    ∀ item ∈ items, ∃ condition, item = .object condition

/-- The types of the conditions that hold are no lists and no objects. -/
def Comparable (job : Value) : Prop :=
  ∀ items, conditionsPart job = some (.list items) →
    ∀ condition, .object condition ∈ items → active condition = true →
      ((Fields.find? "type" condition).getD .null).nameable = true

variable {job : Value}

/-- The conditions of a job are what its status lists, or nothing. -/
theorem Reports.conditions_read (h : Reports job) :
    JobOutcome.conditionsOf job =
      (((conditionsPart job).getD .null).orElse (.list [])).elements := by
  rcases h.object with ⟨kind, hkind⟩
  rcases h.status.read with ⟨status, hstatus, hfind⟩
  have hpart : Fields.find? "conditions" status = conditionsPart job := hfind "conditions"
  have hread : job.fieldOrNull "status" = .ok ((job.field? "status").getD .null) :=
    Value.fieldOr_eq_getD hkind
  have hconditions : (Value.object status).fieldOrNull "conditions" =
      .ok ((conditionsPart job).getD .null) := by
    simp only [Value.fieldOrNull, Value.fieldOr, hpart]
  simp only [JobOutcome.conditionsOf, hread, hstatus, hconditions, bind, Except.bind]

theorem Reports.conditionsOf (h : Reports job) :
    ∃ items, JobOutcome.conditionsOf job = .ok items ∧
      (items = [] ∨ conditionsPart job = some (.list items)) := by
  rcases h.conditions.read with ⟨items, hitems, hmem⟩
  exact ⟨items, h.conditions_read.trans hitems, hmem⟩

/-- The types of the conditions that hold can be read when each is a text, a number or nothing. -/
theorem exists_activeTypes {items : List Value}
    (hobjects : ∀ item ∈ items, ∃ condition, item = .object condition)
    (htypes : ∀ condition, .object condition ∈ items → active condition = true →
      ((Fields.find? "type" condition).getD .null).nameable = true) :
    ∃ types, activeTypes items = .ok types := by
  induction items with
  | nil => exact ⟨[], rfl⟩
  | cons item rest ih =>
    rcases ih (fun item hitem => hobjects item (List.mem_cons_of_mem _ hitem))
      (fun condition hmem => htypes condition (List.mem_cons_of_mem _ hmem)) with ⟨types, hrest⟩
    rcases hobjects item List.mem_cons_self with ⟨condition, rfl⟩
    have hfirst := htypes condition List.mem_cons_self
    -- the type of a condition that does not hold is not looked at
    by_cases hactive : active condition = true
    · refine ⟨(Fields.find? "type" condition).getD .null :: types, ?_⟩
      simp only [activeTypes, Value.fieldOrNull, Value.fieldOr, hrest, bind, Except.bind]
      unfold active at hactive hfirst
      simp only [hactive, hfirst hactive, if_true]
      rfl
    · refine ⟨types, ?_⟩
      unfold active at hactive
      simp only [activeTypes, Value.fieldOr, hrest, bind, Except.bind, if_neg hactive]

/-- A job whose conditions are objects with types that can be compared is judged. -/
theorem exists_ofJob (h : Reports job) (hcomparable : Comparable job) :
    ∃ outcome, ofJob job = .ok outcome := by
  rcases h.conditionsOf with ⟨items, hitems, hpart⟩
  obtain ⟨types, htypes⟩ : ∃ types, activeTypes items = .ok types := by
    rcases hpart with rfl | hpart
    · exact ⟨[], rfl⟩
    · exact exists_activeTypes (h.entries items hpart) (hcomparable items hpart)
  simp only [ofJob, hitems, htypes, bind, Except.bind]
  split
  · exact ⟨_, rfl⟩
  · split
    · exact ⟨_, rfl⟩
    · exact ⟨_, rfl⟩

/-- A job whose conditions are objects can be asked why it failed. -/
theorem exists_failureReason (h : Reports job) : ∃ reason, failureReason job = .ok reason := by
  rcases h.conditionsOf with ⟨items, hitems, hpart⟩
  have hobjects : ∀ item ∈ items, ∃ condition, item = .object condition := by
    rcases hpart with rfl | hpart
    · simp
    · exact h.entries items hpart
  obtain ⟨reason, hreason⟩ : ∃ reason, explanation items = .ok reason := by
    clear hitems hpart
    induction items with
    | nil => exact ⟨.null, rfl⟩
    | cons item rest ih =>
      rcases ih (fun item hitem => hobjects item (List.mem_cons_of_mem _ hitem)) with ⟨later, hlater⟩
      rcases hobjects item List.mem_cons_self with ⟨condition, rfl⟩
      simp only [explanation, Value.fieldOrNull, Value.fieldOr, hlater, bind, Except.bind]
      split
      · split
        · exact ⟨_, rfl⟩
        · exact ⟨_, rfl⟩
      · exact ⟨_, rfl⟩
  refine ⟨reason, ?_⟩
  simp only [failureReason, hitems, hreason, bind, Except.bind]

/-! ## What is known of a job that was judged -/

/-- A job is judged by conditions that are objects, so it can be asked why it failed. -/
theorem exists_failureReason_of_ofJob {outcome : JobOutcome} (h : ofJob job = .ok outcome) :
    ∃ reason, failureReason job = .ok reason := by
  -- the reason is looked for among the conditions that were gone through to judge the job
  have hexplanation : ∀ items types, activeTypes items = .ok types →
      ∃ reason, explanation items = .ok reason := by
    intro items
    induction items with
    | nil => exact fun _ _ => ⟨.null, rfl⟩
    | cons item rest ih =>
      intro types htypes
      simp only [activeTypes, bind_eq_ok] at htypes
      rcases htypes with ⟨status, hstatus, htypes⟩
      obtain ⟨types', hrest⟩ : ∃ types', activeTypes rest = .ok types' := by
        split at htypes
        · simp only [bind_eq_ok] at htypes
          rcases htypes with ⟨type, -, htypes⟩
          split at htypes
          · rcases bind_eq_ok.mp htypes with ⟨types', hrest, -⟩
            exact ⟨types', hrest⟩
          · cases htypes
        · exact ⟨types, htypes⟩
      rcases ih types' hrest with ⟨later, hlater⟩
      rcases Value.fieldOr_eq_ok.mp hstatus with ⟨condition, rfl, -⟩
      simp only [explanation, Value.fieldOrNull, Value.fieldOr, hlater, bind, Except.bind]
      split
      · split
        · exact ⟨_, rfl⟩
        · exact ⟨_, rfl⟩
      · exact ⟨_, rfl⟩
  simp only [ofJob, bind_eq_ok] at h
  rcases h with ⟨items, hitems, types, htypes, -⟩
  rcases hexplanation items types htypes with ⟨reason, hreason⟩
  exact ⟨reason, by simp only [failureReason, hitems, hreason, bind, Except.bind]⟩

end JobOutcome

end Reconciler
