import Reconciler.Proofs.Conditions.Lists

/-! # What a list of conditions tells of its history

A list of conditions starts empty, and calls report to it or clear a report. Whatever calls come, the list has
one entry for each type that was ever set, in the order in which the types were set first; it says what the
last call for its type said, and since when. Clearing has no effect on a type that was never set.

Main definitions and statements:

* `Call`, `Timed`, `after`: calls, the times of them, and what they make of the empty list;
* `Call.report`, `Says`: what a call says, and what an entry says;
* `callsFor`, `turns`: the effective calls for a type, and those of them that changed its status;
* `find?_after`: the entry of a type, from the calls alone;
* `conditions_tell_history`: what the list tells of all calls.
-/

namespace Reconciler

namespace Condition

/-! ## Calls -/

/-- A call that changes a list of conditions. -/
inductive Call where
  | update (r : Report)
  | ready (status : Bool) (message generation : Value)
  | missing (message generation : Value)
  | clear (generation : Value)
  | failed (message generation : Value)

def Call.apply (call : Call) (now : Value) (cs : List Condition) : List Condition :=
  match call with
  | update r => record r now cs
  | ready status message generation => record (Condition.ready status message generation) now cs
  | missing message generation => record (provisionerMissing message generation) now cs
  | clear generation => clearProvisionerMissing generation now cs
  | failed message generation => record (jobFailed message generation) now cs

/-- What a call says when it is effective, whatever the list makes of it. -/
def Call.report : Call → Report
  | update r => r
  | ready true message generation => ⟨.text "Ready", .text "True", .text "Ready", message, generation⟩
  | ready false message generation => ⟨.text "Ready", .text "False", .text "NotReady", message, generation⟩
  | missing message generation =>
    ⟨.text "ProvisionerNotFound", .text "True", .text "ProvisionerNotFound", message, generation⟩
  | clear generation =>
    ⟨.text "ProvisionerNotFound", .text "False", .text "ProvisionerFound", .text "Provisioner is available",
      generation⟩
  | failed message generation => ⟨.text "JobFailed", .text "True", .text "JobFailed", message, generation⟩

/-- An entry says what a report says, since some time, and nothing else. A generation that is null is left
out. -/
structure Says (c : Condition) (r : Report) (since : Value) : Prop where
  type : Fields.find? "type" c = some r.type
  status : Fields.find? "status" c = some r.status
  reason : Fields.find? "reason" c = some r.reason
  message : Fields.find? "message" c = some r.message
  time : Fields.find? "lastTransitionTime" c = some since
  generation : Fields.find? "observedGeneration" c =
    if r.generation = .null then none else some r.generation
  only : ∀ field ∈ c, field.1 ∈
    ["type", "status", "reason", "message", "lastTransitionTime", "observedGeneration"]

/-- A call, and when it is made. -/
structure Timed where
  call : Call
  time : Instant

namespace Timed

abbrev type (t : Timed) : Value := t.call.report.type

abbrev status (t : Timed) : Value := t.call.report.status

/-- The time of a call, as conditions record it. -/
def stamp (t : Timed) : Value := .text (Instant.shown t.time)

/-- Whether a call sets a type, whatever was called before. -/
def sets (type : Value) (t : Timed) : Bool :=
  match t.call with
  | .clear _ => false
  | _ => t.type.same type

/-- Whether a call is effective after others: clearing is if its type was set before. -/
def effective (past : List Timed) (t : Timed) : Bool :=
  match t.call with
  | .clear _ => past.any (sets t.type)
  | _ => true

end Timed

/-- What calls make of the empty list. The latest call comes first. -/
def after : List Timed → List Condition
  | [] => []
  | t :: past => t.call.apply t.stamp (after past)

/-! ## What the calls say -/

/-- The effective calls for a type, the latest first. -/
def callsFor (type : Value) : List Timed → List Timed
  | [] => []
  | t :: past =>
    if t.effective past && t.type.same type then t :: callsFor type past else callsFor type past

/-- Among the calls for one type, those that made the entry or changed its status, the latest first. -/
def turns : List Timed → List Timed
  | [] => []
  | t :: past =>
    match past with
    | [] => [t]
    | before :: _ => if before.status.same t.status then turns past else t :: turns past

/-- The entry that the calls for one type lead to: what the latest says, since the latest of those that made
the entry or changed its status. -/
def entryOf (calls : List Timed) : Option Condition := do
  let latest ← calls.head?
  let turn ← (turns calls).head?
  return latest.call.report.entry turn.stamp

section Calls

variable {calls past : List Timed} {t : Timed} {type : Value}

/-- A type that is called for has an entry, and so a call that made it. -/
theorem turns_ne_nil (hcalls : calls ≠ []) : turns calls ≠ [] := by
  induction calls with
  | nil => exact absurd rfl hcalls
  | cons t past ih =>
    cases past with
    | nil => simp [turns]
    | cons before older =>
      rw [turns]
      split
      · exact ih (by simp)
      · simp

/-- There is an entry for a type exactly when there is a call for it. -/
theorem isSome_entryOf : (entryOf calls).isSome = !calls.isEmpty := by
  cases calls with
  | nil => rfl
  | cons t past =>
    rcases List.exists_cons_of_ne_nil (turns_ne_nil (List.cons_ne_nil t past)) with ⟨turn, _, hturns⟩
    simp [entryOf, hturns]

/-- A type was set if there are effective calls for it. -/
theorem any_sets (type : Value) (calls : List Timed) :
    calls.any (Timed.sets type) = !(callsFor type calls).isEmpty := by
  induction calls with
  | nil => rfl
  | cons t past ih =>
    rw [List.any_cons, callsFor, ih]
    cases hset : Timed.sets type t with
    | true =>
      -- a call that sets a type is effective whatever came before
      have hfor : (t.effective past && t.type.same type) = true := by
        unfold Timed.sets at hset
        unfold Timed.effective
        split at hset
        · cases hset
        · simpa using hset
      simp [hfor]
    | false =>
      rw [Bool.false_or]
      split
      · next hfor =>
        -- only clearing may be effective without setting its type, which was set before then
        rw [Bool.and_eq_true] at hfor
        unfold Timed.sets at hset
        unfold Timed.effective at hfor
        split at hset
        · next hcall =>
          simp only [hcall] at hfor
          rcases List.any_eq_true.mp hfor.1 with ⟨s, hs, hsets⟩
          have hsets' : Timed.sets type s = true := by
            unfold Timed.sets at hsets ⊢
            split at hsets
            · cases hsets
            · exact Value.same_trans _ _ _ hsets hfor.2
          rw [← ih, List.any_eq_true.mpr ⟨s, hs, hsets'⟩]
          rfl
        · rw [hset] at hfor
          cases hfor.2
      · rfl

/-- Types that are the same have the same calls. -/
theorem callsFor_congr {type' : Value} (htype : type.Proper) (htype' : type'.Proper)
    (h : type.same type' = true) (calls : List Timed) : callsFor type calls = callsFor type' calls := by
  induction calls with
  | nil => rfl
  | cons t past ih =>
    have hsame : t.type.same type = t.type.same type' := by
      rw [Bool.eq_iff_iff]
      exact ⟨fun ht => Value.same_trans _ _ _ ht h,
        fun ht => Value.same_trans _ _ _ ht (Value.same_symm _ _ htype htype' h)⟩
    simp only [callsFor, hsame, ih]

/-! ## What the list says -/

/-- The entry for a report says what the report says. -/
theorem says_entry (r : Report) (since : Value) : Says (r.entry since) r since := by
  -- the generation is the one field that may be left out
  by_cases hnull : r.generation = .null
  · have hentry : r.entry since = [("type", r.type), ("status", r.status), ("reason", r.reason),
        ("message", r.message), ("lastTransitionTime", since)] := by
      simp [Report.entry, hnull, Value.isNull]
    rw [hentry]
    exact ⟨rfl, rfl, rfl, rfl, rfl, by simp [Fields.find?, hnull], by simp⟩
  · have hentry : r.entry since = [("type", r.type), ("status", r.status), ("reason", r.reason),
        ("message", r.message), ("lastTransitionTime", since), ("observedGeneration", r.generation)] := by
      have hsome : r.generation.isNull = false := by
        cases hgeneration : r.generation with
        | null => exact absurd hgeneration hnull
        | _ => rfl
      simp [Report.entry, hsome]
    rw [hentry]
    exact ⟨rfl, rfl, rfl, rfl, rfl, by simp [Fields.find?, hnull], by simp⟩

/-- A call records its report, or does nothing. -/
theorem apply_cases (call : Call) (now : Value) (cs : List Condition) :
    call.apply now cs = record call.report now cs ∨ call.apply now cs = cs := by
  cases call with
  | clear generation =>
    by_cases hany : cs.any (isOf (.text ConditionType.provisionerNotFound)) = true
    · exact .inl (if_pos hany)
    · exact .inr (if_neg hany)
  | ready status message generation =>
    cases status with
    | true => exact .inl rfl
    | false => exact .inl rfl
  | _ => exact .inl rfl

/-- Every condition in the list is of a type that some call was for. -/
theorem proper_after (hcalls : ∀ t ∈ calls, t.type.Proper) :
    ∀ c ∈ after calls, (c.part "type").Proper := by
  induction calls with
  | nil => simp [after]
  | cons t past ih =>
    have hpast := ih fun s hs => hcalls s (List.mem_cons_of_mem _ hs)
    intro c hc
    -- what a call adds is of its own type
    rcases apply_cases t.call t.stamp (after past) with happly | happly
    · rw [after, happly] at hc
      rcases mem_record hc with hold | ⟨time, rfl⟩
      · exact hpast c hold
      · rw [part_type_entry]
        exact hcalls t (by simp)
    · rw [after, happly] at hc
      exact hpast c hc

/-- No type comes twice, whatever is called. -/
theorem distinct_after (calls : List Timed) : Distinct (after calls) := by
  induction calls with
  | nil => exact List.Pairwise.nil
  | cons t past ih =>
    rcases apply_cases t.call t.stamp (after past) with happly | happly
    · rw [after, happly]
      exact ih.record _
    · rw [after, happly]
      exact ih

/-- Whether a call takes effect is seen in the list. -/
theorem after_cons (hset : (after past).any (isOf t.type) = past.any (Timed.sets t.type)) :
    after (t :: past) =
      if t.effective past then record t.call.report t.stamp (after past) else after past := by
  rcases t with ⟨call, time⟩
  -- clearing is the only call whose effect depends on the list
  cases call with
  | clear generation =>
    have hset' : (after past).any (isOf (.text ConditionType.provisionerNotFound)) =
        (Timed.mk (.clear generation) time).effective past := hset
    rw [← hset']
    rfl
  | ready status message generation =>
    cases status with
    | true => rfl
    | false => rfl
  | _ => rfl

/-- A report that is recorded leads to the entry that the calls for its type lead to. -/
theorem entryOf_cons {cs : List Condition} (h : cs.find? (isOf t.type) = entryOf past) :
    some (t.call.report.entry (transitionIn cs t.call.report t.stamp)) = entryOf (t :: past) := by
  cases past with
  | nil =>
    have hnone : cs.find? (isOf t.type) = none := h
    simp [transitionIn, hnone, entryOf, turns]
  | cons before older =>
    rcases List.exists_cons_of_ne_nil (turns_ne_nil (List.cons_ne_nil before older)) with
      ⟨turn, _, hturns⟩
    have hfind : cs.find? (isOf t.type) = some (before.call.report.entry turn.stamp) := by
      simpa [entryOf, hturns] using h
    -- the time of the last turn is kept as long as the status is
    by_cases hstatus : before.status.same t.status = true
    · have hturns' : turns (t :: before :: older) = turns (before :: older) := if_pos hstatus
      simp [transitionIn, hfind, transitionAfter, part_status_entry, hstatus,
        find?_transition_entry, entryOf, hturns', hturns]
    · have hturns' : turns (t :: before :: older) = t :: turns (before :: older) := if_neg hstatus
      simp [transitionIn, hfind, transitionAfter, part_status_entry, hstatus, entryOf, hturns']

/-- Under each type the list has the entry that the calls for it lead to. -/
theorem find?_after (hcalls : ∀ t ∈ calls, t.type.Proper) (htype : type.Proper) :
    (after calls).find? (isOf type) = entryOf (callsFor type calls) := by
  -- induction on the calls; whether the latest is effective depends on its own type, so the type varies
  induction calls generalizing type with
  | nil => rfl
  | cons t past ih =>
    have hpast : ∀ s ∈ past, s.type.Proper := fun s hs => hcalls s (List.mem_cons_of_mem _ hs)
    have ht : t.type.Proper := hcalls t (by simp)
    have hown := ih hpast ht
    have hset : (after past).any (isOf t.type) = past.any (Timed.sets t.type) := by
      rw [any_sets, ← isSome_entryOf, ← hown, List.isSome_find?]
    rw [after_cons hset, callsFor]
    by_cases heffective : t.effective past = true
    · by_cases hsame : t.type.same type = true
      · -- types that are the same may be different values, such as a whole number and a float
        have hcongr := callsFor_congr ht htype hsame past
        have hfind : (record t.call.report t.stamp (after past)).find? (isOf type) =
            (record t.call.report t.stamp (after past)).find? (isOf t.type) :=
          congrArg (List.find? · _) (funext fun c => (isOf_congr ht htype hsame c).symm)
        rw [hcongr] at hown
        simp [heffective, hsame, hfind, find?_record ht, entryOf_cons hown]
      · have hne : t.type.same type = false := Bool.eq_false_iff.mpr hsame
        simp [heffective, hne, find?_record_of_ne ht (proper_after hpast) hne, ih hpast htype]
    · simp [heffective, ih hpast htype]

/-- Whether a type was set is seen in the list. -/
theorem any_after (hcalls : ∀ t ∈ calls, t.type.Proper) (htype : type.Proper) :
    (after calls).any (isOf type) = calls.any (Timed.sets type) := by
  rw [any_sets, ← isSome_entryOf, ← find?_after hcalls htype, List.isSome_find?]

/-! ## Positions -/

/-- A call leaves the entries of other types where they are. -/
theorem getElem?_after_iff (ht : t.type.Proper) {c : Condition} (hc : c.isOf t.type = false) (i : Nat) :
    (after (t :: past))[i]? = some c ↔ (after past)[i]? = some c := by
  rcases apply_cases t.call t.stamp (after past) with happly | happly
  · rw [after, happly]
    exact getElem?_record_iff ht hc i
  · rw [after, happly]

/-- Where there is an entry, there is one of that type after all further calls. -/
theorem exists_getElem?_after {later : List Timed} (hcalls : ∀ t ∈ later ++ past, t.type.Proper)
    {i : Nat} {c : Condition} (h : (after past)[i]? = some c) :
    ∃ d, (after (later ++ past))[i]? = some d ∧ d.isOf (c.part "type") = true := by
  induction later with
  | nil =>
    have hproper := proper_after hcalls c (List.mem_of_getElem? h)
    exact ⟨c, h, Value.same_refl _ hproper⟩
  | cons t later ih =>
    have hlater : ∀ s ∈ later ++ past, s.type.Proper :=
      fun s hs => hcalls s (List.mem_cons_of_mem _ hs)
    rcases ih hlater with ⟨d, hd, hdc⟩
    -- the latest call records a report into the list or leaves it as it is
    rcases apply_cases t.call t.stamp (after (later ++ past)) with happly | happly
    · rcases exists_getElem?_record (hcalls t (by simp)) (proper_after hlater) t.stamp hd with
        ⟨e, he, hed⟩
      refine ⟨e, ?_, Value.same_trans _ _ _ hed hdc⟩
      rw [List.cons_append, after, happly]
      exact he
    · refine ⟨d, ?_, hdc⟩
      rw [List.cons_append, after, happly]
      exact hd

end Calls

/-! ## All calls -/

/-- What a list of conditions tells of the calls that made it, the latest of which comes first. -/
structure TellsHistory (calls : List Timed) : Prop where
  /-- No type comes twice. -/
  distinct : Distinct (after calls)
  /-- No entry is ever removed or moved. -/
  stays : ∀ later earlier, calls = later ++ earlier → ∀ (i : Nat) (c : Condition),
    (after earlier)[i]? = some c →
      ∃ d : Condition, (after calls)[i]? = some d ∧ d.isOf (c.part "type") = true
  /-- A call changes no entry but the one of its own type. -/
  own : ∀ later t past, calls = later ++ t :: past → ∀ (i : Nat) (c : Condition),
    c.isOf t.type = false → ((after (t :: past))[i]? = some c ↔ (after past)[i]? = some c)
  /-- Clearing changes nothing when its type was never set. -/
  cleared : ∀ later t past, calls = later ++ t :: past → ∀ generation, t.call = .clear generation →
    past.any (Timed.sets t.type) = false → after (t :: past) = after past
  /-- An entry says what the latest call for its type said, since the latest that made it or changed its
  status. -/
  told : ∀ c ∈ after calls, ∃ latest turn,
    (callsFor (c.part "type") calls).head? = some latest ∧
    (turns (callsFor (c.part "type") calls)).head? = some turn ∧
    Says c latest.call.report turn.stamp
  /-- Every type that was set has an entry. -/
  kept : ∀ type, type.Proper → callsFor type calls ≠ [] → (after calls).any (isOf type) = true
  /-- Whether a type has a status with a message was decided by the latest call for it. -/
  answered : ∀ type status message, type.Proper →
    (has type status (some message) (after calls) = true ↔
      ∃ latest, (callsFor type calls).head? = some latest ∧
        latest.call.report.status.same status = true ∧
        latest.call.report.message.same message = true)

/-- Whatever calls are made on the empty list, and at whatever times, the list tells what they said. -/
theorem conditions_tell_history (calls : List Timed) (hcalls : ∀ t ∈ calls, t.type.Proper) :
    TellsHistory calls := by
  have hpast : ∀ later t past, calls = later ++ t :: past →
      t.type.Proper ∧ ∀ s ∈ past, s.type.Proper := by
    rintro later t past rfl
    exact ⟨hcalls t (by simp), fun s hs => hcalls s (by simp [hs])⟩
  have hproper := proper_after hcalls
  have hdistinct := distinct_after calls
  constructor
  case distinct => exact hdistinct
  case stays =>
    rintro later earlier rfl i c hc
    exact exists_getElem?_after hcalls hc
  case own =>
    intro later t past hsplit i c hc
    exact getElem?_after_iff (hpast later t past hsplit).1 hc i
  case cleared =>
    intro later t past hsplit generation hcall hnever
    rcases hpast later t past hsplit with ⟨ht, hproper⟩
    -- clearing what was never set is not effective
    have hnot : t.effective past = false := by
      rw [Timed.effective, hcall]
      exact hnever
    rw [after_cons (any_after hproper ht), hnot]
    rfl
  case told =>
    intro c hc
    -- an entry is the first of its type, so it is the one that the calls for the type lead to
    have hfind := hdistinct.find?_of_mem hproper hc
    rw [find?_after hcalls (hproper c hc)] at hfind
    simp only [entryOf, Option.bind_eq_bind, Option.bind_eq_some_iff, Option.pure_def,
      Option.some.injEq] at hfind
    rcases hfind with ⟨latest, hlatest, turn, hturn, rfl⟩
    exact ⟨latest, turn, hlatest, hturn, says_entry _ _⟩
  case kept =>
    intro type htype hset
    rw [any_after hcalls htype, any_sets]
    simpa using hset
  case answered =>
    intro type status message htype
    rw [hdistinct.has_eq_any_find? htype hproper, find?_after hcalls htype]
    -- asking is answered by the entry for the type, if it has one
    cases hcallsFor : callsFor type calls with
    | nil => simp [entryOf]
    | cons latest older =>
      rcases List.exists_cons_of_ne_nil (turns_ne_nil (List.cons_ne_nil latest older)) with
        ⟨turn, _, hturns⟩
      simp [entryOf, hturns, part_status_entry, part_message_entry]

/-- A provisioner is cleared before it was ever missing, then missing for two reasons, found, and found
again; in between a job fails, and the request is not ready and then ready. -/
def sampleCalls : List Timed :=
  [⟨.ready true (.text "done") (.integer 3), 8000000⟩, ⟨.clear (.integer 3), 7000000⟩,
    ⟨.clear (.integer 2), 6000000⟩, ⟨.failed (.text "no space") .null, 5000000⟩,
    ⟨.ready false (.text "no job") .null, 4000000⟩,
    ⟨.update ⟨.text "Checked", .text "Unknown", .text "NotYet", .text "", .null⟩, 3000000⟩,
    ⟨.missing (.text "no pg") .null, 2000000⟩, ⟨.missing (.text "no postgres") .null, 1000000⟩, ⟨.clear .null, 0⟩]

theorem sample_conditions_tell_history :
    (∀ t ∈ sampleCalls, t.type.Proper) ∧ TellsHistory sampleCalls ∧
      after sampleCalls =
        [[("type", .text "ProvisionerNotFound"), ("status", .text "False"),
            ("reason", .text "ProvisionerFound"), ("message", .text "Provisioner is available"),
            ("lastTransitionTime", .text "1970-01-01T00:00:06+00:00"), ("observedGeneration", .integer 3)],
          [("type", .text "Checked"), ("status", .text "Unknown"), ("reason", .text "NotYet"),
            ("message", .text ""), ("lastTransitionTime", .text "1970-01-01T00:00:03+00:00")],
          [("type", .text "Ready"), ("status", .text "True"), ("reason", .text "Ready"),
            ("message", .text "done"), ("lastTransitionTime", .text "1970-01-01T00:00:08+00:00"),
            ("observedGeneration", .integer 3)],
          [("type", .text "JobFailed"), ("status", .text "True"), ("reason", .text "JobFailed"),
            ("message", .text "no space"), ("lastTransitionTime", .text "1970-01-01T00:00:05+00:00")]] := by
  have hproper : ∀ t ∈ sampleCalls, t.type.Proper := by
    simp only [sampleCalls, List.forall_mem_cons]
    exact ⟨trivial, trivial, trivial, trivial, trivial, trivial, trivial, trivial, trivial, by simp⟩
  exact ⟨hproper, conditions_tell_history sampleCalls hproper, by decide +kernel⟩

end Condition

end Reconciler
