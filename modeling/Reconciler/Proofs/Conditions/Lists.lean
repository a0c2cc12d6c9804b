import Reconciler.Proofs.Equality
import Reconciler.Resource.Condition

/-! # Lists of conditions

A condition is found by its type, and a report replaces the first of its type where it stands. So a list in
which no type comes twice stays one, and is as good as a map from types to entries.

Main statements:

* `find?_record`, `find?_record_of_ne`: what a report does to such a map;
* `getElem?_record_iff`, `exists_getElem?_record`: and where it leaves the entries;
* `has_eq_any_find?`: asking for a status is asking the entry of the type.
-/

namespace Reconciler

namespace Condition

variable {r : Report} {cs : List Condition} {c : Condition} {now : Value}

/-! ## Entries -/

theorem part_type_entry (r : Report) (t : Value) : (r.entry t).part "type" = r.type := by
  simp [part, Report.entry, Fields.find?]

theorem part_status_entry (r : Report) (t : Value) : (r.entry t).part "status" = r.status := by
  simp [part, Report.entry, Fields.find?]

theorem part_message_entry (r : Report) (t : Value) : (r.entry t).part "message" = r.message := by
  simp [part, Report.entry, Fields.find?]

theorem find?_transition_entry (r : Report) (t : Value) :
    Fields.find? "lastTransitionTime" (r.entry t) = some t := by
  simp [Report.entry, Fields.find?]

/-! ## Types that are texts -/

section Texts

variable {type other : String}

/-- A condition is of a type that is a text when that text is its `type`. -/
theorem isOf_iff : c.isOf (.text type) = true ↔ c.part "type" = .text type := by
  unfold isOf
  cases c.part "type" with
  | text s => simp [Value.same]
  | _ => simp [Value.same, Value.number?]

/-- A condition of one type is not of another. -/
theorem isOf_of_ne (hc : c.part "type" = .text type) (hne : type ≠ other) :
    c.isOf (.text other) = false := by
  rw [Bool.eq_false_iff, Ne, isOf_iff, hc]
  simpa using hne

/-- Recording a condition leaves those of other types alone. -/
theorem filter_record_of_ne (hr : r.type = .text other) (hne : other ≠ type) (now : Value)
    (cs : List Condition) :
    (record r now cs).filter (isOf (.text type)) = cs.filter (isOf (.text type)) := by
  have hentry : ∀ t, (r.entry t).isOf (.text type) = false := by
    intro t
    rw [Bool.eq_false_iff, Ne, isOf_iff, part_type_entry, hr]
    simpa using hne
  induction cs with
  | nil => simp [record, hentry]
  | cons c rest ih =>
    by_cases hc : c.isOf r.type = true
    · -- the replaced entry was of the other type too
      have hold : c.isOf (.text type) = false := by
        rw [hr, isOf_iff] at hc
        rw [Bool.eq_false_iff, Ne, isOf_iff, hc]
        simpa using hne
      simp [record, hc, hentry, hold]
    · simp [record, hc, List.filter_cons, ih]

/-- Recording a condition sets the first of its type, or adds it. -/
theorem filter_record (hr : r.type = .text type) (now : Value) (cs : List Condition) :
    ∃ t, (record r now cs).filter (isOf (.text type)) =
      r.entry t :: (cs.filter (isOf (.text type))).tail := by
  have hentry : ∀ t, (r.entry t).isOf (.text type) = true := by
    intro t
    rw [isOf_iff, part_type_entry, hr]
  induction cs with
  | nil => exact ⟨now, by simp [record, hentry]⟩
  | cons c rest ih =>
    rcases ih with ⟨t, ht⟩
    -- either this entry is the one to set, or it is passed over and the rest is recorded into
    by_cases hc : c.isOf (.text type) = true
    · refine ⟨transitionAfter c r now, ?_⟩
      simp [record, hr, hc, hentry]
    · refine ⟨t, ?_⟩
      simp [record, hr, hc, ht]

end Texts

/-- A report of a type that no condition has is added at the end. -/
theorem record_of_absent (habsent : ∀ c ∈ cs, c.isOf r.type = false) (now : Value) :
    record r now cs = cs ++ [r.entry now] := by
  induction cs with
  | nil => rfl
  | cons c rest ih =>
    have hc := habsent c (by simp)
    simp [record, hc, ih fun d hd => habsent d (by simp [hd])]

/-! ## Types of any form -/

/-- Types that are the same have the same conditions. -/
theorem isOf_congr {type type' : Value} (htype : type.Proper) (htype' : type'.Proper)
    (h : type.same type' = true) (c : Condition) : c.isOf type = c.isOf type' := by
  rw [Bool.eq_iff_iff]
  exact ⟨fun hc => Value.same_trans _ _ _ hc h,
    fun hc => Value.same_trans _ _ _ hc (Value.same_symm _ _ htype htype' h)⟩

/-- The entry for a report is of the type of the report. -/
theorem isOf_entry (hr : r.type.Proper) (t : Value) : (r.entry t).isOf r.type = true := by
  rw [isOf, part_type_entry]
  exact Value.same_refl _ hr

/-- What is in a list after a report was there before or is the entry for the report. -/
theorem mem_record {d : Condition} (h : d ∈ record r now cs) :
    d ∈ cs ∨ ∃ t, d = r.entry t := by
  induction cs with
  | nil => exact .inr ⟨now, List.mem_singleton.mp h⟩
  | cons c rest ih =>
    rw [record] at h
    split at h
    · rcases List.mem_cons.mp h with rfl | hrest
      · exact .inr ⟨_, rfl⟩
      · exact .inl (List.mem_cons_of_mem _ hrest)
    · rcases List.mem_cons.mp h with rfl | hrest
      · exact .inl List.mem_cons_self
      · exact (ih hrest).imp_left (List.mem_cons_of_mem _)

/-- The time of transition of the entry that a report leaves in a list. -/
def transitionIn (cs : List Condition) (r : Report) (now : Value) : Value :=
  match cs.find? (isOf r.type) with
  | some old => transitionAfter old r now
  | none => now

/-- A report is found under its type. -/
theorem find?_record (hr : r.type.Proper) (now : Value) (cs : List Condition) :
    (record r now cs).find? (isOf r.type) = some (r.entry (transitionIn cs r now)) := by
  induction cs with
  | nil => simp [record, isOf_entry hr, transitionIn]
  | cons c rest ih =>
    by_cases hc : c.isOf r.type = true
    · simp [record, hc, isOf_entry hr, transitionIn]
    · simpa [record, hc, transitionIn] using ih

/-- A report leaves the conditions of other types as they are. -/
theorem find?_record_of_ne {type : Value} (hr : r.type.Proper)
    (hcs : ∀ c ∈ cs, (c.part "type").Proper) (hne : r.type.same type = false) (now : Value) :
    (record r now cs).find? (isOf type) = cs.find? (isOf type) := by
  have hentry : ∀ t, (r.entry t).isOf type = false := by
    intro t
    rw [isOf, part_type_entry, hne]
  induction cs with
  | nil => simp [record, hentry]
  | cons c rest ih =>
    have hrest := ih fun d hd => hcs d (List.mem_cons_of_mem _ hd)
    by_cases hc : c.isOf r.type = true
    · -- the replaced entry was of the type of the report, and so of no other
      have hold : c.isOf type = false := by
        rw [Bool.eq_false_iff]
        intro hother
        have hback := Value.same_symm _ _ (hcs c (by simp)) hr hc
        exact absurd (Value.same_trans _ _ _ hback hother) (by simp [hne])
      simp [record, hc, hentry, hold]
    · simp [record, hc, List.find?_cons, hrest]

/-! ## Asking for a status -/

/-- Asking for a type with a status and a message is asking the first condition of that type with that
status. -/
theorem has_eq_any (type status message : Value) (cs : List Condition) :
    has type status (some message) cs =
      (cs.find? fun c => c.isOf type && (c.part "status").same status).any fun c =>
        (c.part "message").same message := by
  induction cs with
  | nil => rfl
  | cons c rest ih =>
    rw [has, List.find?_cons]
    cases hc : c.isOf type && (c.part "status").same status with
    | true => rfl
    | false => simpa using ih

/-- Whoever asks for what was just reported finds it, whatever else is in the list. -/
theorem has_record (htype : r.type.Proper) (hstatus : r.status.Proper) (hmessage : r.message.Proper)
    (now : Value) (cs : List Condition) :
    has r.type r.status (some r.message) (record r now cs) = true := by
  have hentry : ∀ t rest, has r.type r.status (some r.message) (r.entry t :: rest) = true := by
    intro t rest
    simp [has, isOf_entry htype, part_status_entry, part_message_entry, Value.same_refl _ hstatus,
      Value.same_refl _ hmessage]
  induction cs with
  | nil => exact hentry now []
  | cons c rest ih =>
    rw [record]
    split
    · exact hentry _ rest
    · next hc =>
      -- what stands before the entry is of another type, so it is passed over
      simpa [has, hc] using ih

/-! ## Positions -/

/-- A report leaves the conditions of other types where they are. -/
theorem getElem?_record_iff (hr : r.type.Proper) (hc : c.isOf r.type = false) (i : Nat) :
    (record r now cs)[i]? = some c ↔ cs[i]? = some c := by
  have hne : ∀ t, r.entry t ≠ c := by
    rintro t rfl
    rw [isOf_entry hr] at hc
    cases hc
  induction cs generalizing i with
  | nil =>
    cases i with
    | zero => simpa [record] using hne now
    | succ i => simp [record]
  | cons d rest ih =>
    rw [record]
    split
    · next hd =>
      -- neither the entry nor what it replaces is the condition
      have hdc : d ≠ c := by
        rintro rfl
        rw [hc] at hd
        cases hd
      cases i with
      | zero => simp [hne, hdc]
      | succ i => simp
    · cases i with
      | zero => simp
      | succ i => simpa using ih i

/-- A report leaves a condition of every type where there was one. -/
theorem exists_getElem?_record (hr : r.type.Proper) (hcs : ∀ c ∈ cs, (c.part "type").Proper)
    (now : Value) {i : Nat} (h : cs[i]? = some c) :
    ∃ d, (record r now cs)[i]? = some d ∧ d.isOf (c.part "type") = true := by
  induction cs generalizing i with
  | nil => simp at h
  | cons first rest ih =>
    rw [record]
    split
    · next hfirst =>
      cases i with
      | zero =>
        obtain rfl : first = c := by simpa using h
        refine ⟨_, rfl, ?_⟩
        rw [isOf, part_type_entry]
        -- the entry that is replaced had the type of the report
        exact Value.same_symm _ _ (hcs first (by simp)) hr hfirst
      | succ i =>
        have hi : rest[i]? = some c := by simpa using h
        have hmem := List.mem_cons_of_mem first (List.mem_of_getElem? hi)
        exact ⟨c, by simpa using hi, Value.same_refl _ (hcs c hmem)⟩
    · cases i with
      | zero =>
        obtain rfl : first = c := by simpa using h
        exact ⟨first, rfl, Value.same_refl _ (hcs first (by simp))⟩
      | succ i =>
        have hi : rest[i]? = some c := by simpa using h
        simpa using ih (fun d hd => hcs d (List.mem_cons_of_mem _ hd)) hi

/-! ## Lists without a type that comes twice -/

def Distinct (cs : List Condition) : Prop :=
  cs.Pairwise fun c d => (c.part "type").same (d.part "type") = false

/-- Reports never make a type come twice. -/
theorem Distinct.record (h : Distinct cs) (now : Value) : Distinct (record r now cs) := by
  induction cs with
  | nil => simp [Condition.record, Distinct]
  | cons c rest ih =>
    rcases List.pairwise_cons.mp h with ⟨hc, hrest⟩
    rw [Condition.record]
    split
    · next hof =>
      refine List.pairwise_cons.mpr ⟨fun d hd => ?_, hrest⟩
      rw [part_type_entry, Bool.eq_false_iff]
      -- the entry is of the type of the one it replaces, so a later entry would have been of that type too
      intro hsame
      exact absurd (Value.same_trans _ _ _ hof hsame) (by simp [hc d hd])
    · next hof =>
      refine List.pairwise_cons.mpr ⟨fun d hd => ?_, ih hrest⟩
      rcases mem_record hd with hold | ⟨t, rfl⟩
      · exact hc d hold
      · rw [part_type_entry]
        exact Bool.eq_false_iff.mpr hof

/-- Of the conditions behind one of a type, none is of that type. -/
theorem Distinct.isOf_eq_false {type : Value} (h : Distinct (c :: cs)) (htype : type.Proper)
    (hcs : ∀ d ∈ cs, (d.part "type").Proper) (hc : c.isOf type = true) :
    ∀ d ∈ cs, d.isOf type = false := by
  intro d hd
  rw [Bool.eq_false_iff]
  intro hdtype
  have hback := Value.same_symm _ _ (hcs d hd) htype hdtype
  have hcd := (List.pairwise_cons.mp h).1 d hd
  exact absurd (Value.same_trans _ _ _ hc hback) (by simp [hcd])

/-- Every condition is the one that is found under its type. -/
theorem Distinct.find?_of_mem (h : Distinct cs) (hcs : ∀ d ∈ cs, (d.part "type").Proper)
    (hmem : c ∈ cs) : cs.find? (isOf (c.part "type")) = some c := by
  induction cs with
  | nil => simp at hmem
  | cons d rest ih =>
    rcases List.pairwise_cons.mp h with ⟨hd, hrest⟩
    rcases List.mem_cons.mp hmem with rfl | hmem
    · have hself : c.isOf (c.part "type") = true := Value.same_refl _ (hcs c (by simp))
      simp [hself]
    · have hnot : d.isOf (c.part "type") = false := hd c hmem
      simpa [hnot] using ih hrest (fun e he => hcs e (List.mem_cons_of_mem _ he)) hmem

/-- A list without a condition of a type has none with any status or message. -/
theorem has_of_absent {type status : Value} {message : Option Value}
    (h : ∀ c ∈ cs, c.isOf type = false) : has type status message cs = false := by
  induction cs with
  | nil => rfl
  | cons c rest ih =>
    have hc := h c (by simp)
    simpa [has, hc] using ih fun d hd => h d (List.mem_cons_of_mem _ hd)

/-- Asking for a type with a status and a message is asking the condition of that type. -/
theorem Distinct.has_eq_any_find? {type status message : Value} (h : Distinct cs)
    (htype : type.Proper) (hcs : ∀ d ∈ cs, (d.part "type").Proper) :
    has type status (some message) cs = (cs.find? (isOf type)).any fun c =>
      (c.part "status").same status && (c.part "message").same message := by
  induction cs with
  | nil => rfl
  | cons c rest ih =>
    have hrest : ∀ d ∈ rest, (d.part "type").Proper := fun d hd => hcs d (List.mem_cons_of_mem _ hd)
    by_cases hc : c.isOf type = true
    · -- another status is not looked for further on, since the type does not come again
      have hlater : has type status (some message) rest = false :=
        has_of_absent (h.isOf_eq_false htype hrest hc)
      by_cases hstatus : (c.part "status").same status = true
      · simp [has, hc, hstatus]
      · simp [has, hc, hstatus, hlater]
    · simpa [has, hc] using ih (List.pairwise_cons.mp h).2 hrest

end Condition

end Reconciler
