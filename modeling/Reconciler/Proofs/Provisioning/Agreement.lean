import Reconciler.Proofs.Provisioning.Conditions

/-! # Stage and conditions agree

A pass writes the stage of a request together with all of its conditions, each made from the copy it read.
So there are few lists of conditions that a request can be stored with: perhaps the note on its provisioner,
and behind it what its job came to, once the stage says that it came to something.

Main definitions and statements:

* `Composed`: the lists of conditions that belong to a stage;
* `Becomes.composed`: what a pass may write keeps to them;
* `StatusWrite.statusField`: and it leaves all other fields of the status as they are;
* `stage_and_conditions_agree`: so stage and conditions agree in every run.
-/

namespace Reconciler

namespace Provisioning

open Cluster

/-! ## The conditions of each stage -/

/-- No conditions but the note on the provisioner. -/
def NoteOnly (cs : List Condition) : Prop :=
  cs = [] ∨ ∃ c, c.part "type" = .text ConditionType.provisionerNotFound ∧ cs = [c]

/-- What a request in a stage says of its job. -/
inductive Told : Stage → List Condition → Prop where
  | unset : Told .unset []
  | creating : Told .creating []
  | ready {message t : Value} : Told .ready [(Condition.ready true message .null).entry t]
  | failed {message t t' : Value} : Told .failed
      [(Condition.jobFailed message .null).entry t, (Condition.ready false message .null).entry t']

/-- The conditions that a request is stored with in a stage: what it says of its job comes behind the note
on its provisioner. -/
def Composed (stage : Stage) (cs : List Condition) : Prop :=
  ∃ note entries, NoteOnly note ∧ Told stage entries ∧ cs = note ++ entries

/-- A note on the provisioner is of no other type. -/
theorem NoteOnly.isOf_eq_false {note : List Condition} {other : String} (h : NoteOnly note)
    (hne : ConditionType.provisionerNotFound ≠ other) :
    ∀ c ∈ note, c.isOf (.text other) = false := by
  rcases h with rfl | ⟨c, hc, rfl⟩
  · simp
  · intro d hd
    obtain rfl := List.mem_singleton.mp hd
    exact Condition.isOf_of_ne hc hne

/-- A report about the provisioner sets the note or adds it. -/
theorem NoteOnly.record {note : List Condition} {r : Condition.Report} (h : NoteOnly note)
    (hr : r.type = .text ConditionType.provisionerNotFound) (now : Value) :
    NoteOnly (Condition.record r now note) := by
  have hentry : ∀ t, NoteOnly [r.entry t] := fun t =>
    .inr ⟨r.entry t, (Condition.part_type_entry r t).trans hr, rfl⟩
  rcases h with rfl | ⟨c, hc, rfl⟩
  · exact hentry now
  · have hisOf : c.isOf r.type = true := by rw [hr, Condition.isOf_iff, hc]
    simpa [Condition.record, hisOf] using hentry (Condition.transitionAfter c r now)

/-- Clearing the note leaves nothing but a note. -/
theorem NoteOnly.clear {note : List Condition} (h : NoteOnly note) (now : Value) :
    NoteOnly (Condition.clearProvisionerMissing .null now note) := by
  unfold Condition.clearProvisionerMissing
  split
  · exact h.record rfl now
  · exact h

/-- A request that is not finished says nothing of its job. -/
theorem composed_of_open {stage : Stage} {cs : List Condition} (hopen : stage.isFinal = false) :
    Composed stage cs ↔ NoteOnly cs := by
  constructor
  · rintro ⟨note, entries, hnote, htold, rfl⟩
    cases htold with
    | unset | creating => simpa using hnote
    | ready | failed => simp [Stage.isFinal] at hopen
  · intro hnote
    refine ⟨cs, [], hnote, ?_, by simp⟩
    cases stage with
    | unset => exact .unset
    | creating => exact .creating
    | ready | failed => simp [Stage.isFinal] at hopen

/-- Whatever becomes of a status that is not final, stage and conditions belong together. -/
theorem Becomes.composed {stage stage' : Stage} {cs cs' : List Condition}
    (h : Becomes stage cs stage' cs') (hopen : stage.isFinal = false) (hcs : Composed stage cs) :
    Composed stage' cs' := by
  have hnote := (composed_of_open hopen).mp hcs
  have hready : ConditionType.provisionerNotFound ≠ ConditionType.ready := by decide
  cases h with
  | waiting => exact (composed_of_open hopen).mpr (hnote.record rfl _)
  | starting => exact (composed_of_open rfl).mpr (hnote.clear _)
  | @completing _ message now =>
    have habsent : ∀ c ∈ cs, c.isOf (Condition.ready true message .null).type = false :=
      hnote.isOf_eq_false (by decide)
    exact ⟨cs, _, hnote, .ready, Condition.record_of_absent habsent now⟩
  | @failing _ message now now' =>
    have habsent : ∀ c ∈ cs, c.isOf (Condition.jobFailed message .null).type = false :=
      hnote.isOf_eq_false (by decide)
    -- the entry for the failure is not one for readiness
    have habsent' : ∀ c ∈ cs ++ [(Condition.jobFailed message .null).entry now],
        c.isOf (Condition.ready false message .null).type = false := by
      intro c hc
      rcases List.mem_append.mp hc with hc | hc
      · exact hnote.isOf_eq_false hready c hc
      · obtain rfl := List.mem_singleton.mp hc
        exact Condition.isOf_of_ne (Condition.part_type_entry _ _) (by decide)
    refine ⟨cs, _, hnote, @Told.failed message now now', ?_⟩
    rw [Condition.record_of_absent habsent, Condition.record_of_absent habsent']
    simp

/-! ## What the conditions say -/

/-- Stage and conditions agree: no type comes twice, readiness is told once the request is finished, and a
failure is told with the message that says why the request is not ready. -/
structure Agree (stage : Stage) (cs : List Condition) : Prop where
  distinct : ∃ types : List String, cs.map (·.part "type") = types.map .text ∧ types.Nodup
  ready : (∃ c ∈ cs, c.isOf (.text ConditionType.ready) = true) ↔ stage = .ready ∨ stage = .failed
  readyStatus : ∀ c ∈ cs, c.isOf (.text ConditionType.ready) = true →
    (c.part "status" = .text "True" ↔ stage = .ready) ∧
      (c.part "status" = .text "False" ↔ stage = .failed)
  failure : (∃ c ∈ cs, c.isOf (.text ConditionType.jobFailed) = true) ↔ stage = .failed
  failureStatus : ∀ c ∈ cs, c.isOf (.text ConditionType.jobFailed) = true →
    c.part "status" = .text "True" ∧
      ∀ d ∈ cs, d.isOf (.text ConditionType.ready) = true → c.part "message" = d.part "message"

/-- What is said of the job is told apart from the note by its types. -/
theorem Told.types {stage : Stage} {entries : List Condition} (h : Told stage entries) :
    ∃ types : List String, entries.map (·.part "type") = types.map .text ∧
      (ConditionType.provisionerNotFound :: types).Nodup := by
  cases h with
  | unset | creating => exact ⟨[], rfl, by decide⟩
  | ready => exact ⟨[ConditionType.ready], rfl, by decide⟩
  | failed => exact ⟨[ConditionType.jobFailed, ConditionType.ready], rfl, by decide⟩

/-- What a request says of its job agrees with its stage. -/
theorem Told.agree {stage : Stage} {entries : List Condition} (h : Told stage entries) :
    Agree stage entries := by
  have hne : ConditionType.jobFailed ≠ ConditionType.ready := by decide
  rcases h.types with ⟨types, htypes, hnodup⟩
  have hdistinct := (List.nodup_cons.mp hnodup).2
  cases h with
  | unset | creating => exact ⟨⟨types, htypes, hdistinct⟩, by simp, by simp, by simp, by simp⟩
  | ready =>
    refine ⟨⟨types, htypes, hdistinct⟩, ?_, ?_, ?_, ?_⟩ <;>
      simp [Condition.isOf_iff, Condition.part_type_entry, Condition.part_status_entry,
        Condition.ready, hne.symm]
  | failed =>
    refine ⟨⟨types, htypes, hdistinct⟩, ?_, ?_, ?_, ?_⟩ <;>
      simp [Condition.isOf_iff, Condition.part_type_entry, Condition.part_status_entry,
        Condition.part_message_entry, Condition.ready, Condition.jobFailed, hne, hne.symm]

/-- A condition of another type than the note is among the entries behind it. -/
theorem NoteOnly.mem_append {note entries : List Condition} {c : Condition} {other : String}
    (h : NoteOnly note) (hne : ConditionType.provisionerNotFound ≠ other)
    (hisOf : c.isOf (.text other) = true) : c ∈ note ++ entries ↔ c ∈ entries := by
  constructor
  · intro hc
    rcases List.mem_append.mp hc with hc | hc
    · rw [h.isOf_eq_false hne c hc] at hisOf
      exact absurd hisOf (by decide)
    · exact hc
  · exact List.mem_append_right _

/-- The conditions of a stage agree with it. -/
theorem Composed.agree {stage : Stage} {cs : List Condition} (h : Composed stage cs) :
    Agree stage cs := by
  rcases h with ⟨note, entries, hnote, htold, rfl⟩
  have hentries := htold.agree
  have hready : ∀ c : Condition, c.isOf (.text ConditionType.ready) = true →
      (c ∈ note ++ entries ↔ c ∈ entries) := fun c => hnote.mem_append (by decide)
  have hfailed : ∀ c : Condition, c.isOf (.text ConditionType.jobFailed) = true →
      (c ∈ note ++ entries ↔ c ∈ entries) := fun c => hnote.mem_append (by decide)
  constructor
  · -- the types of a status are its note and what the stage tells, each of them once
    rcases htold.types with ⟨types, htypes, hnodup⟩
    rcases hnote with rfl | ⟨c, hc, rfl⟩
    · exact ⟨types, htypes, (List.nodup_cons.mp hnodup).2⟩
    · exact ⟨ConditionType.provisionerNotFound :: types, by simp [hc, htypes], hnodup⟩
  · rw [← hentries.ready]
    exact exists_congr fun c => and_congr_left (hready c)
  · intro c hc hisOf
    exact hentries.readyStatus c ((hready c hisOf).mp hc) hisOf
  · rw [← hentries.failure]
    exact exists_congr fun c => and_congr_left (hfailed c)
  · intro c hc hisOf
    rcases hentries.failureStatus c ((hfailed c hisOf).mp hc) hisOf with ⟨hstatus, hmessage⟩
    exact ⟨hstatus, fun d hd hd' => hmessage d ((hready d hd').mp hd) hd'⟩

/-! ## The rest of the status -/

/-- The fields of a status that a pass writes. -/
def statusKeys : List String := ["lifecycleStage", "conditions", "observedGeneration"]

def statusField (key : String) (request : Value) : Option Value :=
  (request.field? "status").bind (·.field? key)

/-- The fields that a status is read with are its own; a status that is absent has none. -/
theorem find?_of_statusOf {request : Value} {fields : Fields}
    (hstatus : statusOf request = .ok (.object fields)) (key : String) :
    Fields.find? key fields = statusField key request := by
  simp only [statusOf, bind_eq_ok, pure_eq_ok] at hstatus
  rcases hstatus with ⟨old, hold, hread⟩
  rcases Value.fieldOr_eq_ok.mp hold with ⟨own, rfl, hfind⟩
  unfold Value.orElse at hread
  split at hread
  · -- the status counts as given, so it is there
    subst hread
    cases hown : Fields.find? "status" own with
    | none => simp [hown] at hfind
    | some v =>
      obtain rfl : v = .object fields := by simpa [hown] using hfind
      simp [statusField, Value.field?, hown]
  · next hempty =>
    obtain rfl : fields = [] := by simpa [eq_comm] using hread
    cases hown : Fields.find? "status" own with
    | none => simp [statusField, Value.field?, hown, Fields.find?]
    | some v =>
      obtain rfl : v = old := by simpa [hown] using hfind
      -- what does not count as given has no fields
      cases v with
      | object items =>
        obtain rfl : items = [] := by simpa [Value.truthy] using hempty
        simp [statusField, Value.field?, hown, Fields.find?]
      | _ => simp [statusField, Value.field?, hown, Fields.find?]

/-- A status that is given other values for some fields keeps the others. -/
theorem statusField_merge {request status o : Value} {fields changes : Fields} {key : String}
    (hstatus : statusOf request = .ok status) (hfields : status.spread = .ok fields)
    (hset : request.setField "status" (.object (Fields.merge fields changes)) = .ok o)
    (hkey : ∀ change ∈ changes, change.1 ≠ key) : statusField key o = statusField key request := by
  obtain rfl := Value.spread_eq_ok.mp hfields
  rw [statusField, Value.field?_setField hset, Option.bind_some, Value.field?,
    Fields.find?_merge_of_not_mem changes hkey, find?_of_statusOf hstatus]

/-- A pass keeps the fields of a status that are none of its own. -/
theorem StatusWrite.statusField {h : History} {request o : Value} (hw : StatusWrite h request o)
    {key : String} (hkey : key ∉ statusKeys) :
    statusField key o = Provisioning.statusField key request := by
  simp only [statusKeys, List.mem_cons, List.not_mem_nil, or_false, not_or] at hkey
  rcases hkey with ⟨hstage, hconditions, hgeneration⟩
  have hadvanced : ∀ {target current conditions},
      advanced request target conditions = .ok (current, o) →
        Provisioning.statusField key o = Provisioning.statusField key request := by
    intro target current conditions hadvanced
    rcases of_advanced hadvanced with ⟨-, -, status, fields, generation, hstatus, hfields, hset⟩
    exact statusField_merge hstatus hfields hset (by simp [Ne.symm, hstage, hconditions, hgeneration])
  -- only the note of a request that waits leaves the stage where it is
  cases hw with
  | waiting _ _ _ _ hset =>
    simp only [withStatus, bind_eq_ok] at hset
    rcases hset with ⟨status, hstatus, fields, hfields, hset⟩
    exact statusField_merge hstatus hfields hset (by simpa using Ne.symm hconditions)
  | starting _ _ h => exact hadvanced h
  | completing _ _ _ _ h => exact hadvanced h
  | failing _ _ _ _ h => exact hadvanced h

/-- A pass that writes the status of its request has read that request, and keeps what is none of its own in
the copy it read. -/
theorem asked_statusField {kind : String} {id : Identity} {h : History}
    (hasked : Asked (MayAsk kind id) h) {o : Value} {reply : Except Failure Value}
    (hwrite : (.updateStatus o, reply) ∈ h) :
    ∃ copy ∈ h.reads (requestAt kind id), ∀ key ∉ statusKeys,
      statusField key o = statusField key copy := by
  induction hasked with
  | nil => simp at hwrite
  | @snoc h call answer hasked hmay ih =>
    rw [History.reads_append]
    rcases List.mem_append.mp hwrite with hbefore | hlast
    · rcases ih hbefore with ⟨copy, hcopy, hkept⟩
      exact ⟨copy, List.mem_append_left _ hcopy, hkept⟩
    · rcases List.mem_singleton.mp hlast with ⟨⟩
      cases hmay with
      | @status copy _ hread hwrite =>
        refine ⟨copy, List.mem_append_left _ ?_, fun key hkey => hwrite.statusField hkey⟩
        simp [hread]

/-! ## Runs -/

section Runs

variable {kind : String} {id : Identity} {first : System} {states : List System}

/-- A request is stored whose conditions belong to its stage, and in whose status nothing else was changed
since it was as given. -/
structure Kept (kind : String) (id : Identity) (original : Value) (s : System) : Prop where
  legible : ∃ stage cs, Legible kind id stage cs s ∧ Composed stage cs
  rest : ∃ request, s.cluster.find? (requestAt kind id) = some request ∧
    ∀ key ∉ statusKeys, statusField key request = statusField key original

/-- One step of any interleaving keeps stage and conditions together, and the rest of the status as it was. -/
theorem Kept.step {original : Value} {s s' : System} {begins : SafePass Directive → Prop}
    (hkind : kind ∈ requestKinds)
    (hbegins : ∀ p, begins p → SafePass.Ensures noted (MayAsk kind id) (fun _ _ => True) p [])
    (hs : Kept kind id original s)
    (hstep : System.Step begins (Edits (requestAt kind id)) s s') : Kept kind id original s' := by
  rcases hs.legible with ⟨stage, cs, hlegible, hcomposed⟩
  rcases hs.rest with ⟨request, hstored, hrest⟩
  constructor
  · rcases hlegible.step hkind hbegins hstep with ⟨stage', cs', hlegible', hsame | hmoved⟩
    · rcases hsame with ⟨rfl, rfl⟩
      exact ⟨_, _, hlegible', hcomposed⟩
    · rcases hmoved with ⟨hbecomes, hopen, -⟩
      exact ⟨_, _, hlegible', hbecomes.composed hopen hcomposed⟩
  · rcases hlegible.staged.status_step hkind hstep hstored with ⟨request', hstored', hfollows⟩
    refine ⟨request', hstored', fun key hkey => ?_⟩
    rw [← hrest key hkey]
    rcases hfollows with hsame | ⟨h, -, copy, o, -, hwrite, hcopy, ho⟩
    · simp only [statusField, hsame]
    · -- the copy had the status of the stored request, and the write kept the rest of it
      have hwritten := hwrite.statusField hkey
      simp only [statusField, hcopy, ho] at hwritten ⊢
      exact hwritten

/-- Whatever passes, edits and failing calls come in whatever order, and whoever makes, removes and changes
jobs and provisioners: the stage and the conditions of a request that had no status at first agree, and no
other field comes into its status. And whatever a pass is answered, when it writes the status of a request
it keeps the other fields of the status it read. -/
theorem stage_and_conditions_agree {kind : String} {id : Identity} {c : Cluster} {request : Value}
    {states : List System} (hkind : kind ∈ requestKinds)
    (hstored : c.find? (requestAt kind id) = some request)
    (haddr : addressOf request = .ok (requestAt kind id)) (hversion : Versioned c request)
    (hstatus : (request.field? "status").getD .null = .null)
    (hrun : System.Run (System.Step (PassOver kind id) (Edits (requestAt kind id)))
      (System.idle c) states) :
    (∀ s ∈ states, ∃ current stage cs, s.cluster.find? (requestAt kind id) = some current ∧
      stageOf current = .ok stage ∧ conditionsOf current = .ok cs ∧ Agree stage cs ∧
      ∀ key ∉ statusKeys, statusField key current = none) ∧
    ∀ other ∈ requestKinds, ∀ id p rest h, PassOver other id p →
      Program.Leads (facing noted) p [] rest h →
      ∀ o reply, (.updateStatus o, reply) ∈ h → ∃ copy ∈ h.reads (requestAt other id),
        ∀ key ∉ statusKeys, statusField key o = statusField key copy := by
  rcases of_no_status haddr hstatus with ⟨hunset, hnone⟩
  have hcomposed : Composed .unset [] := (composed_of_open rfl).mpr (.inl rfl)
  have hfirst : Kept kind id request (System.idle c) :=
    ⟨⟨.unset, [], legible_idle hstored haddr hversion hunset hnone, hcomposed⟩,
      ⟨request, hstored, fun _ _ => rfl⟩⟩
  -- a status that is absent or null has no fields
  have habsent : ∀ key, statusField key request = none := by
    intro key
    cases hfield : request.field? "status" with
    | none => simp [statusField, hfield]
    | some status =>
      obtain rfl : status = .null := by simpa [hfield] using hstatus
      rw [statusField, hfield]
      rfl
  constructor
  · -- every step keeps the composition, and the composition is read off as an agreement
    have hkept := hrun.invariant hfirst fun s s' hs => hs.step hkind (PassOver.asks hkind)
    intro s hs
    rcases (hkept s hs).legible with ⟨stage, cs, ⟨hstaged, current, hfind, hcs⟩, hcomposed⟩
    rcases (hkept s hs).rest with ⟨current', hfind', hrest⟩
    obtain rfl : current = current' := Option.some.inj (hfind.symm.trans hfind')
    rcases hstaged.stored with ⟨current', hfind', hstage, -⟩
    obtain rfl : current = current' := Option.some.inj (hfind.symm.trans hfind')
    exact ⟨current, stage, cs, hfind, hstage, hcs, hcomposed.agree,
      fun key hkey => (hrest key hkey).trans (habsent key)⟩
  · intro other hother id p rest h hp hrun o reply hwrite
    exact asked_statusField (asked_of_leads .nil (hp.asks hother) hrun) hwrite

end Runs

/-! ### A request whose job fails -/

/-- The stage of a request, and its conditions by type and status. -/
def standingAt (a : Address) (c : Cluster) : Option (Stage × List (Value × Value)) := do
  let request ← c.find? a
  let stage ← (stageOf request).toOption
  let cs ← (conditionsOf request).toOption
  return (stage, cs.map fun c => (c.part "type", c.part "status"))

def failSampleJob : Cluster → Cluster :=
  edited ⟨.text Kind.job, .text "default", .text "db"⟩ fun job =>
    job.setField "status" (.object [("conditions", .list [.object [("type", .text "Failed"),
      ("message", .text "BackoffLimitExceeded")]])])

/-- The provisioner comes while the request waits for it, and then the job fails. -/
def failingJob : List (Cluster → Cluster) :=
  [id, putSampleProvisioner, failSampleJob]

theorem failing_job_told_with_stage :
    ((sampleTurns 30 lonelyCluster failingJob).map fun s =>
        standingAt (requestAt Kind.resource sampleId) s.cluster).destutter (· ≠ ·) =
      [some (.failed, [(.text "ProvisionerNotFound", .text "False"), (.text "JobFailed", .text "True"),
          (.text "Ready", .text "False")]),
        some (.creating, [(.text "ProvisionerNotFound", .text "False")]),
        some (.unset, [(.text "ProvisionerNotFound", .text "True")]), some (.unset, [])] ∧
    ∀ s ∈ sampleTurns 30 lonelyCluster failingJob, ∃ current stage cs,
      s.cluster.find? (requestAt Kind.resource sampleId) = some current ∧
      stageOf current = .ok stage ∧ conditionsOf current = .ok cs ∧ Agree stage cs ∧
      ∀ key ∉ statusKeys, statusField key current = none := by
  have hchanges : ∀ change ∈ failingJob, ∀ c,
      Edits (requestAt Kind.resource sampleId) c (change c) := by
    simp only [failingJob, List.forall_mem_cons]
    exact ⟨edits_refl, edits_putSampleProvisioner, edits_edited (by decide) _, by simp⟩
  refine ⟨by decide +kernel, ?_⟩
  exact (stage_and_conditions_agree (by decide) rfl rfl ⟨1, by decide, rfl⟩ rfl
    (run_sampleTurns lonelyCluster hchanges)).1

end Provisioning

end Reconciler
