import Reconciler.Proofs.Conditions.Lists
import Reconciler.Proofs.Provisioning.Stages

/-! # The note that the provisioner is missing

While the provisioner of a request is missing, the request says so in a condition. The condition is cleared
when the request is started, and nowhere else. So it can only be left behind by a pass that finds a
request in `Creating` without its job and without its provisioner.

Main statements:

* `StatusWrite.becomes`: what a pass may write, as what becomes of stage and conditions;
* `Legible.step`: one step of any interleaving keeps stage and conditions, or does that to them;
* `no_stale_waiting`: when no pass was bereft in `Creating`, the condition is cleared from then on;
* `not_noStaleWaiting`: otherwise it may stay for good.
-/

namespace Reconciler

namespace Provisioning

open Cluster

/-! ## What a write does to stage and conditions -/

/-- What may become of stage and conditions. -/
inductive Becomes : Stage → List Condition → Stage → List Condition → Prop where
  | waiting {stage : Stage} {cs : List Condition} {message now : Value} :
      Becomes stage cs stage (Condition.record (Condition.provisionerMissing message .null) now cs)
  | starting {cs : List Condition} {now : Value} :
      Becomes .unset cs .creating (Condition.clearProvisionerMissing .null now cs)
  | completing {cs : List Condition} {message now : Value} :
      Becomes .creating cs .ready (Condition.record (Condition.ready true message .null) now cs)
  | failing {cs : List Condition} {message now now' : Value} :
      Becomes .creating cs .failed (Condition.record (Condition.ready false message .null) now'
        (Condition.record (Condition.jobFailed message .null) now cs))

/-- Conditions are read back as they were written. -/
theorem copyConditions_map (cs : List Condition) :
    copyConditions (cs.map .object) = .ok cs := by
  induction cs with
  | nil => rfl
  | cons c rest ih =>
    simp only [List.map_cons, copyConditions, Value.asObject, ih, bind, Except.bind]
    rfl

/-- A status that is set is read with the conditions it was given. -/
theorem conditionsOf_setField {request o : Value} {fields : Fields} {cs : List Condition}
    (h : request.setField "status" (.object fields) = .ok o)
    (hfind : Fields.find? "conditions" fields = some (conditionList cs)) :
    conditionsOf o = .ok cs := by
  have htruthy : (Value.object fields).truthy = true := by
    cases fields with
    | nil => simp [Fields.find?] at hfind
    | cons field rest => rfl
  have hread : o.fieldOrNull "status" = .ok (.object fields) :=
    Value.fieldOr_of_field? (Value.field?_setField h) _
  have hstatus : statusOf o = .ok (.object fields) := by
    simp only [statusOf, hread, bind, Except.bind, pure, Except.pure, Value.orElse_of_truthy htruthy]
  have hfield : (Value.object fields).fieldOrNull "conditions" = .ok (conditionList cs) := by
    have hfield? : (Value.object fields).field? "conditions" = some (conditionList cs) := hfind
    exact Value.fieldOr_of_field? hfield? _
  have hlist : ((conditionList cs).orElse (.list [])).elements = .ok (cs.map .object) := by
    cases cs <;> rfl
  simp only [conditionsOf, hstatus, hfield, hlist, bind, Except.bind, copyConditions_map]

/-- An advanced request is in the stage it was advanced to, with the conditions it was given. -/
theorem conditionsOf_advanced {request o : Value} {current target : Stage} {cs : List Condition}
    (h : advanced request target (conditionList cs) = .ok (current, o)) :
    stageOf o = .ok target ∧ conditionsOf o = .ok cs := by
  rcases of_advanced h with ⟨-, -, _, fields, generation, -, -, hset⟩
  constructor
  · rw [stageOf_setField hset, ofStatus_advanced]
  · refine conditionsOf_setField hset ?_
    simp only [Fields.merge]
    rw [Fields.find?_insert_of_ne (by decide), Fields.find?_insert]

/-- What a pass stores is what may become of the request it read; and if it leaves the stage as it is, the
pass was told what is missing. -/
theorem StatusWrite.becomes {h : History} {request o : Value} (hw : StatusWrite h request o) :
    ∃ stage cs stage' cs', stageOf request = .ok stage ∧ conditionsOf request = .ok cs ∧
      stageOf o = .ok stage' ∧ conditionsOf o = .ok cs' ∧ Becomes stage cs stage' cs' ∧
      (stage = stage' → Bereft h request stage) := by
  cases hw with
  | @waiting stage cs _ _ _ hstage _ hbereft hconditions hset =>
    have hset' := hset
    simp only [withStatus, bind_eq_ok] at hset'
    -- waiting stores conditions only, so the stage is read as before
    rcases hset' with ⟨_, -, fields, -, hset'⟩
    have hconditions' := conditionsOf_setField hset' (Fields.find?_insert _ _ fields)
    exact ⟨stage, cs, stage, _, hstage, hconditions, (stageOf_withStatus hset).trans hstage,
      hconditions', .waiting, fun _ => hbereft⟩
  | starting hstage hconditions hadvanced =>
    rcases conditionsOf_advanced hadvanced with ⟨hstage', hconditions'⟩
    exact ⟨_, _, _, _, hstage, hconditions, hstage', hconditions', .starting, by simp⟩
  | completing hstage _ _ hconditions hadvanced =>
    rcases conditionsOf_advanced hadvanced with ⟨hstage', hconditions'⟩
    exact ⟨_, _, _, _, hstage, hconditions, hstage', hconditions', .completing, by simp⟩
  | failing hstage _ _ hconditions hadvanced =>
    rcases conditionsOf_advanced hadvanced with ⟨hstage', hconditions'⟩
    exact ⟨_, _, _, _, hstage, hconditions, hstage', hconditions', .failing, by simp⟩

/-- Conditions are read off the status alone. -/
theorem conditionsOf_congr {v w : Value} {a b : Address} (hv : addressOf v = .ok a)
    (hw : addressOf w = .ok b) (h : v.field? "status" = w.field? "status") :
    conditionsOf v = conditionsOf w := by
  rcases addressOf_eq_ok.mp hv with ⟨_, hmv, -⟩
  rcases addressOf_eq_ok.mp hw with ⟨_, hmw, -⟩
  simp only [conditionsOf, statusOf, Value.fieldOrNull, Value.fieldOr_eq_getD hmv,
    Value.fieldOr_eq_getD hmw, h]

/-! ## The note -/

/-- The conditions that say whether the provisioner is missing. -/
def notes (cs : List Condition) : List Condition :=
  cs.filter (Condition.isOf (.text ConditionType.provisionerNotFound))

/-- There is one note at most, and a request that was started does not say that the provisioner is
missing. -/
structure Cleared (stage : Stage) (cs : List Condition) : Prop where
  one : (notes cs).length ≤ 1
  cleared : stage ≠ .unset → ∀ c ∈ notes cs, c.part "status" = .text "False"

/-- A list of notes that has one at most has none after the first. -/
theorem tail_notes {cs : List Condition} (h : (notes cs).length ≤ 1) : (notes cs).tail = [] := by
  cases hnotes : notes cs with
  | nil => rfl
  | cons c rest =>
    rw [hnotes, List.length_cons] at h
    have hrest : rest.length = 0 := by omega
    exact List.eq_nil_of_length_eq_zero hrest

/-- Starting a request clears the note. -/
theorem cleared_of_starting {cs : List Condition} {now : Value} (h : (notes cs).length ≤ 1)
    (stage : Stage) : Cleared stage (Condition.clearProvisionerMissing .null now cs) := by
  unfold Condition.clearProvisionerMissing
  by_cases hany : cs.any (Condition.isOf (.text ConditionType.provisionerNotFound)) = true
  · rw [if_pos hany]
    obtain ⟨t, hrecord⟩ : ∃ t, notes (Condition.record (Condition.provisionerFound .null) now cs) =
        (Condition.provisionerFound .null).entry t :: (notes cs).tail := Condition.filter_record rfl now cs
    rw [tail_notes h] at hrecord
    constructor
    · simp [hrecord]
    · intro _ c hc
      rw [hrecord, List.mem_singleton] at hc
      rw [hc]
      exact Condition.part_status_entry _ t
  · -- without a note there is nothing to clear
    have hnone : notes cs = [] := by
      simpa [notes, List.filter_eq_nil_iff, List.any_eq_true] using hany
    rw [if_neg hany]
    exact ⟨by simp [hnone], by simp [hnone]⟩

/-- Whatever becomes of a status, the note stays cleared, as long as no note is added to a request that
was started. -/
theorem Becomes.cleared {stage stage' : Stage} {cs cs' : List Condition}
    (h : Becomes stage cs stage' cs') (hcleared : Cleared stage cs)
    (hmoves : stage = stage' → stage = .unset) : Cleared stage' cs' := by
  have hsame : ∀ cs', notes cs' = notes cs → stage ≠ .unset → Cleared stage' cs' := by
    intro cs' hnotes hstarted
    refine ⟨hnotes ▸ hcleared.one, ?_⟩
    intro _
    rw [hnotes]
    exact hcleared.cleared hstarted
  cases h with
  | @waiting _ _ message now =>
    -- a note that keeps the stage is written before the request is started
    obtain rfl := hmoves rfl
    obtain ⟨t, hrecord⟩ : ∃ t,
        notes (Condition.record (Condition.provisionerMissing message .null) now cs) =
          (Condition.provisionerMissing message .null).entry t :: (notes cs).tail :=
      Condition.filter_record rfl now cs
    rw [tail_notes hcleared.one] at hrecord
    exact ⟨by simp [hrecord], fun hstarted => absurd rfl hstarted⟩
  | starting => exact cleared_of_starting hcleared.one _
  | @completing _ message now =>
    have hready : (Condition.ready true message .null).type = .text ConditionType.ready := rfl
    exact hsame _ (Condition.filter_record_of_ne hready (by decide) now cs) (by simp)
  | @failing _ message now now' =>
    have hready : (Condition.ready false message .null).type = .text ConditionType.ready := rfl
    have hfailed : (Condition.jobFailed message .null).type = .text ConditionType.jobFailed := rfl
    refine hsame _ ?_ (by simp)
    exact (Condition.filter_record_of_ne hready (by decide) now' _).trans
      (Condition.filter_record_of_ne hfailed (by decide) now cs)

/-! ## One step -/

section Step

variable {kind : String} {id : Identity} {stage : Stage} {s s' : System}
variable {begins : SafePass Directive → Prop}

/-- Some pass found the request in a stage and was told that its provisioner is missing, and in
`Creating` that its job is. -/
def BereftIn (kind : String) (id : Identity) (stage : Stage) (s : System) : Prop :=
  ∃ h ∈ s.histories, ∃ copy, h.reads (requestAt kind id) = [copy] ∧
    stageOf copy = .ok stage ∧ Bereft h copy stage

/-- The status of a request is as it was, or one that a pass may write after it read a request with the status
as it was. -/
def StatusFollows (kind : String) (id : Identity) (s : System) (request request' : Value) : Prop :=
  request'.field? "status" = request.field? "status" ∨
    ∃ h ∈ s.histories, ∃ copy o, h.reads (requestAt kind id) = [copy] ∧ StatusWrite h copy o ∧
      copy.field? "status" = request.field? "status" ∧ request'.field? "status" = o.field? "status"

/-- In one step of any interleaving the stored status is kept, or a pass writes it. -/
theorem Staged.status_step (hkind : kind ∈ requestKinds) (hs : Staged kind id stage s)
    (hstep : System.Step begins (Edits (requestAt kind id)) s s') {request : Value}
    (hstored : s.cluster.find? (requestAt kind id) = some request) :
    ∃ request', s'.cluster.find? (requestAt kind id) = some request' ∧
      StatusFollows kind id s request request' := by
  rcases hs.stored with ⟨request', hstored', -, hself, hcopies⟩
  obtain rfl : request = request' := Option.some.inj (hstored.symm.trans hstored')
  have hkept : s'.cluster.find? (requestAt kind id) = s.cluster.find? (requestAt kind id) →
      ∃ request', s'.cluster.find? (requestAt kind id) = some request' ∧
        StatusFollows kind id s request request' := by
    intro hfind
    exact ⟨request, hfind.trans hstored, .inl rfl⟩
  rcases hstep.change hs.sound with ⟨hout, -⟩ | ⟨hcluster, -⟩ |
    ⟨h, hh, call, reply, -, hmay, hanswer, -⟩
  · rcases hout.request with hsame | ⟨before, after, hb, ha, -, hstatus, -⟩
    · exact hkept hsame
    · obtain rfl : request = before := Option.some.inj (hstored.symm.trans hb)
      exact ⟨after, ha, .inl hstatus⟩
  · exact hkept (by rw [hcluster])
  · cases hmay with
    | request _ | other _ => exact hkept (by rw [eq_of_fetching hanswer])
    | job _ _ _ hjob =>
      rcases after_unreliable hanswer with heq | heq
      · exact hkept (by rw [heq])
      · rcases find?_createJob hkind hjob id s.cluster with ⟨hfind, -⟩
        exact hkept (by rw [heq]; exact hfind)
    | @status copy o hread hwrite =>
      rcases hwrite.moves with ⟨_, _, status, -, -, -, -, hset⟩
      have hseen := hcopies h hh copy (by simp [hread])
      rcases after_unreliable hanswer with heq | heq
      · exact hkept (by rw [heq])
      · -- the write was refused, or the copy was up to date
        rcases hseen.updateStatus hself hstored hset with hsame |
          ⟨replaced, hdone, hstatus, -, hfield, -⟩
        · exact hkept (by rw [heq]; exact congrArg (·.find? (requestAt kind id)) hsame)
        · refine ⟨replaced, ?_, .inr ⟨h, hh, copy, o, hread, hwrite, hstatus, ?_⟩⟩
          · rw [heq, perform, hdone]
            simp [find?_withObject]
          · rw [hfield, Value.field?_setField hset]

/-- A request is stored whose stage and conditions are known. -/
structure Legible (kind : String) (id : Identity) (stage : Stage) (cs : List Condition)
    (s : System) : Prop where
  staged : Staged kind id stage s
  conditions : ∃ request, s.cluster.find? (requestAt kind id) = some request ∧
    conditionsOf request = .ok cs

/-- One step of any interleaving keeps stage and conditions, or what a pass may write becomes of them. And
if the stage stays the same then, that pass was bereft. -/
theorem Legible.step {cs : List Condition} (hkind : kind ∈ requestKinds)
    (hbegins : ∀ p, begins p → SafePass.Ensures noted (MayAsk kind id) (fun _ _ => True) p [])
    (hs : Legible kind id stage cs s)
    (hstep : System.Step begins (Edits (requestAt kind id)) s s') :
    ∃ stage' cs', Legible kind id stage' cs' s' ∧
      (stage' = stage ∧ cs' = cs ∨
        Becomes stage cs stage' cs' ∧ stage.isFinal = false ∧
          (stage = stage' → BereftIn kind id stage s)) := by
  rcases hs.conditions with ⟨request, hstored, hcs⟩
  rcases hs.staged.stored with ⟨request', hstored', hstage, hself, hcopies⟩
  obtain rfl : request = request' := Option.some.inj (hstored.symm.trans hstored')
  rcases hs.staged.step hkind hbegins hstep with ⟨after, -, hstaged⟩
  rcases hstaged.stored with ⟨replaced, hreplaced, hafter, hself', -⟩
  rcases hs.staged.status_step hkind hstep hstored with ⟨replaced', hfind, hstatus⟩
  obtain rfl : replaced = replaced' := Option.some.inj (hreplaced.symm.trans hfind)
  rcases hstatus with hsame | ⟨h, hh, copy, o, hread, hwrite, hcopy, ho⟩
  · -- the status is the same, and so is what it says
    have hafter' := stageOf_congr hself'.address hself.address hsame
    obtain rfl : after = stage := Except.ok.inj (hafter.symm.trans (hafter'.trans hstage))
    have hcs' := conditionsOf_congr hself'.address hself.address hsame
    exact ⟨after, cs, ⟨hstaged, replaced, hfind, hcs'.trans hcs⟩, .inl ⟨rfl, rfl⟩⟩
  · have haddr := (hcopies h hh copy (by simp [hread])).address
    rcases hwrite.moves with ⟨before, _, status, hbefore, hopen, -, -, hset⟩
    have haddr' : addressOf o = .ok (requestAt kind id) := by
      rw [addressOf_setField hset (by decide) (by decide), haddr]
    rcases hwrite.becomes with ⟨stage₁, cs₁, stage₂, cs₂, hstage₁, hcs₁, hstage₂, hcs₂, hbecomes,
      hbereft⟩
    -- the copy said what the stored request says, and what is written is what is stored then
    have hcopyStage := stageOf_congr haddr hself.address hcopy
    obtain rfl : stage₁ = stage :=
      Except.ok.inj (hstage₁.symm.trans (hcopyStage.trans hstage))
    have hcopyConditions := conditionsOf_congr haddr hself.address hcopy
    obtain rfl : cs₁ = cs := Except.ok.inj (hcs₁.symm.trans (hcopyConditions.trans hcs))
    have hafter' := stageOf_congr hself'.address haddr' ho
    obtain rfl : after = stage₂ := Except.ok.inj (hafter.symm.trans (hafter'.trans hstage₂))
    have hcs' := conditionsOf_congr hself'.address haddr' ho
    obtain rfl : before = stage₁ := Except.ok.inj (hbefore.symm.trans hstage₁)
    refine ⟨after, cs₂, ⟨hstaged, replaced, hfind, hcs'.trans hcs₂⟩, .inr ⟨hbecomes, hopen, ?_⟩⟩
    intro hstays
    exact ⟨h, hh, copy, hread, hstage₁, hbereft hstays⟩

end Step

/-! ## Runs -/

section Runs

variable {kind : String} {id : Identity} {first : System} {states : List System}

theorem legible_idle {c : Cluster} {request : Value} {stage : Stage} {cs : List Condition}
    (hstored : c.find? (requestAt kind id) = some request)
    (haddr : addressOf request = .ok (requestAt kind id)) (hversion : Versioned c request)
    (hstage : stageOf request = .ok stage) (hconditions : conditionsOf request = .ok cs) :
    Legible kind id stage cs (System.idle c) :=
  ⟨⟨System.sound_idle c, request, hstored, hstage, ⟨haddr, hversion, fun _ => rfl⟩,
    by simp [System.histories, System.idle]⟩, request, hstored, hconditions⟩

/-- Whatever happens, stage and conditions stay known. -/
theorem Legible.run {stage : Stage} {cs : List Condition} (hkind : kind ∈ requestKinds)
    (hfirst : Legible kind id stage cs first)
    (hrun : System.Run (System.Step (PassOver kind id) (Edits (requestAt kind id))) first states) :
    ∀ s ∈ states, ∃ stage cs, Legible kind id stage cs s := by
  refine hrun.invariant ⟨stage, cs, hfirst⟩ ?_
  rintro s s' ⟨stage, cs, hs⟩ hstep
  rcases hs.step hkind (PassOver.asks hkind) hstep with ⟨stage', cs', hs', -⟩
  exact ⟨stage', cs', hs'⟩

/-- A request without a status was never started, and has no conditions. -/
theorem of_no_status {request : Value} {a : Address} (haddr : addressOf request = .ok a)
    (hstatus : (request.field? "status").getD .null = .null) :
    stageOf request = .ok .unset ∧ conditionsOf request = .ok [] := by
  rcases addressOf_eq_ok.mp haddr with ⟨_, hmeta, -⟩
  have hread : request.fieldOrNull "status" = .ok .null := by
    rw [Value.fieldOrNull, Value.fieldOr_eq_getD hmeta, hstatus]
  constructor
  · simp only [stageOf, hread, bind, Except.bind]
    rfl
  · simp only [conditionsOf, statusOf, hread, bind, Except.bind]
    rfl

/-- As long as no pass was bereft in `Creating`, the note stays cleared. -/
theorem Legible.cleared_run {stage : Stage} {cs : List Condition} (hkind : kind ∈ requestKinds)
    (hfirst : Legible kind id stage cs first) (hcleared : Cleared stage cs)
    (hrun : System.Run (System.Step (PassOver kind id) (Edits (requestAt kind id))) first states)
    (hnot : ∀ s ∈ states, ¬ BereftIn kind id .creating s) :
    ∀ s ∈ states, ∃ stage cs, Legible kind id stage cs s ∧ Cleared stage cs := by
  induction hrun with
  | start =>
    intro s hs
    obtain rfl := List.mem_singleton.mp hs
    exact ⟨_, _, hfirst, hcleared⟩
  | @next s s' past hrun hstep ih =>
    have hbefore := ih fun t ht => hnot t (List.mem_cons_of_mem _ ht)
    intro t ht
    rcases List.mem_cons.mp ht with rfl | ht
    · rcases hbefore s (by simp) with ⟨stage, cs, hs, hcleared⟩
      -- the latest step keeps stage and conditions, or is one of those that they may take
      rcases hs.step hkind (PassOver.asks hkind) hstep with ⟨stage', cs', hs', hsame | hmoved⟩
      · rcases hsame with ⟨rfl, rfl⟩
        exact ⟨_, _, hs', hcleared⟩
      · rcases hmoved with ⟨hbecomes, hopen, hbereft⟩
        refine ⟨_, _, hs', hbecomes.cleared hcleared ?_⟩
        intro hstays
        have hbereft := hbereft hstays
        cases stage with
        | unset => rfl
        | creating => exact absurd hbereft (hnot s (by simp))
        | ready | failed => simp [Stage.isFinal] at hopen
    · exact hbefore t ht

/-- Whatever passes, edits and failing calls come in whatever order, and whoever makes, removes and changes
jobs and provisioners: as long as no pass finds the request in `Creating` without both its job and its
provisioner, a request that was started does not say that its provisioner is missing. -/
theorem no_stale_waiting {kind : String} {id : Identity} {c : Cluster} {request : Value}
    {states : List System} (hkind : kind ∈ requestKinds)
    (hstored : c.find? (requestAt kind id) = some request)
    (haddr : addressOf request = .ok (requestAt kind id)) (hversion : Versioned c request)
    (hstatus : (request.field? "status").getD .null = .null)
    (hrun : System.Run (System.Step (PassOver kind id) (Edits (requestAt kind id)))
      (System.idle c) states)
    (hnot : ∀ s ∈ states, ¬ BereftIn kind id .creating s) :
    ∀ s ∈ states, ∃ request stage cs, s.cluster.find? (requestAt kind id) = some request ∧
      stageOf request = .ok stage ∧ conditionsOf request = .ok cs ∧
      (stage ≠ .unset → ∀ c ∈ cs, c.isOf (.text ConditionType.provisionerNotFound) = true →
        c.part "status" = .text "False") := by
  rcases of_no_status haddr hstatus with ⟨hunset, hnone⟩
  have hfirst := legible_idle hstored haddr hversion hunset hnone
  have hcleared : Cleared .unset [] := ⟨by simp [notes], by simp [notes]⟩
  intro s hs
  rcases hfirst.cleared_run hkind hcleared hrun hnot s hs with
    ⟨stage, cs, ⟨hstaged, request', hfind, hcs⟩, hcleared⟩
  rcases hstaged.stored with ⟨request'', hfind', hstage, -⟩
  obtain rfl : request' = request'' := Option.some.inj (hfind.symm.trans hfind')
  refine ⟨request', stage, cs, hfind, hstage, hcs, ?_⟩
  intro hstarted c hc hnote
  exact hcleared.cleared hstarted c (List.mem_filter.mpr ⟨hc, hnote⟩)

end Runs

/-! ### A request that waits for its provisioner -/

theorem edits_refl {a : Address} (c : Cluster) : Edits a c c :=
  ⟨Nat.le_refl _, .inl rfl⟩

/-- Others may put anything in place that is not the request. -/
theorem edits_put {a b : Address} {object : Value} (haddr : addressOf object = .ok b)
    (hn : b.nameable = true) (hne : a ≠ b) (c : Cluster) : Edits a c (c.put object).2 := by
  obtain ⟨stored, -, -, -, hput⟩ := put_of_address (c := c) haddr hn
  rw [hput]
  refine ⟨by simp, .inl ?_⟩
  rw [find?_withObject, if_neg hne]
  rfl

/-- A pass was told that a job is missing, or could not look for it. -/
def jobUnseen : StoreCall × Except Failure Value → Bool
  | (.get kind _ _, .error _) => kind = .text Kind.job
  | _ => false

/-- Only a pass that did not see the job is bereft. -/
theorem not_bereftIn {kind : String} {id : Identity} {s : System}
    (hseen : ∀ h ∈ s.histories, ∀ e ∈ h, jobUnseen e = false) : ¬ BereftIn kind id .creating s := by
  rintro ⟨h, hh, copy, -, -, hbereft⟩
  rcases hbereft.job rfl with ⟨a, ha, f, hmem, -⟩
  have hkind : a.kind = .text Kind.job := by
    simp only [jobAt, bind_eq_ok, pure_eq_ok] at ha
    rcases ha with ⟨_, -, _, -, _, -, rfl⟩
    rfl
  have hunseen := hseen h hh _ hmem
  simp [jobUnseen, hkind] at hunseen

/-- The stage of a request, and what its notes say. -/
def noteAt (a : Address) (c : Cluster) : Option (Stage × List Value) := do
  let request ← c.find? a
  let stage ← (stageOf request).toOption
  let cs ← (conditionsOf request).toOption
  return (stage, (notes cs).map (·.part "status"))

def putSampleProvisioner (c : Cluster) : Cluster :=
  (c.put sampleProvisioner).2

theorem edits_putSampleProvisioner (c : Cluster) :
    Edits (requestAt Kind.resource sampleId) c (putSampleProvisioner c) :=
  edits_put rfl rfl (by decide) c

theorem edits_completeSampleJob (c : Cluster) :
    Edits (requestAt Kind.resource sampleId) c (completeSampleJob c) :=
  edits_edited (by decide) _ c

/-- The run of passes over the request for a database, with others acting in between. -/
def sampleTurns (turns : Nat) (c : Cluster) (changes : List (Cluster → Cluster)) : List System :=
  (System.idle c).played []
    (System.inTurn ((handler {} Kind.resource).reconcile {} sampleId) turns changes)

/-- Passes over the sample request that take turns with edits of others make a run of the system. -/
theorem run_sampleTurns {turns : Nat} {changes : List (Cluster → Cluster)} (c : Cluster)
    (hchanges : ∀ change ∈ changes, ∀ c, Edits (requestAt Kind.resource sampleId) c (change c)) :
    System.Run (System.Step (PassOver Kind.resource sampleId)
      (Edits (requestAt Kind.resource sampleId))) (System.idle c) (sampleTurns turns c changes) :=
  System.run_of_moves (System.inTurn_allowed ⟨_, _, rfl⟩ hchanges) _

/-- A cluster with a request whose provisioner is missing. -/
def lonelyCluster : Cluster :=
  (Cluster.empty.put (sampleRequest Kind.resource)).2

/-- The provisioner comes while the request waits for it, and then the job completes. -/
def lateProvisioner : List (Cluster → Cluster) :=
  [id, putSampleProvisioner, completeSampleJob]

theorem late_provisioner_clears_note :
    ((sampleTurns 30 lonelyCluster lateProvisioner).map fun s =>
        noteAt (requestAt Kind.resource sampleId) s.cluster).destutter (· ≠ ·) =
      [some (.ready, [.text "False"]), some (.creating, [.text "False"]),
        some (.unset, [.text "True"]), some (.unset, [])] ∧
    ∀ s ∈ sampleTurns 30 lonelyCluster lateProvisioner, ∃ request stage cs,
      s.cluster.find? (requestAt Kind.resource sampleId) = some request ∧
      stageOf request = .ok stage ∧ conditionsOf request = .ok cs ∧
      (stage ≠ .unset → ∀ c ∈ cs, c.isOf (.text ConditionType.provisionerNotFound) = true →
        c.part "status" = .text "False") := by
  have hchanges : ∀ change ∈ lateProvisioner, ∀ c,
      Edits (requestAt Kind.resource sampleId) c (change c) := by
    simp only [lateProvisioner, List.forall_mem_cons]
    exact ⟨edits_refl, edits_putSampleProvisioner, edits_completeSampleJob, by simp⟩
  have hseen : ∀ s ∈ sampleTurns 30 lonelyCluster lateProvisioner, ∀ h ∈ s.histories, ∀ e ∈ h,
      jobUnseen e = false := by decide +kernel
  refine ⟨by decide +kernel, ?_⟩
  exact no_stale_waiting (by decide) rfl rfl ⟨1, by decide, rfl⟩ rfl
    (run_sampleTurns lonelyCluster hchanges) fun s hs => not_bereftIn (hseen s hs)

/-! ### A request that is bereft -/

/-- Whatever others do between the passes over the request for a database, once it is finished it does not
say that its provisioner is missing. -/
def NoStaleWaiting (c : Cluster) : Prop :=
  ∀ changes : List (Cluster → Cluster),
    (∀ change ∈ changes, ∀ c, Edits (requestAt Kind.resource sampleId) c (change c)) →
    ∀ s ∈ sampleTurns 30 c changes, ∀ request stage cs,
      s.cluster.find? (requestAt Kind.resource sampleId) = some request →
      stageOf request = .ok stage → stage.isFinal = true → conditionsOf request = .ok cs →
      ∀ c ∈ cs, c.isOf (.text ConditionType.provisionerNotFound) = true →
        c.part "status" = .text "False"

/-- The job and the provisioner of databases are removed. -/
def bereave (c : Cluster) : Cluster :=
  (c.delete ⟨.text Kind.job, .text "default", .text "db"⟩).delete
    ⟨.text Kind.provisioner, .text "default", .text "postgres"⟩

/-- A request loses its job and its provisioner while it is in `Creating`. The provisioner comes back, the
job is made again, and it completes. -/
def losses : List (Cluster → Cluster) :=
  [id, bereave, putSampleProvisioner, completeSampleJob]

theorem noteAt_losses :
    (sampleTurns 30 (sampleCluster Kind.resource) losses).head?.bind
      (noteAt (requestAt Kind.resource sampleId) ·.cluster) = some (.ready, [.text "True"]) := by
  decide +kernel

/-- A request that was bereft for a while is finished and still says that its provisioner is missing. -/
theorem not_noStaleWaiting :
    ((sampleCluster Kind.resource).find? (requestAt Kind.resource sampleId)).map
        (·.field? "status") = some none ∧
      ¬ NoStaleWaiting (sampleCluster Kind.resource) := by
  refine ⟨by decide, fun hnever => ?_⟩
  have hchanges : ∀ change ∈ losses, ∀ c,
      Edits (requestAt Kind.resource sampleId) c (change c) := by
    simp only [losses, List.forall_mem_cons]
    refine ⟨edits_refl, fun c => ⟨Nat.le_refl _, .inl ?_⟩, edits_putSampleProvisioner,
      edits_completeSampleJob, by simp⟩
    rw [bereave, find?_delete, if_neg (by decide), find?_delete, if_neg (by decide)]
  -- the run is played out, and its last state is finished and has the note
  rcases Option.bind_eq_some_iff.mp noteAt_losses with ⟨s, hs, hnote⟩
  simp only [noteAt, Option.bind_eq_bind, Option.bind_eq_some_iff, Option.pure_def,
    Option.some.injEq, Prod.mk.injEq, toOption_eq_some] at hnote
  rcases hnote with ⟨request, hfind, stage, hstage, cs, hcs, rfl, hnotes⟩
  obtain ⟨c, hc, htrue⟩ : ∃ c ∈ notes cs, c.part "status" = .text "True" := by
    refine List.mem_map.mp ?_
    rw [hnotes]
    exact List.mem_singleton_self _
  rcases List.mem_filter.mp hc with ⟨hmem, hisOf⟩
  have hfalse := hnever losses hchanges s (List.mem_of_mem_head? hs) request .ready cs hfind hstage rfl
    hcs c hmem hisOf
  rw [htrue] at hfalse
  exact absurd hfalse (by decide)

end Provisioning

end Reconciler
