import Reconciler.Proofs.Convergence.Annotations

/-! # The wake-up loop comes to rest

A pass over a parent writes to its children, a write to a child causes an event, an event about a change
annotates the owner of the child, and an annotation of the parent wakes it for another pass. Two things end
this: creations are no changes, and what is built for a parent does not depend on its annotations. So a write
to a child is paid for by a child that was to be corrected, an event by a write, and a wake-up by an event.

Main definitions and statements:

* `Loop`, `Loop.Step`: cluster, events and pending pass, and what may happen next;
* `Turning`: what every step keeps, and `Loop.work`, which every step makes smaller;
* `Turning.step`: one step of the loop;
* `wake_ups_come_to_rest`: every run.
-/

namespace Reconciler

open Cluster Manifest

namespace Convergence

/-! ## The loop -/

/-- An event about a child: what happened, and the child as it was stored then. -/
structure ChildChange where
  type : String
  body : Value

/-- A cluster, the events that were not delivered yet, and whether a pass over the parent is pending. -/
structure Loop where
  cluster : Cluster
  events : List ChildChange
  pending : Bool

/-- The event that a write causes, if objects of its kind are watched. -/
def eventOf (watched : Value → Bool) (c : Cluster) (w : Write) : Option ChildChange :=
  if watched w.address.kind = false then none
  else if w.operation = "create" then some ⟨"ADDED", (c.find? w.address).getD .null⟩
  else if w.operation = "update" then some ⟨"MODIFIED", (c.find? w.address).getD .null⟩
  else none

namespace Loop

variable {watched : Value → Bool} {a : Address} {settings : Settings} {family : Family} {ns : Value}
variable {name : String} {s s' : Loop} {c : Cluster} {events : List ChildChange} {pending : Bool}

/-- The loop after something left another cluster: what was written causes events, and annotating the parent
makes a pass pending. -/
def after (watched : Value → Bool) (a : Address) (s : Loop) (events : List ChildChange) (pending : Bool)
    (c : Cluster) : Loop :=
  let writes := c.journal.drop s.cluster.journal.length
  { cluster := c
    events := events ++ writes.filterMap (eventOf watched c)
    pending := pending || decide (⟨"annotate", a⟩ ∈ writes) }

/-- What may happen next: a pending pass runs, and is pending no more if it is done; or any of the events is
delivered. -/
inductive Step (watched : Value → Bool) (settings : Settings) (family : Family) (ns : Value)
    (name : String) : Loop → Loop → Prop where
  | pass {s : Loop} {d : Directive} {c : Cluster} :
      s.pending = true →
      Program.Leads (facing reliable) ((family.handler settings).reconcile settings ⟨ns, .text name⟩)
        s.cluster (.done d) c →
      Step watched settings family ns name s
        (s.after watched (family.parentAt ns name) s.events (decide (d ≠ .done)) c)
  | deliver {s : Loop} {before rest : List ChildChange} {e : ChildChange} {r : Except Failure Unit}
      {c : Cluster} :
      s.events = before ++ e :: rest →
      Program.Leads (facing reliable) (childEvent e.body (.text e.type)).run s.cluster (.done r) c →
      Step watched settings family ns name s
        (s.after watched (family.parentAt ns name) (before ++ rest) s.pending c)

/-- So many steps lead from one loop to another. -/
inductive Runs (step : Loop → Loop → Prop) (first : Loop) : Nat → Loop → Prop where
  | start : Runs step first 0 first
  | next {n : Nat} {s s' : Loop} : Runs step first n s → step s s' → Runs step first (n + 1) s'

/-- Where nothing was written, no event is added. -/
theorem after_of_unwritten (h : c.journal = s.cluster.journal) :
    s.after watched a events pending c = ⟨c, events, pending⟩ := by
  simp [after, h]

/-- One write adds one event at most, and a pass if it annotated the parent. -/
theorem after_of_written {w : Write} (h : c.journal = s.cluster.journal ++ [w]) :
    s.after watched a events pending c =
      ⟨c, events ++ (eventOf watched c w).toList, pending || decide (w = ⟨"annotate", a⟩)⟩ := by
  have hwrites : c.journal.drop s.cluster.journal.length = [w] := by simp [h]
  cases hevent : eventOf watched c w <;> simp [after, hwrites, hevent, eq_comm]

/-- As long as a pass is pending or an event is left, something can happen. -/
theorem exists_step (h : s.pending = true ∨ s.events ≠ []) :
    ∃ s', Step watched settings family ns name s s' := by
  have hend : ∀ {α : Type} (p : SafePass α), ∃ r c, Program.Leads (facing reliable) p s.cluster (.done r) c :=
    fun p => Program.exists_leads_done (fun c op => ⟨_, _, c.facing_answered op⟩) p s.cluster
  rcases h with hpending | hevents
  · obtain ⟨d, c, hrun⟩ := hend ((family.handler settings).reconcile settings ⟨ns, .text name⟩)
    exact ⟨_, .pass hpending hrun⟩
  · cases hqueue : s.events with
    | nil => exact absurd hqueue hevents
    | cons e rest =>
      obtain ⟨r, c, hrun⟩ := hend (childEvent e.body (.text e.type)).run
      exact ⟨_, .deliver (List.nil_append (e :: rest) ▸ hqueue) hrun⟩

end Loop

/-! ## Deliveries -/

/-- What delivering an event does to a cluster: nothing, or one owner is annotated. -/
def Nudged (c c' : Cluster) : Prop :=
  c' = c ∨ ∃ a annotations v, a.kind ∈ ownerKinds ∧ Value.ProperFields annotations ∧
    c.annotate a (.object annotations) = (.ok v, c')

/-- Annotating an owner, with or without success, is all that an event may do. -/
theorem nudged_of_reliable {c c' : Cluster} {kind ns name : Value} {annotations : Fields}
    {reply : Except Failure Value} (hkind : kind ∈ ownerKinds)
    (hannotations : Value.ProperFields annotations)
    (h : reliable c (.annotate kind ns name (.object annotations)) reply c') : Nudged c c' := by
  have hafter : c' = (c.annotate ⟨kind, ns, name⟩ (.object annotations)).2 := h.2
  rcases annotate_cases c ⟨kind, ns, name⟩ (.object annotations) with
    ⟨f, hrefused⟩ | ⟨_, _, _, replaced, -, -, -, -, -, hdone⟩
  · left
    rw [hafter, hrefused]
  · right
    refine ⟨⟨kind, ns, name⟩, annotations, replaced, hkind, hannotations, ?_⟩
    rw [hafter, hdone]

/-- Delivering an event annotates the owner of the child at most. -/
theorem childEvent_ensures (body type : Value) (c : Cluster) :
    Pass.Ensures reliable (fun _ _ => True) (fun c' _ => Nudged c c') (childEvent body type) c := by
  have hsame : Nudged c c := .inl rfl
  unfold childEvent
  split
  · refine Pass.ensures_read (fun fields _ => ?_) (fun _ _ => hsame)
    rw [Pass.ensures_bind]
    -- the owner is looked up without asking the store, so at most the annotation is called for
    have hnudge : Pass.Ensures reliable (fun _ _ => True) (fun c' _ => Nudged c c')
        (nudgeOwner (.object fields) ownerKinds) c := by
      unfold nudgeOwner
      refine Pass.ensures_read (fun owner (howner : owningResource (.object fields) ownerKinds = .ok owner) => ?_) (fun _ _ => hsame)
      split
      · exact hsame
      · next kind id =>
        have hkind : kind ∈ ownerKinds := mem_of_owningResource howner
        refine Pass.ensures_read (fun marker _ => ?_) (fun _ _ => hsame)
        have hmark : Value.ProperFields [(childChangedKey, .text marker)] := ⟨trivial, trivial⟩
        refine Pass.ensures_attempt trivial ?_
        intro reply c' hreply
        have hnudged : Nudged c c' := nudged_of_reliable hkind hmark hreply
        -- whatever the store answered, nothing else is asked of it
        cases reply with
        | ok v => exact hnudged
        | error f =>
          dsimp only
          split
          · exact Pass.ensures_tell hnudged
          · split
            · exact Pass.ensures_tell hnudged
            · exact hnudged
    refine Pass.Ensures.mono hnudge (fun _ _ h => h) ?_
    rintro c' (f | owner) hnudged
    · exact hnudged
    · exact hnudged
  · exact hsame

/-! ## What every step keeps -/

section Turning

variable {watched : Value → Bool} {settings : Settings} {family : Family} {ns parent : Value}
variable {name : String} {start c c' : Cluster} {s s' first : Loop}

def childWrites (family : Family) (ns : Value) (name : String) (c : Cluster) : Nat :=
  c.journal.countP fun w => decide (w.address ∈ family.addresses ns name)

/-- The parent is stored as it was or with other annotations; a pass is pending as long as a child is to be
corrected; and every child that is no longer to be corrected was written to once. -/
structure Turning (family : Family) (ns : Value) (name : String) (parent : Value) (start : Cluster)
    (s : Loop) : Prop where
  current : ∃ v, Fits family ns name v s.cluster ∧ Annotated parent v
  woken : s.pending = true ∨ due (family.children parent ns name) s.cluster = 0
  written : childWrites family ns name s.cluster + due (family.children parent ns name) s.cluster =
    childWrites family ns name start + due (family.children parent ns name) start

/-- What is left to do: a child to be corrected may still cause a write, an event and a wake-up, an event may
still cause a wake-up. -/
def Loop.work (children : List Child) (s : Loop) : Nat :=
  3 * due children s.cluster + 2 * s.events.length + (if s.pending then 1 else 0)

/-- A write counts if it is to a child. -/
theorem childWrites_append {w : Write} (h : c'.journal = c.journal ++ [w]) :
    childWrites family ns name c' =
      childWrites family ns name c + (if w.address ∈ family.addresses ns name then 1 else 0) := by
  have hone : [w].countP (fun w => decide (w.address ∈ family.addresses ns name)) =
      if w.address ∈ family.addresses ns name then 1 else 0 := by
    by_cases hmem : w.address ∈ family.addresses ns name <;> simp [hmem]
  rw [childWrites, h, List.countP_append, hone, childWrites]

/-- What is left to be corrected depends on the children only. -/
theorem due_congr {children : List Child}
    (h : ∀ child ∈ children, c'.find? child.address = c.find? child.address) :
    due children c' = due children c := by
  have hmissing : children.countP (missing c') = children.countP (missing c) := by
    refine List.countP_congr ?_
    intro child hchild
    rw [missing, missing, h child hchild]
  have hdrifted : children.countP (drifted c') = children.countP (drifted c) := by
    refine List.countP_congr ?_
    intro child hchild
    rw [drifted, drifted, h child hchild]
  rw [due, due, hmissing, hdrifted]

/-- A pass that found nothing to do leaves nothing pending. -/
theorem Turning.pass_idle (h : Turning family ns name parent start s) (hpending : s.pending = true)
    (hdue : due (family.children parent ns name) s.cluster = 0) :
    Turning family ns name parent start ⟨s.cluster, s.events, false⟩ ∧
      Loop.work (family.children parent ns name) ⟨s.cluster, s.events, false⟩ <
        s.work (family.children parent ns name) := by
  refine ⟨⟨h.current, .inr hdue, h.written⟩, ?_⟩
  simp [Loop.work, hpending]

/-- A pass that wrote to a child made one write, and left one child fewer to be corrected. -/
theorem Turning.pass_corrected {operation : String} {child : Child} {v : Value}
    (h : Turning family ns name parent start s) (hfits : Fits family ns name v c)
    (hsame : Annotated parent v) (hchild : child ∈ family.children parent ns name)
    (hcorrected : Corrected operation child s.cluster c)
    (hdue : due (family.children parent ns name) c + 1 = due (family.children parent ns name) s.cluster)
    {events : List ChildChange} (hevents : events.length ≤ s.events.length + 1)
    (hpending : s.pending = true) :
    Turning family ns name parent start ⟨c, events, true⟩ ∧
      Loop.work (family.children parent ns name) ⟨c, events, true⟩ <
        s.work (family.children parent ns name) := by
  have hmem : child.address ∈ family.addresses ns name := mem_addresses hchild
  have hjournal : c.journal = s.cluster.journal ++ [⟨operation, child.address⟩] := by
    rcases hcorrected with ⟨stored, -, -, rfl⟩
    simp
  have hwritten : childWrites family ns name c = childWrites family ns name s.cluster + 1 := by
    rw [childWrites_append hjournal, if_pos hmem]
  have hbefore := h.written
  refine ⟨⟨⟨v, hfits, hsame⟩, .inl rfl, ?_⟩, ?_⟩
  · show childWrites family ns name c + due _ c = _
    omega
  · -- one child fewer pays for the one event more
    show 3 * due _ c + 2 * events.length + 1 < s.work _
    have hwork : s.work (family.children parent ns name) =
        3 * due (family.children parent ns name) s.cluster + 2 * s.events.length + 1 := by
      simp [Loop.work, hpending]
    omega

/-- An event that was delivered is gone, whether it woke the parent or not. -/
theorem Turning.delivered {v : Value} (h : Turning family ns name parent start s)
    (hfits : Fits family ns name v c) (hsame : Annotated parent v)
    (hchildren : ∀ child ∈ family.children parent ns name,
      c.find? child.address = s.cluster.find? child.address)
    (hwritten : childWrites family ns name c = childWrites family ns name s.cluster)
    {events : List ChildChange} (hevents : events.length + 1 = s.events.length) {pending : Bool}
    (hpending : s.pending = true → pending = true) :
    Turning family ns name parent start ⟨c, events, pending⟩ ∧
      Loop.work (family.children parent ns name) ⟨c, events, pending⟩ <
        s.work (family.children parent ns name) := by
  have hdue := due_congr hchildren
  have hbefore := h.written
  refine ⟨⟨⟨v, hfits, hsame⟩, ?_, ?_⟩, ?_⟩
  · rcases h.woken with hwoken | hnone
    · exact .inl (hpending hwoken)
    · right
      rw [hdue, hnone]
  · show childWrites family ns name c + due _ c = _
    omega
  · show 3 * due _ c + 2 * events.length + (if pending then 1 else 0) < s.work _
    -- the event that is gone pays for the pass that may be pending now
    have hone : (if pending then 1 else 0) ≤ 1 := by split <;> omega
    have hwork : 3 * due (family.children parent ns name) s.cluster + 2 * s.events.length ≤
        s.work (family.children parent ns name) := Nat.le_add_right _ _
    omega

/-- Every step keeps to this, and leaves less to do. -/
theorem Turning.step (hcooldown : 0 < settings.cooldown)
    (haddr : addressOf parent = .ok (family.parentAt ns name))
    (h : Turning family ns name parent start s)
    (hstep : Loop.Step watched settings family ns name s s') :
    Turning family ns name parent start s' ∧
      s'.work (family.children parent ns name) < s.work (family.children parent ns name) := by
  rcases h.current with ⟨v, hfits, hsame⟩
  have hchildren := hsame.children haddr family ns name
  cases hstep with
  | @pass d c hpending hrun =>
    -- the pass sees the parent as it is annotated now, which has the same children
    have honePass : OnePass settings (family.children v ns name) s.cluster c d :=
      (hfits.reconcile_ensures hcooldown).of_leads hrun
    have hprogress := honePass.progress hfits
    have hfewer := hprogress.fewer
    rw [hchildren] at honePass hfewer
    unfold OnePass at honePass
    cases hfirst : (family.children parent ns name).find? (unsettled s.cluster) with
    | none =>
      rw [hfirst] at honePass
      rcases honePass with ⟨rfl, rfl⟩
      have hzero : due (family.children parent ns name) s.cluster = 0 := by
        rw [← countP_unsettled]
        exact List.countP_eq_zero.mpr (List.find?_eq_none.mp hfirst)
      rw [Loop.after_of_unwritten rfl]
      exact h.pass_idle hpending hzero
    | some child =>
      rw [hfirst] at honePass
      have hchild := List.mem_of_find?_eq_some hfirst
      have hpositive : 0 < due (family.children parent ns name) s.cluster := by
        rw [← countP_unsettled]
        exact List.countP_pos_iff.mpr ⟨child, hchild, List.find?_some hfirst⟩
      -- the pass corrects the first unsettled child, and comes back
      have hdue : due (family.children parent ns name) c + 1 =
          due (family.children parent ns name) s.cluster := by omega
      obtain ⟨operation, hcorrected, hnotDone⟩ :
          ∃ operation, Corrected operation child s.cluster c ∧ decide (d ≠ .done) = true := by
        rcases honePass with ⟨-, hcorrected, rfl⟩ | ⟨-, hcorrected, rfl⟩
        · exact ⟨_, hcorrected, by simp⟩
        · exact ⟨_, hcorrected, by simp⟩
      have hjournal : c.journal = s.cluster.journal ++ [⟨operation, child.address⟩] := by
        rcases hcorrected with ⟨stored, -, -, rfl⟩
        simp
      rw [Loop.after_of_written hjournal, hnotDone, Bool.true_or]
      refine h.pass_corrected hprogress.fits hsame hchild hcorrected hdue ?_ hpending
      cases eventOf watched c ⟨operation, child.address⟩ <;> simp
  | @deliver before rest e r c hevents hrun =>
    have hnudged : Nudged s.cluster c :=
      Program.Ensures.of_leads (childEvent_ensures e.body (.text e.type) s.cluster) hrun
    have hlength : (before ++ rest).length + 1 = s.events.length := by
      simp [hevents]
      omega
    rcases hnudged with rfl | ⟨a, annotations, w, hkind, hannotations, hannotate⟩
    · rw [Loop.after_of_unwritten rfl]
      exact h.delivered hfits hsame (fun _ _ => rfl) rfl hlength id
    · -- the owner is no child, so all children are as they were
      have hnot : a ∉ family.addresses ns name := by
        intro hmem
        have hneither : a.kind ≠ .text Kind.starlane ∧ a.kind ≠ .text Kind.postgres :=
          ⟨Family.kind_ne_of_mem_addresses .service hmem, Family.kind_ne_of_mem_addresses .database hmem⟩
        simp [ownerKinds, hneither.1, hneither.2] at hkind
      have hafter : c = (s.cluster.bumped.withObject a w).recorded "annotate" a := by
        rcases annotated_of_annotate hannotate with ⟨_, -, -, hafter⟩
        exact hafter
      have hjournal : c.journal = s.cluster.journal ++ [⟨"annotate", a⟩] := by simp [hafter]
      have hkept : ∀ child ∈ family.children parent ns name,
          c.find? child.address = s.cluster.find? child.address := by
        intro child hchild
        have hne : child.address ≠ a := by
          rintro rfl
          exact hnot (mem_addresses hchild)
        simp [hafter, find?_withObject, hne]
      have hwritten : childWrites family ns name c = childWrites family ns name s.cluster := by
        rw [childWrites_append hjournal, if_neg hnot, Nat.add_zero]
      have hevent : eventOf watched c ⟨"annotate", a⟩ = none := by simp [eventOf]
      obtain ⟨v', hfits', hsame'⟩ : ∃ v', Fits family ns name v' c ∧ Annotated parent v' := by
        by_cases ha : a = family.parentAt ns name
        · subst ha
          rcases hfits.annotated hannotate hannotations with ⟨hfits', hannotated⟩
          exact ⟨w, hfits', hsame.trans hannotated⟩
        · exact ⟨v, hfits.annotated_of_ne hannotate ha hnot, hsame⟩
      rw [Loop.after_of_written hjournal, hevent, Option.toList_none, List.append_nil]
      refine h.delivered hfits' hsame' hkept hwritten hlength ?_
      intro hpending
      simp [hpending]

/-! ## Runs -/

/-- In the beginning a pass is pending, and nothing was done yet. -/
theorem Turning.begin (hfits : Fits family ns name parent start) :
    Turning family ns name parent start ⟨start, [], true⟩ :=
  ⟨⟨parent, hfits, fun _ _ => rfl⟩, .inl rfl, rfl⟩

/-- Of what there was to do in the beginning, every step took something. -/
theorem Turning.runs {n : Nat} (hcooldown : 0 < settings.cooldown)
    (haddr : addressOf parent = .ok (family.parentAt ns name))
    (h : Turning family ns name parent start first)
    (hruns : Loop.Runs (Loop.Step watched settings family ns name) first n s) :
    Turning family ns name parent start s ∧
      n + s.work (family.children parent ns name) ≤ first.work (family.children parent ns name) := by
  induction hruns with
  | start => exact ⟨h, by omega⟩
  | next hruns hstep ih =>
    rcases ih with ⟨hturning, hbound⟩
    rcases hturning.step hcooldown haddr hstep with ⟨hnext, hless⟩
    exact ⟨hnext, by omega⟩

/-- There is a run to an end. -/
theorem Turning.exists_end (hcooldown : 0 < settings.cooldown)
    (haddr : addressOf parent = .ok (family.parentAt ns name)) {n : Nat}
    (h : Turning family ns name parent start s)
    (hruns : Loop.Runs (Loop.Step watched settings family ns name) first n s) :
    ∃ m s', Loop.Runs (Loop.Step watched settings family ns name) first m s' ∧
      ∀ s'', ¬ Loop.Step watched settings family ns name s' s'' := by
  -- the less there is to do, the nearer is the end
  induction hwork : s.work (family.children parent ns name) using Nat.strong_induction_on
    generalizing s n with
  | _ work ih =>
    by_cases hend : ∃ s', Loop.Step watched settings family ns name s s'
    · rcases hend with ⟨s', hstep⟩
      rcases h.step hcooldown haddr hstep with ⟨hnext, hless⟩
      exact ih _ (hwork ▸ hless) hnext (hruns.next hstep) rfl
    · exact ⟨n, s, hruns, fun s' hstep => hend ⟨s', hstep⟩⟩

/-- A loop at rest: no event and no pass is left, all children are there as they are wanted, and another pass
would find so. -/
structure AtRest (settings : Settings) (family : Family) (ns : Value) (name : String) (parent : Value)
    (s : Loop) : Prop where
  delivered : s.events = []
  idle : s.pending = false
  settled : ∀ child ∈ family.children parent ns name, ∃ object,
    s.cluster.find? child.address = some object ∧
      ∀ wanted, child.exposure = some wanted → (exposureOf object).same wanted = true
  inSync : ∀ d c, Program.Leads (facing reliable)
    ((family.handler settings).reconcile settings ⟨ns, .text name⟩) s.cluster (.done d) c →
      d = .done ∧ c = s.cluster

/-- A loop in which nothing can happen is at rest. -/
theorem Turning.atRest (hcooldown : 0 < settings.cooldown)
    (haddr : addressOf parent = .ok (family.parentAt ns name))
    (h : Turning family ns name parent start s)
    (hend : ∀ s', ¬ Loop.Step watched settings family ns name s s') :
    AtRest settings family ns name parent s ∧
      due (family.children parent ns name) s.cluster = 0 := by
  -- a pending pass or an event left could still take its step
  have hnone : ¬ (s.pending = true ∨ s.events ≠ []) := by
    intro hsome
    rcases Loop.exists_step hsome with ⟨s', hstep⟩
    exact hend s' hstep
  have hidle : s.pending = false := by
    by_contra hpending
    exact hnone (.inl (by simpa using hpending))
  have hdelivered : s.events = [] := by
    by_contra hevents
    exact hnone (.inr hevents)
  have hdue : due (family.children parent ns name) s.cluster = 0 := by
    rcases h.woken with hwoken | hdue
    · exact absurd (.inl hwoken) hnone
    · exact hdue
  -- nobody is due, so a further pass finds nothing to do
  have hsettled : ∀ child ∈ family.children parent ns name, ¬ unsettled s.cluster child = true := by
    refine List.countP_eq_zero.mp ?_
    rw [countP_unsettled, hdue]
  refine ⟨⟨hdelivered, hidle, fun child hchild => exists_of_settled (hsettled child hchild), ?_⟩, hdue⟩
  intro d c hrun
  rcases h.current with ⟨v, hfits, hsame⟩
  have honePass : OnePass settings (family.children v ns name) s.cluster c d :=
    (hfits.reconcile_ensures hcooldown).of_leads hrun
  rw [hsame.children haddr family ns name, OnePass, List.find?_eq_none.mpr hsettled] at honePass
  exact ⟨honePass.2, honePass.1⟩

end Turning

/-- The wake-up loop comes to rest, in whatever order events are delivered and passes run. There are no runs
of more steps than three for each child that was missing or drifted at first, and one; and as long as the
loop is not at rest there is a next step. When it is at rest, as many writes to children were made as
children were missing or drifted. All along, the annotations of the parent make no difference to what is
built for it. -/
theorem wake_ups_come_to_rest {family : Family} {ns parent : Value} {name : String}
    {settings : Settings} {start : Cluster} (hfits : Fits family ns name parent start)
    (hcooldown : 0 < settings.cooldown) (watched : Value → Bool) :
    (∀ n s, Loop.Runs (Loop.Step watched settings family ns name) ⟨start, [], true⟩ n s →
      n ≤ 3 * due (family.children parent ns name) start + 1 ∧
      (∃ v, s.cluster.find? (family.parentAt ns name) = some v ∧
        ∀ images, family.tiers images v = family.tiers images parent) ∧
      ((∃ s', Loop.Step watched settings family ns name s s') ∨
        (AtRest settings family ns name parent s ∧ childWrites family ns name s.cluster =
          childWrites family ns name start + due (family.children parent ns name) start))) ∧
      (∃ n s, Loop.Runs (Loop.Step watched settings family ns name) ⟨start, [], true⟩ n s ∧
        AtRest settings family ns name parent s) ∧
      ∀ (c c' : Cluster) (marker : String) (v : Value), c.find? (family.parentAt ns name) = some parent →
        c.annotate (family.parentAt ns name) (.object [(childChangedKey, .text marker)]) = (.ok v, c') →
        ∀ images, family.tiers images v = family.tiers images parent := by
  have haddr := hfits.address
  refine ⟨?_, ?_, ?_⟩
  · intro n s hruns
    rcases (Turning.begin hfits).runs hcooldown haddr hruns with ⟨hturning, hbound⟩
    rcases hturning.current with ⟨v, hnow, hsame⟩
    refine ⟨?_, ⟨v, hnow.stored, hsame.tiers haddr family⟩, ?_⟩
    · -- the work bounds the number of steps, since each leaves less of it
      have hfirst : Loop.work (family.children parent ns name) ⟨start, [], true⟩ =
          3 * due (family.children parent ns name) start + 1 := rfl
      omega
    · by_cases hend : ∃ s', Loop.Step watched settings family ns name s s'
      · exact .inl hend
      · have hatRest := hturning.atRest hcooldown haddr fun s' hstep => hend ⟨s', hstep⟩
        have hwritten := hturning.written
        refine .inr ⟨hatRest.1, ?_⟩
        omega
  · -- a run that cannot be made longer ends at rest
    obtain ⟨n, s, hruns, hend⟩ : ∃ n s,
        Loop.Runs (Loop.Step watched settings family ns name) ⟨start, [], true⟩ n s ∧
          ∀ s', ¬ Loop.Step watched settings family ns name s s' :=
      (Turning.begin hfits).exists_end hcooldown haddr .start
    rcases (Turning.begin hfits).runs hcooldown haddr hruns with ⟨hturning, -⟩
    exact ⟨n, s, hruns, (hturning.atRest hcooldown haddr hend).1⟩
  · -- the annotation is not read by anything that builds children
    intro c c' marker v hstored hannotate
    rcases annotated_of_annotate hannotate with ⟨stored, hfound, hsame, -⟩
    obtain rfl : parent = stored := Option.some.inj (hstored.symm.trans hfound)
    exact hsame.tiers haddr family

/-! ### The database whose endpoint has drifted -/

theorem driftedCluster_comes_to_rest :
    ∃ n s, Loop.Runs
      (Loop.Step (fun kind => kind.isText Kind.service || kind.isText Kind.deployment) {} .database
        (.text "default") "pg") ⟨driftedCluster, [], true⟩ n s ∧
      AtRest {} .database (.text "default") "pg" storedDatabase s ∧
      n ≤ 13 ∧ childWrites .database (.text "default") "pg" s.cluster = 4 := by
  have hdue : due (Family.database.children storedDatabase (.text "default") "pg") driftedCluster =
      4 := by decide
  have hwrites : childWrites .database (.text "default") "pg" driftedCluster = 0 := by decide
  rcases wake_ups_come_to_rest fits_driftedCluster (show 0 < ({} : Settings).cooldown by decide)
    (fun kind => kind.isText Kind.service || kind.isText Kind.deployment) with
    ⟨hall, ⟨n, s, hruns, hrest⟩, -⟩
  rcases hall n s hruns with ⟨hbound, -, ⟨s', hstep⟩ | ⟨-, hwritten⟩⟩
  · -- at rest there is no next step
    cases hstep with
    | pass hpending => exact absurd (hrest.idle.symm.trans hpending) (by decide)
    | deliver hevents => simp [hrest.delivered] at hevents
  · rw [hdue] at hbound hwritten
    rw [hwrites] at hwritten
    exact ⟨n, s, hruns, hrest, hbound, hwritten⟩

end Convergence

end Reconciler
