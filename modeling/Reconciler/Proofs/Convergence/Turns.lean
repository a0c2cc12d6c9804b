import Reconciler.Proofs.Convergence.FixedPoint
import Reconciler.Proofs.Convergence.Sharing
import Reconciler.Proofs.Ownership.Writes

/-! # Turns of passes

A pass over a parent goes past the children that exist and have not drifted, and has its turn at the first
other one: there it makes its only write, or fails. That is all it does against a store that does not fail,
whatever is stored in the places of the children and however long it is to pause after a correction.

Main definitions and statements:

* `overheard`: a store that does not fail, with what was heard from it;
* `correction`: an endpoint as it is sent to the store, if it has drifted;
* `correction_corrects`: what it is when the spec is absent, null or an object;
* `Turn`: the turn of a pass, by recursion on the children;
* `Placed.reconcile_turns`: every pass over a parent has its turn;
* `Turn.past`, `Turn.meets`, `Turn.addressed`: what follows for one child.
-/

namespace Reconciler

open Cluster Manifest

/-! ## What is heard from a store -/

/-- A store that does not fail, with what was heard from it so far. -/
def overheard : Answering (Cluster × History) :=
  fun s call reply s' => reliable s.1 call reply s'.1 ∧ noted s.2 call reply s'.2

def History.writes (h : History) : History :=
  h.filter (·.1.writes)

/-- A call after a history without writes. -/
theorem History.writes_snoc {h h' : History} {call : StoreCall} {reply : Except Failure Value}
    (hsilent : h.writes = []) (hcall : [(call, reply)].filter (·.1.writes) = h') :
    writes (h ++ [(call, reply)]) = h' := by
  rw [writes, List.filter_append, hcall]
  exact congrArg (· ++ h') hsilent

section Overheard

variable {α : Type} {post : Cluster × History → Except Failure α → Prop} {c : Cluster} {h : History}

theorem overheard_attempt {call : StoreCall} {k : Except Failure Value → Pass α}
    (hnext : Pass.Ensures overheard (fun _ _ => True) post (k (c.reported call))
      ((c.perform call).2, h ++ [(call, c.reported call)])) :
    Pass.Ensures overheard (fun _ _ => True) post ((Pass.call call).outcome >>= k) (c, h) := by
  refine Pass.ensures_attempt trivial ?_
  rintro reply ⟨c', h'⟩ ⟨⟨rfl, rfl⟩, rfl⟩
  exact hnext

/-- A fetch of an object that is there. -/
theorem overheard_found {kind ns name object : Value} {k : Value → Pass α}
    (hn : (Address.mk kind ns name).nameable = true) (hfind : c.find? ⟨kind, ns, name⟩ = some object)
    (hnext : Pass.Ensures overheard (fun _ _ => True) post (k object)
      (c, h ++ [(.get kind ns name, .ok object)])) :
    Pass.Ensures overheard (fun _ _ => True) post (Pass.call (.get kind ns name) >>= k) (c, h) := by
  have hget : c.perform (.get kind ns name) = (.ok object, c) := get_of_find? hn hfind
  have hreported : c.reported (.get kind ns name) = .ok object := reported_eq_ok.mpr (by rw [hget])
  refine Pass.ensures_must trivial ?_ ?_
  · rintro v ⟨c', h'⟩ ⟨⟨hreply, rfl⟩, rfl⟩
    obtain rfl : v = object := Except.ok.inj (hreply.trans hreported)
    rw [hget]
    exact hnext
  · rintro f ⟨c', h'⟩ ⟨⟨hreply, -⟩, -⟩
    cases hreply.trans hreported

/-- A note about a resource with a name does not fail. -/
theorem overheard_note {kind key : String} {level : Level} {metadata v : Value} {r : Remark}
    {k : Unit → Pass α} {s : Cluster × History} (h : metadata.field? key = some v)
    (hnext : Pass.Ensures overheard (fun _ _ => True) post (k ()) s) :
    Pass.Ensures overheard (fun _ _ => True) post (Pass.log kind level metadata r >>= k) s := by
  rcases loggedIdentity_of_field? h with ⟨id, hid⟩
  refine Pass.ensures_note hnext ?_
  intro f hf
  cases hid.symm.trans hf

/-- Every pass comes to its end. -/
theorem exists_overheard {β : Type} (p : SafePass β) (s : Cluster × History) :
    ∃ b s', Program.Leads (facing overheard) p s (.done b) s' := by
  refine Program.exists_leads_done (fun s op => ?_) p s
  refine ⟨(s.1.answered op).1, ((s.1.answered op).2, s.2.after op (s.1.answered op).1), ?_⟩
  have hreliable := s.1.facing_answered op
  cases op with
  | store call => exact ⟨hreliable, rfl⟩
  | random op => exact ⟨hreliable.1, Prod.ext hreliable.2 rfl⟩
  | instant | seconds | trace => exact Prod.ext hreliable rfl

end Overheard

/-- The result of a pass that asks to be repeated after a pause. -/
def Directive.paused (seconds : Rat) : Except Failure Directive :=
  (after seconds).mapError fun f => ⟨f, none⟩

namespace Convergence

/-! ## Corrections -/

/-- An endpoint as it is sent to the store, if it has drifted from a wanted one. -/
def correction (existing desired : Value) : Except Fault (Option Value) := do
  let changes ← exposureDrift existing desired
  if changes.isEmpty then return none else return some (← applyChanges existing changes)

section Corrections

variable {family : Family} {child : Child} {existing desired wanted : Value} {changes : Fields}

/-- Without drift there is nothing to send. -/
theorem correction_of_nil (h : exposureDrift existing desired = .ok []) :
    correction existing desired = .ok none := by
  simp [correction, h, bind, Except.bind, pure, Except.pure]

/-- With drift, the endpoint is sent with the changes applied. -/
theorem correction_of_drift (h : exposureDrift existing desired = .ok changes) (hne : changes ≠ []) :
    correction existing desired = some <$> applyChanges existing changes := by
  cases changes with
  | nil => exact absurd rfl hne
  | cons change rest =>
    simp only [correction, h, bind, Except.bind, List.isEmpty_cons]
    cases applyChanges existing (change :: rest) with
    | ok changed => rfl
    | error f => rfl

/-- A correction changes nothing but the exposure. -/
theorem sameBut_correction {changed : Value} (h : correction existing desired = .ok (some changed)) :
    SameBut exposureParts existing changed := by
  simp only [correction, bind_eq_ok] at h
  rcases h with ⟨changes, hdrift, h⟩
  rcases exposureDrift_cases hdrift with rfl | ⟨wanted, rfl⟩
  · simp [pure, Except.pure] at h
  · simp only [List.isEmpty_cons, Bool.false_eq_true, if_false, bind_eq_ok, pure_eq_ok, Option.some.injEq] at h
    rcases h with ⟨changed, hchanged, rfl⟩
    exact sameBut_applyChanges hchanged

/-- What is corrected of an endpoint whose spec is null or can be changed: nothing when it has the wanted
exposure, and else a spec that is null cannot be changed, and any other gets the wanted exposure. -/
inductive Corrects (existing wanted : Value) : Except Fault (Option Value) → Prop where
  | same : (exposureOf existing).same wanted = true → Corrects existing wanted (.ok none)
  | stuck : (exposureOf existing).same wanted = false → existing.field? "spec" = some .null →
      Corrects existing wanted (.error .noAttribute)
  | exposed {changed : Value} : (exposureOf existing).same wanted = false →
      existing.field? "spec" ≠ some .null → (∃ fields, changed.field? "spec" = some (.object fields)) →
      exposureOf changed = wanted → Corrects existing wanted (.ok (some changed))

/-- Changes cannot be applied to an object whose spec is null. -/
theorem applyChanges_of_null {a : Address} (haddr : addressOf existing = .ok a)
    (hspec : existing.field? "spec" = some .null) (changes : Fields) :
    applyChanges existing changes = .error .noAttribute := by
  rcases addressOf_eq_ok.mp haddr with ⟨_, hmeta, -⟩
  simp only [applyChanges, Value.withDefault_of_field? hspec, Value.require_eq_ok.mpr hspec,
    Value.overlay, bind, Except.bind]

/-- An endpoint that is there is left as it is, is stuck on a null spec, or gets the wanted exposure. -/
theorem correction_corrects {a : Address} (haddr : addressOf existing = .ok a)
    (hspec : Value.ObjectOrNone (existing.field? "spec")) (hbuilt : Built child desired)
    (hwanted : child.exposure = some wanted) :
    Corrects existing wanted (correction existing desired) := by
  have hdrift := exposureDrift_eq haddr hspec hbuilt hwanted
  by_cases hsame : (exposureOf existing).same wanted = true
  · rw [if_pos hsame] at hdrift
    rw [correction_of_nil hdrift]
    exact .same hsame
  · rw [if_neg hsame] at hdrift
    rw [correction_of_drift hdrift (by simp)]
    have hother : (exposureOf existing).same wanted = false := by simpa using hsame
    -- a null spec is seen as another exposure, and cannot be changed
    by_cases hnull : existing.field? "spec" = some .null
    · rw [applyChanges_of_null haddr hnull]
      exact .stuck hother hnull
    · have hobject : existing.field? "spec" = none ∨
          ∃ fields, existing.field? "spec" = some (.object fields) :=
        hspec.imp_right fun h => h.resolve_left hnull
      obtain ⟨changed, fields, hchanged, hfields, -⟩ :=
        applyChanges_eq haddr hobject [("type", wanted)]
      have htype : (Value.object (Fields.merge fields [("type", wanted)])).field? "type" = some wanted :=
        Fields.find?_insert "type" wanted fields
      rw [hchanged]
      exact .exposed hother hnull ⟨_, hfields⟩ (by simp [exposureOf, hfields, htype])

end Corrections

/-! ## One pass -/

/-- What a pass does as it goes through children: its writes with their answers, and its result. It goes past
those that exist and have not drifted, and has its turn at the first other one. -/
inductive Turn (settings : Settings) (c : Cluster) :
    List Child → History → Except Failure Directive → Prop where
  | settled : Turn settings c [] [] (.ok .done)
  | passed {child : Child} {rest : List Child} {existing : Value} {writes : History}
      {result : Except Failure Directive} :
      c.find? child.address = some existing →
      (child.exposure ≠ none → ∃ desired, Built child desired ∧
        correction existing desired = .ok none) →
      Turn settings c rest writes result → Turn settings c (child :: rest) writes result
  | created {child : Child} {rest : List Child} {manifest stored : Value} :
      c.find? child.address = none → Built child manifest →
      Turn settings c (child :: rest) [(.create manifest, .ok stored)] (.ok .requeueNow)
  | corrected {child : Child} {rest : List Child} {existing desired changed stored : Value} :
      c.find? child.address = some existing → child.exposure ≠ none → Built child desired →
      correction existing desired = .ok (some changed) →
      Turn settings c (child :: rest) [(.update changed, .ok stored)] (Directive.paused settings.cooldown)
  | stuck {child : Child} {rest : List Child} {existing desired : Value} {f : Fault} :
      c.find? child.address = some existing → child.exposure ≠ none → Built child desired →
      correction existing desired = .error f → Turn settings c (child :: rest) [] (.error ⟨f, none⟩)

/-- An object that is stored in the place of a child. -/
structure Kept (child : Child) (object : Value) : Prop where
  address : addressOf object = .ok child.address
  proper : object.Proper

/-- What is asked of a pass that has heard a history without writes: that it has its turn. -/
abbrev Turns (settings : Settings) (c : Cluster) (children : List Child) (p : Pass Directive)
    (h : History) : Prop :=
  Pass.Ensures overheard (fun _ _ => True) (fun s r => Turn settings c children s.2.writes r) p (c, h)

section Pass

variable {family : Family} {ns parent : Value} {name : String} {settings : Settings}
variable {tier : Tier} {child : Child} {c : Cluster} {h : History}

/-- What was read may be sent back, whatever version it carries. -/
theorem current_of_kept {existing changed : Value} (hn : child.address.nameable = true)
    (hfind : c.find? child.address = some existing) (hkept : Kept child existing)
    (hmeta : changed.field? "metadata" = existing.field? "metadata") :
    c.current child.address changed = .ok existing := by
  rcases addressOf_eq_ok.mp hkept.address with ⟨metadata, hexisting, -, -, hname⟩
  have hsent : metadata.fieldOrNull "resourceVersion" =
      .ok ((metadata.field? "resourceVersion").getD .null) := Value.fieldOr_eq_getD hname
  simp only [current, checked_eq_ok.mpr ⟨hn, rfl⟩, hfind, bind, Except.bind,
    Value.require_eq_ok.mpr (hmeta.trans hexisting), Value.require_eq_ok.mpr hexisting, hsent]
  cases hversion : metadata.field? "resourceVersion" with
  | none => rfl
  | some version =>
    have hsame : version.same version = true :=
      Value.same_refl version ((hkept.proper.field? hexisting).field? hversion)
    simp only [Option.getD_some, Value.require_eq_ok.mpr hversion, hsame, if_true]
    split <;> rfl

/-- An object that is stored in the place of a child can be replaced by one that differs in its spec only. -/
theorem update_of_kept {existing changed : Value} (hn : child.address.nameable = true)
    (hfind : c.find? child.address = some existing) (hkept : Kept child existing)
    (hothers : ∀ key, key ≠ "spec" → changed.field? key = existing.field? key) :
    ∃ stored c', c.update changed = (.ok stored, c') := by
  have hcurrent := current_of_kept hn hfind hkept (hothers "metadata" (by decide))
  have haddr : addressOf changed = .ok child.address :=
    addressOf_congr (hothers "metadata" (by decide)) (hothers "kind" (by decide)) hkept.address
  rcases addressOf_eq_ok.mp hkept.address with ⟨_, hexisting, -⟩
  rcases addressOf_eq_ok.mp haddr with ⟨_, hmeta, -⟩
  have hstatus : existing.fieldOrNull "status" = .ok ((existing.field? "status").getD .null) :=
    Value.fieldOr_eq_getD hexisting
  obtain ⟨base, hbase⟩ := Value.exists_setField hmeta "status" ((existing.field? "status").getD .null)
  have hbaseAddr : addressOf base = .ok child.address := by
    rw [addressOf_setField hbase (by decide) (by decide), haddr]
  rcases exists_withVersion hbaseAddr c.nextVersion with ⟨replaced, hreplaced⟩
  exact ⟨replaced, _, by
    simp only [update, haddr, hcurrent, hstatus, hbase, hreplaced, bind, Except.bind]; rfl⟩

/-- A missing child is created as it is built. -/
theorem create_turns {rest : List Child} (hparent : WellFormed parent)
    (hmakes : tier.Makes parent child) (hn : child.address.nameable = true)
    (hnone : c.find? child.address = none) (hsilent : h.writes = []) :
    Turns settings c (child :: rest) (create family.kind parent tier) h := by
  rcases hparent.address with ⟨a, haddr⟩
  rcases addressOf_eq_ok.mp haddr with ⟨metadata, hmeta, -, -, hname⟩
  unfold create
  refine Pass.ensures_value (Value.fieldOr_of_field? hmeta _) ?_
  refine Pass.ensures_tell ?_
  rw [Pass.ensures_bind]
  refine hmakes.build (fun manifest hbuilt => ?_) (fun f hnot => absurd hparent hnot)
  refine overheard_note hname ?_
  -- nothing is stored in its place, so the store takes what is built
  obtain ⟨stored, -, -, -, hcreate⟩ := create_of_absent hbuilt.address hn hnone
  refine overheard_attempt ?_
  rw [Cluster.reported, perform, hcreate]
  refine Pass.ensures_tell (Pass.ensures_tell ((Pass.ensures_pure _ _).mpr ?_))
  rw [History.writes_snoc hsilent rfl]
  exact .created hnone hbuilt

/-- A drifted endpoint is replaced, if it can be. -/
theorem patch_turns {rest : List Child} {existing desired : Value} {changes : Fields}
    (hparent : WellFormed parent) (hn : child.address.nameable = true)
    (hfind : c.find? child.address = some existing) (hkept : Kept child existing)
    (hendpoint : child.exposure ≠ none) (hbuilt : Built child desired)
    (hdrift : exposureDrift existing desired = .ok changes) (hne : changes ≠ [])
    (hsilent : h.writes = []) :
    Turns settings c (child :: rest) (patch settings family.kind parent tier existing changes) h := by
  rcases hparent.address with ⟨a, haddr⟩
  rcases addressOf_eq_ok.mp haddr with ⟨metadata, hmeta, -, -, hname⟩
  have hcorrection := correction_of_drift hdrift hne
  unfold patch
  refine Pass.ensures_tell ?_
  refine Pass.ensures_value (Value.fieldOr_of_field? hmeta _) ?_
  refine Pass.ensures_tell ?_
  refine overheard_note hname ?_
  -- whether the changes can be applied is what tells a correction from being stuck
  refine Pass.ensures_read (fun changed hchanged => ?_) (fun f hf => ?_)
  · rw [hchanged] at hcorrection
    obtain ⟨stored, c', hupdate⟩ := update_of_kept hn hfind hkept
      ((gives_applyChanges existing changes).of_ok hchanged)
    refine overheard_attempt ?_
    rw [Cluster.reported, perform, hupdate]
    refine Pass.ensures_tell (Pass.ensures_tell ((Pass.ensures_liftRead _ _).mpr ?_))
    rw [History.writes_snoc hsilent rfl]
    exact .corrected hfind hendpoint hbuilt hcorrection
  · rw [hf] at hcorrection
    rw [hsilent]
    exact .stuck hfind hendpoint hbuilt hcorrection

/-- An endpoint that exists is gone past when no changes are reported for it, and corrected otherwise. -/
theorem compare_turns {rest : List Child} {existing : Value} {onward : Pass Directive}
    (hparent : WellFormed parent) (hmakes : tier.Makes parent child) (hn : child.address.nameable = true)
    (hfind : c.find? child.address = some existing) (hkept : Kept child existing)
    (hendpoint : child.exposure ≠ none) (hsilent : h.writes = [])
    (honward : ∀ desired, Built child desired → correction existing desired = .ok none →
      Turns settings c (child :: rest) onward h) :
    Turns settings c (child :: rest) (do
      let changes ← exposureDrift existing (← tier.build)
      if changes.isEmpty then onward else patch settings family.kind parent tier existing changes) h := by
  rw [Turns, Pass.ensures_bind]
  refine hmakes.build (fun desired hbuilt => ?_) (fun f hnot => absurd hparent hnot)
  refine Pass.ensures_read (fun changes hdrift => ?_) (fun f hf => ?_)
  · -- no changes are no correction, and others are what is sent
    by_cases hne : changes = []
    · subst hne
      exact honward desired hbuilt (correction_of_nil hdrift)
    · rw [if_neg (by simpa using hne)]
      exact patch_turns hparent hn hfind hkept hendpoint hbuilt hdrift hne hsilent
  · have hcorrection : correction existing desired = .error f := by
      simp only [correction, hf, bind, Except.bind]
    rw [hsilent]
    exact .stuck hfind hendpoint hbuilt hcorrection

/-- A pass goes through the children, and has its turn. -/
theorem walk_turns {tiers : List Tier} {children : List Child} (hparent : WellFormed parent)
    (hmake : List.Forall₂ (Tier.Makes parent) tiers children)
    (hn : ∀ child ∈ children, child.address.ns = ns ∧ child.address.nameable = true)
    (hkept : ∀ child ∈ children, ∀ object, c.find? child.address = some object → Kept child object)
    (hsilent : h.writes = []) :
    Turns settings c children (walk settings family.kind ⟨ns, .text name⟩ parent tiers) h := by
  induction hmake generalizing h with
  | nil =>
    rcases hparent.address with ⟨a, haddr⟩
    rcases addressOf_eq_ok.mp haddr with ⟨metadata, hmeta, -, -, hname⟩
    unfold walk
    refine Pass.ensures_value (Value.fieldOr_of_field? hmeta _) ?_
    refine overheard_note hname ((Pass.ensures_pure _ _).mpr ?_)
    rw [hsilent]
    exact .settled
  | @cons tier child tiers children hmakes hmake ih =>
    rcases hn child (by simp) with ⟨hns, hnameable⟩
    have ih := fun h => @ih h (fun child hchild => hn child (by simp [hchild]))
      fun child hchild => hkept child (by simp [hchild])
    have haddr : (⟨.text tier.kind, ns, tier.childName⟩ : Address) = child.address := by
      rw [← hns, ← hmakes.kind, ← hmakes.name]
    unfold walk
    refine overheard_attempt ?_
    -- the child is missing, or it is compared with what is wanted
    cases hfind : c.find? child.address with
    | none =>
      have hget : c.perform (.get (.text tier.kind) ns tier.childName) =
          (.error (Fault.missing child.address), c) := by
        rw [perform, haddr, get_of_absent hnameable hfind]
      rw [Cluster.reported, hget]
      exact create_turns hparent hmakes hnameable hfind (History.writes_snoc hsilent rfl)
    | some existing =>
      have hget : c.perform (.get (.text tier.kind) ns tier.childName) = (.ok existing, c) := by
        rw [perform, haddr, get_of_find? hnameable hfind]
      -- a child that is not written to is passed, and the turn is the one of the rest
      have hpassed : (child.exposure ≠ none → ∃ desired, Built child desired ∧
            correction existing desired = .ok none) → ∀ h' : History, h'.writes = [] →
          Turns settings c (child :: children)
            (walk settings family.kind ⟨ns, .text name⟩ parent tiers) h' := by
        intro hsettled h' hsilent'
        refine Pass.Ensures.mono (ih h' hsilent') (fun _ _ hmay => hmay) ?_
        exact fun s r hturn => .passed hfind hsettled hturn
      rw [Cluster.reported, hget]
      dsimp only [Except.mapError]
      cases hwanted : child.exposure with
      | none =>
        rw [hmakes.drift, hwanted]
        exact hpassed (fun hendpoint => absurd hwanted hendpoint) _ (History.writes_snoc hsilent rfl)
      | some wanted =>
        rw [hmakes.drift, hwanted]
        refine compare_turns hparent hmakes hnameable hfind (hkept child (by simp) _ hfind) (by simp [hwanted])
          (History.writes_snoc hsilent rfl) fun desired hbuilt hnone => ?_
        exact hpassed (fun _ => ⟨desired, hbuilt, hnone⟩) _ (History.writes_snoc hsilent rfl)

/-- A cluster with a parent that children can be built for, and in the places of the children only objects
that are stored there. -/
structure Placed (family : Family) (ns : Value) (name : String) (parent : Value) (c : Cluster) :
    Prop where
  stored : c.find? (family.parentAt ns name) = some parent
  address : addressOf parent = .ok (family.parentAt ns name)
  wellFormed : WellFormed parent
  proper : parent.Proper
  nameable : ns.nameable = true
  kept : ∀ child ∈ family.children parent ns name, ∀ object, c.find? child.address = some object →
    Kept child object

/-- A pass over a parent has its turn, and reads its directive off the result. -/
theorem Placed.reconcile_turns (hplaced : Placed family ns name parent c)
    (settings settings' : Settings) :
    SafePass.Ensures overheard (fun _ _ => True)
      (fun s d => ∃ result, Turn settings c (family.children parent ns name) s.2.writes result ∧
        d = (family.handler settings).directiveOf ⟨ns, .text name⟩ result)
      ((family.handler settings).reconcile settings' ⟨ns, .text name⟩) (c, []) := by
  have hconverge : Turns settings c (family.children parent ns name)
      (converge settings family.kind (family.tiers settings.images) ⟨ns, .text name⟩) [] := by
    rcases addressOf_eq_ok.mp hplaced.address with ⟨metadata, hmeta, -⟩
    rcases family.tiers_make settings.images hplaced.address with ⟨tiers, htiers, hmake⟩
    have hn : (family.parentAt ns name).nameable = true := by
      simp [Family.parentAt, Address.nameable, hplaced.nameable]
    -- the parent is found, and everything that is read off it before the walk is there
    unfold converge
    refine overheard_found hn hplaced.stored ?_
    refine Pass.ensures_value (Value.fieldOr_of_field? hmeta _) ?_
    refine Pass.ensures_value htiers ?_
    refine walk_turns hplaced.wellFormed hmake (fun child hchild => ?_) hplaced.kept rfl
    exact ⟨(Family.of_mem_addresses (mem_addresses hchild)).1,
      Family.nameable_of_mem_addresses (mem_addresses hchild) hplaced.nameable⟩
  refine (Handler.reconcile_ensures settings' _ _ _).mpr ?_
  cases family with
  | service => exact hconverge.mono (fun _ _ hmay => hmay) fun s r hturn => ⟨r, hturn, rfl⟩
  | database => exact hconverge.mono (fun _ _ hmay => hmay) fun s r hturn => ⟨r, hturn, rfl⟩

end Pass

/-! ## Turns -/

section Turns

variable {settings : Settings} {c : Cluster} {child : Child} {before rest children : List Child}
variable {writes : History} {result : Except Failure Directive} {existing desired : Value}

/-- A child that a pass goes past. -/
def PassedBy (c : Cluster) (child : Child) : Prop :=
  ∃ existing, c.find? child.address = some existing ∧ (child.exposure ≠ none →
    ∀ desired, Built child desired → exposureDrift existing desired = .ok [])

/-- A turn comes after the children that are gone past. -/
theorem Turn.past (h : Turn settings c (before ++ rest) writes result)
    (hbefore : ∀ other ∈ before, PassedBy c other) : Turn settings c rest writes result := by
  induction before with
  | nil => exact h
  | cons other before ih =>
    rcases hbefore other (by simp) with ⟨object, hobject, hsettled⟩
    have hnone : other.exposure ≠ none → ∀ desired, Built other desired →
        correction object desired = .ok none :=
      fun hendpoint desired hbuilt => correction_of_nil (hsettled hendpoint desired hbuilt)
    refine ih ?_ fun other hother => hbefore other (by simp [hother])
    -- a turn that stops at a child of those gone past would have something to do there
    cases h with
    | passed _ _ hrest => exact hrest
    | created hmissing => cases hmissing.symm.trans hobject
    | corrected hfind hendpoint hbuilt hcorrection =>
      obtain rfl := Option.some.inj (hfind.symm.trans hobject)
      cases hcorrection.symm.trans (hnone hendpoint _ hbuilt)
    | stuck hfind hendpoint hbuilt hcorrection =>
      obtain rfl := Option.some.inj (hfind.symm.trans hobject)
      cases hcorrection.symm.trans (hnone hendpoint _ hbuilt)

/-- What a turn makes of an endpoint that is there. -/
inductive Turn.Meets (settings : Settings) (c : Cluster) (rest : List Child) (writes : History)
    (result : Except Failure Directive) : Except Fault (Option Value) → Prop where
  | passed : Turn settings c rest writes result → Meets settings c rest writes result (.ok none)
  | corrected {changed stored : Value} : writes = [(.update changed, .ok stored)] →
      result = Directive.paused settings.cooldown → Meets settings c rest writes result (.ok (some changed))
  | stuck {f : Fault} : writes = [] → result = .error ⟨f, none⟩ →
      Meets settings c rest writes result (.error f)

/-- A turn that gets to an endpoint that is there does what the comparison says. -/
theorem Turn.meets (h : Turn settings c (child :: rest) writes result)
    (hfind : c.find? child.address = some existing) (hendpoint : child.exposure ≠ none) :
    ∃ desired, Built child desired ∧
      Turn.Meets settings c rest writes result (correction existing desired) := by
  cases h with
  | passed hfind' hsettled hrest =>
    obtain rfl := Option.some.inj (hfind'.symm.trans hfind)
    rcases hsettled hendpoint with ⟨desired, hbuilt, hnone⟩
    exact ⟨desired, hbuilt, hnone ▸ .passed hrest⟩
  | created hmissing => cases hmissing.symm.trans hfind
  | corrected hfind' _ hbuilt hcorrection =>
    obtain rfl := Option.some.inj (hfind'.symm.trans hfind)
    exact ⟨_, hbuilt, hcorrection ▸ .corrected rfl rfl⟩
  | stuck hfind' _ hbuilt hcorrection =>
    obtain rfl := Option.some.inj (hfind'.symm.trans hfind)
    exact ⟨_, hbuilt, hcorrection ▸ .stuck rfl rfl⟩

/-- A corrected endpoint stays where it was. -/
theorem addressOf_correction {changed : Value} {a : Address}
    (h : correction existing desired = .ok (some changed)) (haddr : addressOf existing = .ok a) :
    addressOf changed = .ok a :=
  (sameBut_correction h).addressOf (by decide) haddr

/-- All writes of a turn are to children. -/
theorem Turn.addressed (h : Turn settings c children writes result)
    (hkept : ∀ child ∈ children, ∀ object, c.find? child.address = some object → Kept child object) :
    ∀ exchange ∈ writes, ∃ child ∈ children, exchange.1.addressed = .ok child.address := by
  -- a turn makes one write at most, at the child where it stops
  induction h with
  | settled | stuck => simp
  | passed _ _ _ ih =>
    intro exchange hexchange
    obtain ⟨child, hchild, haddr⟩ := ih (fun child hchild => hkept child (by simp [hchild]))
      exchange hexchange
    exact ⟨child, by simp [hchild], haddr⟩
  | created _ hbuilt =>
    intro exchange hexchange
    obtain rfl := List.mem_singleton.mp hexchange
    exact ⟨_, by simp, hbuilt.address⟩
  | corrected hfind _ _ hcorrection =>
    intro exchange hexchange
    obtain rfl := List.mem_singleton.mp hexchange
    exact ⟨_, by simp, addressOf_correction hcorrection (hkept _ (by simp) _ hfind).address⟩

end Turns

/-! ### A database with all its children -/

/-- A child of a database of which only the address matters. -/
def plainChild (kind : String) : Value :=
  .object [("kind", .text kind), ("metadata", .object [("name", .text "pg")])]

/-- A database with all its children, of which the last is some endpoint. -/
def clusterWith (endpoint : Value) : Cluster :=
  ⟨[(Family.database.parentAt (.text "default") "pg", storedDatabase),
    (⟨.text Kind.claim, .text "default", .text "pg"⟩, plainChild Kind.claim),
    (⟨.text Kind.secret, .text "default", .text "pg"⟩, plainChild Kind.secret),
    (⟨.text Kind.deployment, .text "default", .text "pg"⟩, plainChild Kind.deployment),
    (⟨.text Kind.service, .text "default", .text "pg"⟩, endpoint)], 5, []⟩

def wantedEndpoint : Child :=
  ⟨⟨.text Kind.service, .text "default", .text "pg"⟩, some (.text "ClusterIP")⟩

/-- The sample cluster is one in which a pass can get to the endpoint, whatever the endpoint is. -/
theorem placed_clusterWith {endpoint : Value} (haddr : addressOf endpoint = .ok wantedEndpoint.address)
    (hproper : endpoint.Proper) :
    Placed .database (.text "default") "pg" storedDatabase (clusterWith endpoint) := by
  -- the other children matter by their addresses only
  have hplain : ∀ kind, (plainChild kind).Proper := fun kind => by
    simp [plainChild, Value.Proper, Value.ProperFields, Fields.names]
  refine ⟨rfl, rfl, ⟨⟨_, rfl⟩, ⟨_, rfl⟩, .inl rfl⟩, ?_, rfl, ?_⟩
  · simp [storedDatabase, Value.Proper, Value.ProperFields, Fields.names]
  · simp only [Family.children, List.forall_mem_cons]
    refine ⟨?_, ?_, ?_, ?_, by simp⟩
    · rintro object ⟨⟩
      exact ⟨rfl, hplain _⟩
    · rintro object ⟨⟩
      exact ⟨rfl, hplain _⟩
    · rintro object ⟨⟩
      exact ⟨rfl, hplain _⟩
    · rintro object ⟨⟩
      exact ⟨haddr, hproper⟩

theorem proper_driftedEndpoint : driftedEndpoint.Proper := by
  simp [driftedEndpoint, Value.Proper, Value.ProperFields, Fields.names]

end Convergence

end Reconciler
