import Reconciler.Proofs.Convergence.Children
import Reconciler.Proofs.Reads
import Reconciler.Proofs.Reliable
import Reconciler.Proofs.Schedule
import Mathlib.Data.List.Nodup
import Mathlib.Logic.Function.Iterate

/-! # Convergence reaches a fixed point

With nobody else writing and no failing calls, a pass corrects the first child in the order of the tiers
that is missing or drifted, and nothing else. What it creates or corrects is as wanted from then on. So the
number of children to be corrected goes down by one with every pass, until a pass finds nothing to do.

Main statements:

* `Fits.reconcile_ensures`: what one pass does;
* `OnePass.progress`: it leaves one child fewer to be corrected, and everything else as it was;
* `convergence_reaches_fixed_point`: what all passes do.
-/

namespace Reconciler

open Cluster Manifest

namespace Convergence

/-! ## What is wanted of a child -/

variable {family : Family} {ns parent : Value} {name : String} {settings : Settings}

def missing (c : Cluster) (child : Child) : Bool :=
  (c.find? child.address).isNone

/-- An endpoint that exists with another exposure than is wanted. -/
def drifted (c : Cluster) (child : Child) : Bool :=
  match c.find? child.address, child.exposure with
  | some object, some wanted => !(exposureOf object).same wanted
  | _, _ => false

/-- A child that is to be created or corrected. -/
def unsettled (c : Cluster) (child : Child) : Bool :=
  missing c child || drifted c child

/-- An object in the place of a child, as a cluster stores it: under the address of the child, with a
version, and if it is an endpoint, its spec is absent or an object. -/
structure Holds (child : Child) (object : Value) : Prop where
  address : addressOf object = .ok child.address
  version : ∃ version, versionOf object = some (.text version)
  spec : child.exposure ≠ none →
    object.field? "spec" = none ∨ ∃ fields, object.field? "spec" = some (.object fields)

/-- Comparing the exposure of an endpoint comes to the exposure to set, if there is one. -/
theorem exposureDrift_eq {child : Child} {existing desired wanted : Value} {a : Address}
    (haddr : addressOf existing = .ok a) (hspec : Value.ObjectOrNone (existing.field? "spec"))
    (hbuilt : Built child desired) (hwanted : child.exposure = some wanted) :
    exposureDrift existing desired =
      .ok (if (exposureOf existing).same wanted then [] else [("type", wanted)]) := by
  rcases hbuilt.exposure wanted hwanted with ⟨spec, hdesired, htype⟩
  rcases addressOf_eq_ok.mp haddr with ⟨_, hmeta, -⟩
  have hread : existing.fieldOrNull "spec" = .ok ((existing.field? "spec").getD .null) :=
    Value.fieldOr_eq_getD hmeta
  rcases hspec.read with ⟨fields, hfields, hfind⟩
  have hcurrent : (Value.object fields).fieldOrNull "type" = .ok (exposureOf existing) := by
    simp only [Value.fieldOrNull, Value.fieldOr, hfind]
    rfl
  simp only [exposureDrift, hread, hfields, hcurrent, Value.require_eq_ok.mpr hdesired,
    Value.require_eq_ok.mpr htype, bind, Except.bind]
  rfl

/-- Setting a field of the spec of an endpoint changes nothing else. An endpoint without a spec is given an
empty one first. -/
theorem applyChanges_eq {existing : Value} {a : Address} (haddr : addressOf existing = .ok a)
    (hspec : existing.field? "spec" = none ∨ ∃ fields, existing.field? "spec" = some (.object fields))
    (changes : Fields) :
    ∃ changed fields, applyChanges existing changes = .ok changed ∧
      changed.field? "spec" = some (.object (Fields.merge fields changes)) ∧
      ∀ key, key ≠ "spec" → changed.field? key = existing.field? key := by
  rcases addressOf_eq_ok.mp haddr with ⟨_, hmeta, -⟩
  rcases Value.exists_withDefault hmeta "spec" (.object []) with ⟨filled, hfilled⟩
  -- with the default filled in, the spec is an object in either case
  obtain ⟨fields, hfields⟩ : ∃ fields, filled.field? "spec" = some (.object fields) := by
    rw [Value.field?_withDefault hfilled]
    rcases hspec with hnone | ⟨fields, hfields⟩
    · exact ⟨[], by rw [hnone]; rfl⟩
    · exact ⟨fields, by rw [hfields]; rfl⟩
  obtain ⟨changed, hchanged⟩ := Value.exists_setField hfields "spec"
    (.object (Fields.merge fields changes))
  refine ⟨changed, fields, ?_, Value.field?_setField hchanged, fun key hkey => ?_⟩
  · simp only [applyChanges, hfilled, Value.require_eq_ok.mpr hfields, Value.overlay, hchanged, bind,
      Except.bind]
  · rw [Value.field?_setField_of_ne hchanged hkey, Value.field?_withDefault_of_ne hfilled hkey]

/-! ## One pass -/

/-- One write put a child in place, as wanted. -/
def Corrected (operation : String) (child : Child) (c c' : Cluster) : Prop :=
  ∃ stored, Holds child stored ∧
    (∀ wanted, child.exposure = some wanted → exposureOf stored = wanted) ∧
    c' = (c.bumped.withObject child.address stored).recorded operation child.address

/-- What a pass over a list of children does: the first that is missing is created, or the first that is
drifted is corrected; when there is none, nothing. -/
def OnePass (settings : Settings) (children : List Child) (c c' : Cluster) (d : Directive) : Prop :=
  match children.find? (unsettled c) with
  | none => c' = c ∧ d = .done
  | some child =>
    (missing c child = true ∧ Corrected "create" child c c' ∧ d = .requeueNow) ∨
      (drifted c child = true ∧ Corrected "update" child c c' ∧ d = .requeueAfter settings.cooldown)

section Pass

variable {tier : Tier} {child : Child} {c : Cluster} {metadata : Value}

/-- A missing child is created as it is built, and the pass is over. -/
theorem create_comes (hparent : WellFormed parent) (hmakes : tier.Makes parent child)
    (hn : child.address.nameable = true) (hnone : c.find? child.address = none) :
    Comes (fun c' d => Corrected "create" child c c' ∧ d = .requeueNow)
      (create family.kind parent tier) c := by
  rcases hparent.address with ⟨a, haddr⟩
  rcases addressOf_eq_ok.mp haddr with ⟨metadata, hmeta, -, -, hname⟩
  unfold create
  refine Pass.ensures_value (Value.fieldOr_of_field? hmeta _) ?_
  refine Pass.ensures_tell ?_
  rw [Pass.ensures_bind]
  refine hmakes.build (fun manifest hbuilt => ?_) (fun f hnot => absurd hparent hnot)
  refine comes_note hname ?_
  obtain ⟨stored, hstoredAddr, hversion, hcompletes, hcreate⟩ :=
    create_of_absent hbuilt.address hn hnone
  refine comes_answered hcreate ?_
  refine Pass.ensures_tell (Pass.ensures_tell (comes_pure ⟨⟨stored, ⟨hstoredAddr, ⟨_, hversion⟩, ?_⟩,
    ?_, rfl⟩, rfl⟩))
  · -- the stored endpoint has the spec that was built, and so the wanted exposure
    intro hendpoint
    rcases Option.ne_none_iff_exists'.mp hendpoint with ⟨wanted, hwanted⟩
    rcases hbuilt.exposure wanted hwanted with ⟨spec, hspec, htype⟩
    rw [hcompletes.fields "spec" (by decide), hspec]
    cases spec with
    | object fields => exact .inr ⟨fields, rfl⟩
    | _ => simp [Value.field?] at htype
  · intro wanted hwanted
    rcases hbuilt.exposure wanted hwanted with ⟨spec, hspec, htype⟩
    simp [exposureOf, hcompletes.fields "spec" (by decide), hspec, htype]

/-- A drifted endpoint is replaced by itself with the wanted exposure, and the pass is over. -/
theorem patch_comes {existing wanted : Value} (hparent : WellFormed parent)
    (hn : child.address.nameable = true) (hfind : c.find? child.address = some existing)
    (hholds : Holds child existing) (hwanted : child.exposure = some wanted)
    (hcooldown : 0 < settings.cooldown) :
    Comes (fun c' d => Corrected "update" child c c' ∧ d = .requeueAfter settings.cooldown)
      (patch settings family.kind parent tier existing [("type", wanted)]) c := by
  rcases hparent.address with ⟨a, haddr⟩
  rcases addressOf_eq_ok.mp haddr with ⟨metadata, hmeta, -, -, hname⟩
  unfold patch
  refine Pass.ensures_tell ?_
  refine Pass.ensures_value (Value.fieldOr_of_field? hmeta _) ?_
  refine Pass.ensures_tell ?_
  refine comes_note hname ?_
  obtain ⟨changed, fields, hchanged, hspec, hothers⟩ :=
    applyChanges_eq hholds.address (hholds.spec (by simp [hwanted])) [("type", wanted)]
  refine Pass.ensures_value hchanged ?_
  rcases hholds.version with ⟨version, hversion⟩
  obtain ⟨replaced, hreplacedAddr, hreplacedVersion, hfields, hupdate⟩ :=
    update_of_read hn hfind hholds.address hversion (hothers "metadata" (by decide))
      (hothers "kind" (by decide))
  -- the store leaves the spec that was sent as it is
  have hreplacedSpec := (hfields "spec" (by decide) (by decide)).trans hspec
  refine comes_answered hupdate ?_
  refine Pass.ensures_tell (Pass.ensures_tell ((Pass.ensures_liftRead _ _).mpr ?_))
  rw [Directive.after_of_pos hcooldown]
  refine ⟨_, rfl, ⟨replaced, ⟨hreplacedAddr, ⟨_, hreplacedVersion⟩, ?_⟩, ?_, rfl⟩, rfl⟩
  · exact fun _ => .inr ⟨_, hreplacedSpec⟩
  · intro other hother
    obtain rfl : wanted = other := Option.some.inj (hwanted.symm.trans hother)
    have htype : (Value.object (Fields.merge fields [("type", wanted)])).field? "type" = some wanted :=
      Fields.find?_insert "type" wanted fields
    simp [exposureOf, hreplacedSpec, htype]

/-- A pass goes past the children that are as wanted, up to the first that is not. -/
theorem walk_comes {tiers : List Tier} {children : List Child} (hparent : WellFormed parent)
    (hmake : List.Forall₂ (Tier.Makes parent) tiers children)
    (hn : ∀ child ∈ children, child.address.ns = ns ∧ child.address.nameable = true)
    (hholds : ∀ child ∈ children, ∀ object, c.find? child.address = some object → Holds child object)
    (hcooldown : 0 < settings.cooldown) :
    Comes (OnePass settings children c)
      (walk settings family.kind ⟨ns, .text name⟩ parent tiers) c := by
  induction hmake with
  | nil =>
    rcases hparent.address with ⟨a, haddr⟩
    rcases addressOf_eq_ok.mp haddr with ⟨metadata, hmeta, -, -, hname⟩
    unfold walk
    refine Pass.ensures_value (Value.fieldOr_of_field? hmeta _) ?_
    exact comes_note hname ⟨_, rfl, rfl, rfl⟩
  | @cons tier child tiers children hmakes hmake ih =>
    rcases hn child (by simp) with ⟨hns, hnameable⟩
    have ih := ih (fun child hchild => hn child (by simp [hchild]))
      fun child hchild => hholds child (by simp [hchild])
    have haddr : (⟨.text tier.kind, ns, tier.childName⟩ : Address) = child.address := by
      rw [← hns, ← hmakes.kind, ← hmakes.name]
    -- a child that is as wanted is passed by
    have hnext : unsettled c child = false → OnePass settings (child :: children) c =
        OnePass settings children c := by
      intro hsettled
      funext c' d
      simp only [OnePass, List.find?_cons, hsettled]
    -- one that is not is the first to be corrected
    have hfirst : unsettled c child = true →
        (child :: children).find? (unsettled c) = some child := by
      intro hunsettled
      simp only [List.find?_cons, hunsettled]
    unfold walk
    -- the child is missing, or it is compared with what is wanted
    cases hfind : c.find? child.address with
    | none =>
      have hget : c.perform (.get (.text tier.kind) ns tier.childName) =
          (.error (Fault.missing child.address), c) := by
        rw [perform, haddr, get_of_absent hnameable hfind]
      have hmissing : missing c child = true := by simp [missing, hfind]
      refine comes_refused hget ?_
      refine Comes.mono (create_comes hparent hmakes hnameable hfind) ?_
      rintro c' d ⟨hcorrected, rfl⟩
      rw [OnePass, hfirst (by simp [unsettled, hmissing])]
      exact .inl ⟨hmissing, hcorrected, rfl⟩
    | some existing =>
      have hget : c.perform (.get (.text tier.kind) ns tier.childName) = (.ok existing, c) := by
        rw [perform, haddr, get_of_find? hnameable hfind]
      have hmissing : missing c child = false := by simp [missing, hfind]
      have hexisting := hholds child (by simp) existing hfind
      refine comes_answered hget ?_
      dsimp only
      cases hwanted : child.exposure with
      | none =>
        rw [hmakes.drift, hwanted, hnext (by simp [unsettled, hmissing, drifted, hfind, hwanted])]
        exact ih
      | some wanted =>
        rw [hmakes.drift, hwanted]
        dsimp only [Option.map_some]
        rw [Comes, Pass.ensures_bind]
        refine hmakes.build (fun manifest hbuilt => ?_) (fun f hnot => absurd hparent hnot)
        have hspec : Value.ObjectOrNone (existing.field? "spec") :=
          (hexisting.spec (by simp [hwanted])).imp_right .inr
        refine Pass.ensures_value (exposureDrift_eq hexisting.address hspec hbuilt hwanted) ?_
        -- an endpoint with the wanted exposure is passed by like any other child
        by_cases hsame : (exposureOf existing).same wanted = true
        · rw [if_pos hsame, hnext (by simp [unsettled, hmissing, drifted, hfind, hwanted, hsame])]
          exact ih
        · have hdrifted : drifted c child = true := by simp [drifted, hfind, hwanted, hsame]
          rw [if_neg hsame]
          refine Comes.mono
            (patch_comes hparent hnameable hfind hexisting hwanted hcooldown) ?_
          rintro c' d ⟨hcorrected, rfl⟩
          rw [OnePass, hfirst (by simp [unsettled, hdrifted])]
          exact .inr ⟨hdrifted, hcorrected, rfl⟩

end Pass

/-! ## What a correction keeps -/

/-- A cluster with a parent that children can be built for, and in the places of the children only what may
be there. -/
structure Fits (family : Family) (ns : Value) (name : String) (parent : Value) (c : Cluster) : Prop where
  stored : c.find? (family.parentAt ns name) = some parent
  address : addressOf parent = .ok (family.parentAt ns name)
  wellFormed : WellFormed parent
  proper : parent.Proper
  nameable : ns.nameable = true
  holds : ∀ child ∈ family.children parent ns name, ∀ object, c.find? child.address = some object →
    Holds child object

section Fits

variable {c c' : Cluster} {child : Child} {operation : String} {d : Directive}

/-- A child is at one of the addresses of its family. -/
theorem mem_addresses {child : Child} (h : child ∈ family.children parent ns name) :
    child.address ∈ family.addresses ns name := by
  rw [← Family.map_address_children parent]
  exact List.mem_map_of_mem h

/-- Children are told apart by their addresses. -/
theorem eq_of_address_eq {child other : Child} (h : child ∈ family.children parent ns name)
    (hother : other ∈ family.children parent ns name) (heq : child.address = other.address) :
    child = other := by
  have hnodup := Family.nodup_addresses ns name family
  rw [← Family.map_address_children parent] at hnodup
  exact List.inj_on_of_nodup_map hnodup h hother heq

/-- A pass over a parent succeeds, and corrects the first child that is missing or drifted. -/
theorem Fits.reconcile_ensures (hfits : Fits family ns name parent c)
    (hcooldown : 0 < settings.cooldown) :
    SafePass.Ensures reliable (fun _ _ => True)
      (OnePass settings (family.children parent ns name) c)
      ((family.handler settings).reconcile settings ⟨ns, .text name⟩) c := by
  have hconverge : Comes (OnePass settings (family.children parent ns name) c)
      (converge settings family.kind (family.tiers settings.images) ⟨ns, .text name⟩) c := by
    rcases addressOf_eq_ok.mp hfits.address with ⟨metadata, hmeta, -⟩
    rcases family.tiers_make settings.images hfits.address with ⟨tiers, htiers, hmake⟩
    have hn : (family.parentAt ns name).nameable = true := by
      simp [Family.parentAt, Address.nameable, hfits.nameable]
    -- the parent is stored and well formed, so the pass gets to the walk over its tiers
    unfold converge
    refine comes_call (get_of_find? hn hfits.stored) ?_
    refine Pass.ensures_value (Value.fieldOr_of_field? hmeta _) ?_
    refine Pass.ensures_value htiers ?_
    refine walk_comes hfits.wellFormed hmake (fun child hchild => ?_) hfits.holds hcooldown
    exact ⟨(Family.of_mem_addresses (mem_addresses hchild)).1,
      Family.nameable_of_mem_addresses (mem_addresses hchild) hfits.nameable⟩
  cases family with
  | service => exact Comes.reconcile settings hconverge
  | database => exact Comes.reconcile settings hconverge

/-- Everything else is as it was. -/
theorem Corrected.find? (h : Corrected operation child c c') {a : Address}
    (ha : a ≠ child.address) : c'.find? a = c.find? a := by
  rcases h with ⟨stored, -, -, rfl⟩
  simp [find?_withObject, ha]

/-- A corrected child is settled. -/
theorem Corrected.settled (h : Corrected operation child c c') (hproper : parent.Proper)
    (hchild : child ∈ family.children parent ns name) : unsettled c' child = false := by
  rcases h with ⟨stored, -, hexposure, rfl⟩
  have hfind : ((c.bumped.withObject child.address stored).recorded operation child.address).find?
      child.address = some stored := by simp [find?_withObject]
  simp only [unsettled, missing, drifted, hfind]
  cases hwanted : child.exposure with
  | none => rfl
  | some wanted =>
    have hsame := Value.same_refl wanted (Family.proper_exposure hproper hchild hwanted)
    simp [hexposure wanted hwanted, hsame]

/-- Whether another child is settled is not changed. -/
theorem Corrected.unsettled_eq (h : Corrected operation child c c') {other : Child}
    (hne : other.address ≠ child.address) : unsettled c' other = unsettled c other := by
  simp only [unsettled, missing, drifted, h.find? hne]

/-- A cluster still fits when a child of the parent was corrected. -/
theorem Corrected.fits (h : Corrected operation child c c')
    (hchild : child ∈ family.children parent ns name) (hfits : Fits family ns name parent c) :
    Fits family ns name parent c' := by
  refine { hfits with stored := ?_, holds := ?_ }
  · rw [h.find? (Family.parentAt_ne (mem_addresses hchild)), hfits.stored]
  · intro other hother object hobject
    -- in the place of the child is what was put there, everywhere else what was there before
    by_cases haddr : other.address = child.address
    · obtain rfl := eq_of_address_eq hother hchild haddr
      rcases h with ⟨stored, hstored, -, rfl⟩
      obtain rfl : stored = object := by simpa [find?_withObject] using hobject
      exact hstored
    · rw [h.find? haddr] at hobject
      exact hfits.holds other hother object hobject

end Fits

/-! ## Counting what is to be corrected -/

/-- A child that is neither missing nor drifted is there, as it is wanted. -/
theorem exists_of_settled {child : Child} {c : Cluster} (h : ¬ unsettled c child = true) :
    ∃ object, c.find? child.address = some object ∧
      ∀ wanted, child.exposure = some wanted → (exposureOf object).same wanted = true := by
  simp only [unsettled, missing, drifted, Bool.or_eq_true, not_or] at h
  rcases h with ⟨hpresent, hexposure⟩
  obtain ⟨object, hobject⟩ := Option.ne_none_iff_exists'.mp
    (by simpa using hpresent : c.find? child.address ≠ none)
  refine ⟨object, hobject, fun wanted hwanted => ?_⟩
  simpa [hobject, hwanted] using hexposure

/-- The number of children to be created or corrected. -/
def due (children : List Child) (c : Cluster) : Nat :=
  children.countP (missing c) + children.countP (drifted c)

/-- No child is both missing and drifted. -/
theorem countP_unsettled (children : List Child) (c : Cluster) :
    children.countP (unsettled c) = due children c := by
  induction children with
  | nil => rfl
  | cons child rest ih =>
    have hexclusive : missing c child = true → drifted c child = false := by
      intro hmissing
      have hnone : c.find? child.address = none := by simpa [missing] using hmissing
      simp [drifted, hnone]
    simp only [due] at ih
    simp only [due, List.countP_cons, ih, unsettled]
    -- a missing child has no exposure to compare
    by_cases hmissing : missing c child = true
    · simp [hmissing, hexclusive hmissing]
      omega
    · simp [hmissing]
      omega

/-- A condition that is lost at one item, and nowhere else, holds at one item fewer. -/
theorem countP_succ {α : Type} {p q : α → Bool} {l : List α} {a : α} (hnodup : l.Nodup) (ha : a ∈ l)
    (hp : p a = true) (hq : q a = false) (heq : ∀ b ∈ l, b ≠ a → q b = p b) :
    l.countP q + 1 = l.countP p := by
  rcases List.append_of_mem ha with ⟨before, after, rfl⟩
  -- without duplicates, the item itself is the only one at which the two conditions differ
  have hnot : a ∉ before ++ after := (List.nodup_cons.mp (List.nodup_middle.mp hnodup)).1
  have hbefore : before.countP q = before.countP p := by
    refine List.countP_congr ?_
    intro b hb
    rw [heq b (by simp [hb]) (fun e => hnot (by simp [← e, hb]))]
  have hafter : after.countP q = after.countP p := by
    refine List.countP_congr ?_
    intro b hb
    rw [heq b (by simp [hb]) (fun e => hnot (by simp [← e, hb]))]
  simp only [List.countP_append, List.countP_cons, hp, hq, hbefore, hafter]
  simp
  omega

/-- What a number of passes come to: the cluster still fits, one child fewer is to be corrected for each
pass, none is to be that was not before, and no other object is changed. -/
structure Progress (family : Family) (ns : Value) (name : String) (parent : Value) (passes : Nat)
    (c c' : Cluster) : Prop where
  fits : Fits family ns name parent c'
  fewer : due (family.children parent ns name) c' = due (family.children parent ns name) c - passes
  known : ∀ child ∈ family.children parent ns name,
    unsettled c' child = true → unsettled c child = true
  untouched : ∀ a, (∀ child ∈ family.children parent ns name,
    unsettled c child = true → a ≠ child.address) → c'.find? a = c.find? a

/-- No pass is no progress. -/
theorem Progress.refl {c : Cluster} (h : Fits family ns name parent c) :
    Progress family ns name parent 0 c c :=
  ⟨h, rfl, fun _ _ hunsettled => hunsettled, fun _ _ => rfl⟩

/-- The progress of passes adds up. -/
theorem Progress.trans {i j : Nat} {c c' c'' : Cluster} (h : Progress family ns name parent i c c')
    (h' : Progress family ns name parent j c' c'') : Progress family ns name parent (i + j) c c'' := by
  refine ⟨h'.fits, ?_, ?_, ?_⟩
  · rw [h'.fewer, h.fewer]
    omega
  · intro child hchild hunsettled
    exact h.known child hchild (h'.known child hchild hunsettled)
  · intro a ha
    rw [h'.untouched a fun child hchild hunsettled => ha child hchild (h.known child hchild hunsettled),
      h.untouched a ha]

/-- One pass leaves one child fewer to be corrected, if there was any. -/
theorem OnePass.progress {c c' : Cluster} {d : Directive} (hfits : Fits family ns name parent c)
    (h : OnePass settings (family.children parent ns name) c c' d) :
    Progress family ns name parent 1 c c' := by
  unfold OnePass at h
  cases hfirst : (family.children parent ns name).find? (unsettled c) with
  | none =>
    rw [hfirst] at h
    rcases h with ⟨rfl, -⟩
    refine ⟨hfits, ?_, fun _ _ hunsettled => hunsettled, fun _ _ => rfl⟩
    have hzero : (family.children parent ns name).countP (unsettled c') = 0 :=
      List.countP_eq_zero.mpr (List.find?_eq_none.mp hfirst)
    rw [← countP_unsettled, hzero]
  | some child =>
    rw [hfirst] at h
    have hchild := List.mem_of_find?_eq_some hfirst
    have hunsettled := List.find?_some hfirst
    obtain ⟨operation, hcorrected⟩ : ∃ operation, Corrected operation child c c' := by
      rcases h with ⟨-, h, -⟩ | ⟨-, h, -⟩
      · exact ⟨_, h⟩
      · exact ⟨_, h⟩
    -- the corrected child counts no more, and every other one counts as before
    have hsettled := hcorrected.settled hfits.proper hchild
    have hothers : ∀ other ∈ family.children parent ns name, other ≠ child →
        unsettled c' other = unsettled c other := fun other hother hne =>
      hcorrected.unsettled_eq fun haddr => hne (eq_of_address_eq hother hchild haddr)
    refine ⟨hcorrected.fits hchild hfits, ?_, ?_, ?_⟩
    · have hnodup : (family.children parent ns name).Nodup := by
        refine List.Nodup.of_map (·.address) ?_
        rw [Family.map_address_children]
        exact family.nodup_addresses ns name
      have hcount := countP_succ hnodup hchild hunsettled hsettled hothers
      rw [← countP_unsettled, ← countP_unsettled]
      omega
    · intro other hother hstill
      -- the corrected child is settled now, all others are as they were
      by_cases heq : other = child
      · rw [heq, hunsettled]
      · rw [← hothers other hother heq, hstill]
    · intro a ha
      exact hcorrected.find? (ha child hchild hunsettled)

/-! ## All passes -/

/-- Passes over a parent, one after the other, with nobody else at work. -/
structure Passes (settings : Settings) (family : Family) (ns : Value) (name : String) (start : Cluster)
    (c : Nat → Cluster) (d : Nat → Directive) : Prop where
  first : c 0 = start
  next : ∀ i, Program.Leads (facing reliable)
    ((family.handler settings).reconcile settings ⟨ns, .text name⟩) (c i) (.done (d i)) (c (i + 1))

/-- Every pass comes to its end, so there can always be another one. -/
theorem exists_passes (settings : Settings) (family : Family) (ns : Value) (name : String)
    (start : Cluster) : ∃ c d, Passes settings family ns name start c d := by
  have hend : ∀ c, ∃ d c', Program.Leads (facing reliable)
      ((family.handler settings).reconcile settings ⟨ns, .text name⟩) c (.done d) c' :=
    Program.exists_leads_done (fun s op => ⟨_, _, s.facing_answered op⟩) _
  rcases exists_iterates hend start with ⟨c, d, hfirst, hnext⟩
  exact ⟨c, d, hfirst, hnext⟩

section Passes

variable {start : Cluster} {c : Nat → Cluster} {d : Nat → Directive}

/-- Each of the passes over a parent does what one pass does, as long as the cluster fits. -/
theorem Passes.onePass (h : Passes settings family ns name start c d)
    (hcooldown : 0 < settings.cooldown) {i : Nat} (hfits : Fits family ns name parent (c i)) :
    OnePass settings (family.children parent ns name) (c i) (c (i + 1)) (d i) :=
  (hfits.reconcile_ensures hcooldown).of_leads (h.next i)

/-- So many passes make so much progress, by induction on their number. -/
theorem Passes.progress (h : Passes settings family ns name start c d)
    (hcooldown : 0 < settings.cooldown) (hfits : Fits family ns name parent start) (i : Nat) :
    Progress family ns name parent i start (c i) := by
  induction i with
  | zero =>
    rw [h.first]
    exact .refl hfits
  | succ i ih => exact ih.trans ((h.onePass hcooldown ih.fits).progress ih.fits)

end Passes

/-- Passes over a parent reach a fixed point, and do so in as many passes as there are children missing and
endpoints drifted. Each of these passes makes one write: it creates or corrects the first child that is
missing or drifted. All passes after them find nothing to do and change nothing. By then all children exist
and all endpoints have the wanted exposure, and no object was changed but the children that were missing or
drifted at first. -/
theorem convergence_reaches_fixed_point {family : Family} {ns parent : Value} {name : String}
    {settings : Settings} {start : Cluster} (hfits : Fits family ns name parent start)
    (hcooldown : 0 < settings.cooldown) :
    (∃ c d, Passes settings family ns name start c d) ∧
      ∀ c d, Passes settings family ns name start c d →
        (∀ i < due (family.children parent ns name) start, ∃ child,
          (family.children parent ns name).find? (unsettled (c i)) = some child ∧
          ((missing (c i) child = true ∧ Corrected "create" child (c i) (c (i + 1)) ∧
              d i = .requeueNow) ∨
            (drifted (c i) child = true ∧ Corrected "update" child (c i) (c (i + 1)) ∧
              d i = .requeueAfter settings.cooldown))) ∧
        ∀ i, due (family.children parent ns name) start ≤ i →
          d i = .done ∧ c (i + 1) = c i ∧
          (∀ child ∈ family.children parent ns name, ∃ object,
            (c i).find? child.address = some object ∧
            ∀ wanted, child.exposure = some wanted → (exposureOf object).same wanted = true) ∧
          ∀ a, (∀ child ∈ family.children parent ns name,
            unsettled start child = true → a ≠ child.address) → (c i).find? a = start.find? a := by
  refine ⟨exists_passes settings family ns name start, fun c d hpasses => ⟨?_, ?_⟩⟩
  · intro i hi
    have hprogress := hpasses.progress hcooldown hfits i
    have honePass := hpasses.onePass hcooldown hprogress.fits
    -- before that many passes some child is still unsettled, and the pass corrects the first one
    have hpositive : 0 < (family.children parent ns name).countP (unsettled (c i)) := by
      rw [countP_unsettled, hprogress.fewer]
      omega
    unfold OnePass at honePass
    cases hfirst : (family.children parent ns name).find? (unsettled (c i)) with
    | none =>
      have hzero := List.countP_eq_zero.mpr (List.find?_eq_none.mp hfirst)
      omega
    | some child =>
      rw [hfirst] at honePass
      exact ⟨child, rfl, honePass⟩
  · intro i hi
    have hprogress := hpasses.progress hcooldown hfits i
    have honePass := hpasses.onePass hcooldown hprogress.fits
    -- after them none is, and a pass that finds none changes nothing
    have hsettled : ∀ child ∈ family.children parent ns name, ¬ unsettled (c i) child = true := by
      refine List.countP_eq_zero.mp ?_
      rw [countP_unsettled, hprogress.fewer]
      omega
    rw [OnePass, List.find?_eq_none.mpr hsettled] at honePass
    exact ⟨honePass.2, honePass.1, fun child hchild => exists_of_settled (hsettled child hchild),
      hprogress.untouched⟩

/-! ### A database whose endpoint has drifted -/

def storedDatabase : Value :=
  .object [("apiVersion", .text apiGroupVersion), ("kind", .text Kind.postgres),
    ("metadata", .object [("name", .text "pg"), ("namespace", .text "default"),
      ("resourceVersion", .text "1")])]

def driftedEndpoint : Value :=
  .object [("apiVersion", .text "v1"), ("kind", .text Kind.service),
    ("metadata", .object [("name", .text "pg"), ("namespace", .text "default"),
      ("resourceVersion", .text "2")]),
    ("spec", .object [("type", .text "NodePort")])]

/-- A cluster with a database, of whose children only the endpoint exists. -/
def driftedCluster : Cluster :=
  ⟨[(Family.database.parentAt (.text "default") "pg", storedDatabase),
    (⟨.text Kind.service, .text "default", .text "pg"⟩, driftedEndpoint)], 2, []⟩

/-- The cluster of the sample fits: the endpoint is well formed, and the other places are empty. -/
theorem fits_driftedCluster :
    Fits .database (.text "default") "pg" storedDatabase driftedCluster := by
  refine ⟨by decide, by decide, ⟨⟨_, rfl⟩, ⟨_, rfl⟩, .inl rfl⟩, ?_, rfl, ?_⟩
  · simp [storedDatabase, Value.Proper, Value.ProperFields, Fields.names]
  · simp only [Family.children, List.forall_mem_cons]
    -- only the endpoint is there
    have habsent : ∀ kind ∈ [Kind.claim, Kind.secret, Kind.deployment],
        driftedCluster.find? ⟨.text kind, .text "default", .text "pg"⟩ = none := by decide
    refine ⟨?_, ?_, ?_, ?_, by simp⟩
    · intro object hobject
      rw [habsent Kind.claim (by simp)] at hobject
      cases hobject
    · intro object hobject
      rw [habsent Kind.secret (by simp)] at hobject
      cases hobject
    · intro object hobject
      rw [habsent Kind.deployment (by simp)] at hobject
      cases hobject
    · intro object hobject
      obtain rfl : driftedEndpoint = object := Option.some.inj hobject
      exact ⟨rfl, ⟨_, rfl⟩, fun _ => .inr ⟨_, rfl⟩⟩

theorem driftedCluster_settles :
    due (Family.database.children storedDatabase (.text "default") "pg") driftedCluster = 4 ∧
      ∃ c d, Passes {} .database (.text "default") "pg" driftedCluster c d ∧
        ∀ i, 4 ≤ i → d i = .done ∧ c (i + 1) = c i := by
  have hdue : due (Family.database.children storedDatabase (.text "default") "pg") driftedCluster =
      4 := by decide
  obtain ⟨⟨c, d, hpasses⟩, hall⟩ :=
    convergence_reaches_fixed_point fits_driftedCluster (show 0 < ({} : Settings).cooldown by decide)
  rcases hall c d hpasses with ⟨-, hafter⟩
  rw [hdue] at hafter
  refine ⟨hdue, c, d, hpasses, fun i hi => ?_⟩
  rcases hafter i hi with ⟨hdone, hsame, -⟩
  exact ⟨hdone, hsame⟩

end Convergence

end Reconciler
