import Reconciler.Proofs.Convergence.Sharing

/-! # What writes do, whatever was written elsewhere

A write that is accepted stores one object. What it stores depends on what was found at its address, and the
number of its version on how many were given out before. So what was done in one cluster can be done in
another that holds the same there, and what is done at different addresses may change places: the same is
stored in the end, but for the numbers.

Main definitions and statements:

* `Deed`: what an accepted write does, but for the number of the version;
* `create_local`, `replaced_local`: a write is refused, or does the same deed, wherever its address holds
  the same;
* `SameButNumbers`: clusters that hold the same but for the numbers of new versions;
* `sameButNumbers_enact`: deeds at different addresses may change places.
-/

namespace Reconciler

open Cluster

/-! ## Deeds -/

/-- An object that is stored at an address, but for the number of its version. -/
structure Deed where
  operation : String
  address : Address
  base : Value
  takesVersion : ∀ version, ∃ object, withVersion base version = .ok object

/-- The object that is stored, with the number of its version. -/
def Deed.object (deed : Deed) (n : Nat) : Value :=
  match withVersion deed.base (.text (toString n)) with
  | .ok object => object
  | .error _ => deed.base

/-- What a deed stores takes any version. -/
theorem Deed.withVersion_base (deed : Deed) (n : Nat) :
    withVersion deed.base (.text (toString n)) = .ok (deed.object n) := by
  obtain ⟨object, hobject⟩ := deed.takesVersion (.text (toString n))
  rw [Deed.object, hobject]

namespace Cluster

def enacted (c : Cluster) (deed : Deed) : Cluster :=
  (c.bumped.withObject deed.address (deed.object (c.version + 1))).recorded deed.operation deed.address

/-- The cluster in which deeds were done, one after the other. -/
def enact (c : Cluster) (deeds : List Deed) : Cluster :=
  deeds.foldl enacted c

/-- A deed changes what is stored at its address, and nothing else. -/
theorem find?_enacted (c : Cluster) (deed : Deed) (a : Address) :
    (c.enacted deed).find? a =
      if a = deed.address then some (deed.object (c.version + 1)) else c.find? a := by
  rw [enacted, find?_recorded, find?_withObject, find?_bumped]

@[simp] theorem version_enacted (c : Cluster) (deed : Deed) :
    (c.enacted deed).version = c.version + 1 := rfl

@[simp] theorem enact_nil (c : Cluster) : c.enact [] = c := rfl

@[simp] theorem enact_cons (c : Cluster) (deed : Deed) (deeds : List Deed) :
    c.enact (deed :: deeds) = (c.enacted deed).enact deeds := rfl

/-- Every deed gives out one version. -/
theorem version_enact (c : Cluster) (deeds : List Deed) :
    (c.enact deeds).version = c.version + deeds.length := by
  induction deeds generalizing c with
  | nil => rfl
  | cons deed deeds ih =>
    rw [enact_cons, ih, version_enacted, List.length_cons]
    omega

/-- The journal tells the deeds in order. -/
theorem journal_enact (c : Cluster) (deeds : List Deed) :
    (c.enact deeds).journal = c.journal ++ deeds.map fun deed => ⟨deed.operation, deed.address⟩ := by
  induction deeds generalizing c with
  | nil => simp
  | cons deed deeds ih => simp [ih, enacted]

/-- What is stored in the end is what was stored before, or what was done last at this address; in every
cluster it is the same, with a number that counts from there. -/
theorem find?_enact (deeds : List Deed) (a : Address) :
    (∀ c : Cluster, (c.enact deeds).find? a = c.find? a) ∨
      ∃ deed ∈ deeds, deed.address = a ∧ ∃ i, 0 < i ∧ i ≤ deeds.length ∧
        ∀ c : Cluster, (c.enact deeds).find? a = some (deed.object (c.version + i)) := by
  induction deeds with
  | nil => exact .inl fun _ => rfl
  | cons deed deeds ih =>
    rcases ih with hkept | ⟨last, hlast, haddr, i, hpos, hi, hfind⟩
    · -- nothing is done here later
      by_cases ha : a = deed.address
      · refine .inr ⟨deed, List.mem_cons_self, ha.symm, 1, Nat.one_pos, by simp, fun c => ?_⟩
        rw [enact_cons, hkept, find?_enacted, if_pos ha]
      · refine .inl fun c => ?_
        rw [enact_cons, hkept, find?_enacted, if_neg ha]
    · refine .inr ⟨last, List.mem_cons_of_mem _ hlast, haddr, i + 1, by omega, by simpa using hi, ?_⟩
      intro c
      rw [enact_cons, hfind, version_enacted, Nat.add_assoc, Nat.add_comm 1 i]

/-- Where nothing is done, everything stays. -/
theorem find?_enact_of_ne {deeds : List Deed} {a : Address} (hnone : ∀ deed ∈ deeds, deed.address ≠ a)
    (c : Cluster) : (c.enact deeds).find? a = c.find? a := by
  rcases find?_enact deeds a with hkept | ⟨deed, hdeed, haddr, -⟩
  · exact hkept c
  · exact absurd haddr (hnone deed hdeed)

/-! ## Writes as deeds -/

/-- Whether an object can have a version does not depend on the version. -/
theorem takes_version (base : Value) :
    (∀ version, ∃ object, withVersion base version = .ok object) ∨
      ∃ f, ∀ version, withVersion base version = .error f := by
  cases hmeta : base.require "metadata" with
  | error f => exact .inr ⟨f, fun version => by simp only [withVersion, hmeta, bind, Except.bind]⟩
  | ok metadata =>
    cases base with
    | object fields =>
      cases metadata with
      | object entries =>
        exact .inl fun version =>
          ⟨_, by simp only [withVersion, hmeta, bind, Except.bind, Value.setField]; rfl⟩
      | _ => exact .inr ⟨_, fun version => by
          simp only [withVersion, hmeta, bind, Except.bind, Value.setField]; rfl⟩
    | _ => cases hmeta

/-- What is fetched depends on the address only. -/
theorem get_congr {c d : Cluster} {a : Address} (hfind : d.find? a = c.find? a) :
    (d.get a).1 = (c.get a).1 := by
  cases hchecked : checked a with
  | error f => simp only [get, hchecked, bind, Except.bind, settle]
  | ok b =>
    obtain ⟨-, rfl⟩ := checked_eq_ok.mp hchecked
    cases hstored : c.find? a with
    | none =>
      simp only [get, hchecked, bind, Except.bind, hfind.trans hstored, hstored]
      rfl
    | some object =>
      simp only [get, hchecked, bind, Except.bind, hfind.trans hstored, hstored]
      rfl

/-- Which object a replacement is meant for depends on its address only. -/
theorem current_congr {c d : Cluster} {a : Address} (hfind : d.find? a = c.find? a) (object : Value) :
    d.current a object = c.current a object := by
  cases hchecked : checked a with
  | error f => simp only [current, hchecked, bind, Except.bind]
  | ok b =>
    obtain ⟨-, rfl⟩ := checked_eq_ok.mp hchecked
    simp only [current, hchecked, bind, Except.bind, hfind]

/-- A replacement by what is made of the stored object. -/
def replaced (c : Cluster) (operation : String) (object : Value)
    (merge : Value → Except Fault Value) : Outcome := c.settle do
  let a ← addressOf object
  let stored ← c.current a object
  let base ← merge stored
  let object ← withVersion base c.nextVersion
  return (object, (c.bumped.withObject a object).recorded operation a)

/-- An update is a replacement that keeps the stored status. -/
theorem update_eq (c : Cluster) (object : Value) :
    c.update object = c.replaced "update" object (fun stored => do
      let status ← stored.fieldOrNull "status"
      object.setField "status" status) := by
  simp only [update, replaced, bind_assoc]

/-- An update of the status is a replacement that keeps everything else. -/
theorem updateStatus_eq (c : Cluster) (object : Value) :
    c.updateStatus object = c.replaced "update_status" object (fun stored => do
      let status ← object.fieldOrNull "status"
      stored.setField "status" status) := by
  simp only [updateStatus, replaced, bind_assoc]

/-- Another cluster that holds the same where an object goes. -/
def SameFor (object : Value) (c d : Cluster) : Prop :=
  ∀ a, addressOf object = .ok a → d.find? a = c.find? a

/-- A replacement is refused, or does the same deed, wherever its address holds the same. -/
theorem replaced_local (c : Cluster) (operation : String) (object : Value)
    (merge : Value → Except Fault Value) :
    (∃ f, ∀ d, SameFor object c d → d.replaced operation object merge = (.error f, d)) ∨
      ∃ deed : Deed, addressOf object = .ok deed.address ∧ ∀ d, SameFor object c d →
        d.replaced operation object merge = (.ok (deed.object (d.version + 1)), d.enacted deed) := by
  -- whichever step fails first, it reads only what the two clusters have in common
  cases haddr : addressOf object with
  | error f => exact .inl ⟨f, fun d _ => by simp only [replaced, haddr, bind, Except.bind, settle]⟩
  | ok a =>
    have hcurrent : ∀ d, SameFor object c d → d.current a object = c.current a object :=
      fun d hsame => current_congr (hsame a haddr) object
    cases hstored : c.current a object with
    | error f =>
      exact .inl ⟨f, fun d hsame => by
        simp only [replaced, haddr, hcurrent d hsame, hstored, bind, Except.bind, settle]⟩
    | ok stored =>
      cases hbase : merge stored with
      | error f =>
        exact .inl ⟨f, fun d hsame => by
          simp only [replaced, haddr, hcurrent d hsame, hstored, hbase, bind, Except.bind, settle]⟩
      | ok base =>
        rcases takes_version base with htakes | ⟨f, hrefuses⟩
        · refine .inr ⟨⟨operation, a, base, htakes⟩, rfl, fun d hsame => ?_⟩
          have hversion := (Deed.mk operation a base htakes).withVersion_base (d.version + 1)
          simp only [replaced, haddr, hcurrent d hsame, hstored, hbase, nextVersion, hversion, bind,
            Except.bind, settle, pure, Except.pure]
          rfl
        · exact .inl ⟨f, fun d hsame => by
            simp only [replaced, haddr, hcurrent d hsame, hstored, hbase, hrefuses, bind, Except.bind,
              settle]⟩

/-- Another cluster in which the name of an object is taken if it is here. -/
def TakenFor (object : Value) (c d : Cluster) : Prop :=
  ∀ a, addressOf object = .ok a → (d.find? a).isSome = (c.find? a).isSome

/-- A creation is refused, or does the same deed, wherever its name is taken or free as it is here. -/
theorem create_local (c : Cluster) (object : Value) :
    (∃ f, ∀ d, TakenFor object c d → d.create object = (.error f, d)) ∨
      ∃ deed : Deed, addressOf object = .ok deed.address ∧ ∀ d, TakenFor object c d →
        d.create object = (.ok (deed.object (d.version + 1)), d.enacted deed) := by
  cases hchecked : addressOf object >>= checked with
  | error f => exact .inl ⟨f, fun d _ => by simp only [create, hchecked]⟩
  | ok _ =>
    obtain ⟨a, haddr, ha⟩ := bind_eq_ok.mp hchecked
    obtain ⟨hnameable, rfl⟩ := checked_eq_ok.mp ha
    -- a taken name is refused, and a free one gets what was sent with defaults filled in
    cases hfree : (c.find? a).isSome with
    | true =>
      exact .inl ⟨_, fun d hsame => create_of_present haddr hnameable ((hsame a haddr).trans hfree)⟩
    | false =>
      obtain ⟨base, hbase, hbaseAddr, -⟩ := exists_completed haddr
      let deed : Deed := ⟨"create", a, base, exists_withVersion hbaseAddr⟩
      refine .inr ⟨deed, haddr, fun d hsame => ?_⟩
      have hversion : withVersion base d.nextVersion = .ok (deed.object (d.version + 1)) :=
        deed.withVersion_base (d.version + 1)
      have hstored : addressOf (deed.object (d.version + 1)) = .ok a := by
        rw [addressOf_withVersion hversion, hbaseAddr]
      have hput : d.put object = (.ok (deed.object (d.version + 1)),
          d.bumped.withObject a (deed.object (d.version + 1))) := by
        simp only [put, hbase, hversion, hstored, ha, bind, Except.bind, pure, Except.pure, settle]
      simp only [create, hchecked, (hsame a haddr).trans hfree, hput]
      rfl

/-! ## Changing places -/

/-- How numbers are given out when `m` and then `n` versions are given out in the other order. -/
def swapped (v m n k : Nat) : Nat :=
  if k ≤ v then k else if k ≤ v + m then k + n else if k ≤ v + m + n then k - m else k

/-- No two versions get one number when their numbers are swapped. -/
theorem swapped_injective (v m n : Nat) : Function.Injective (swapped v m n) := by
  intro k l h
  simp only [swapped] at h
  split_ifs at h <;> omega

/-- Two objects that are the same but for their versions, of which one has a new number and the other the
number that this one is turned into. -/
def Renumbered (start : Cluster) (renumber : Nat → Nat) (v w : Value) : Prop :=
  ∃ base n, start.version < n ∧ withVersion base (.text (toString n)) = .ok v ∧
    withVersion base (.text (toString (renumber n))) = .ok w

/-- One deed makes the same object in both clusters, but for the number. -/
theorem renumbered_object {start : Cluster} (deed : Deed) {renumber : Nat → Nat} {n m : Nat}
    (hn : start.version < n) (hm : renumber n = m) :
    Renumbered start renumber (deed.object n) (deed.object m) :=
  ⟨deed.base, n, hn, deed.withVersion_base n, hm ▸ deed.withVersion_base m⟩

/-- Two clusters that hold the same, but for the numbers of the versions given out since they were one: what
is stored at an address was stored there before, or is the same but for these numbers. -/
structure SameButNumbers (start c d : Cluster) : Prop where
  version : c.version = d.version
  journal : c.journal.Perm d.journal
  objects : ∃ renumber : Nat → Nat, Function.Injective renumber ∧
    (∀ n ≤ start.version, renumber n = n) ∧
    ∀ a, (c.find? a = start.find? a ∧ d.find? a = start.find? a) ∨
      ∃ v w, c.find? a = some v ∧ d.find? a = some w ∧ Renumbered start renumber v w

/-- Deeds at different addresses may change places. -/
theorem sameButNumbers_enact (c : Cluster) {deeds more : List Deed}
    (happart : ∀ deed ∈ deeds, ∀ other ∈ more, deed.address ≠ other.address) :
    SameButNumbers c ((c.enact deeds).enact more) ((c.enact more).enact deeds) := by
  refine ⟨by simp only [version_enact]; omega, ?_, swapped c.version deeds.length more.length,
    swapped_injective _ _ _, fun n hn => if_pos hn, fun a => ?_⟩
  · simp only [journal_enact, List.append_assoc]
    exact List.perm_append_comm.append_left _
  · rcases find?_enact deeds a with hkept | ⟨deed, hdeed, rfl, i, hpos, hi, hfind⟩
    · rcases find?_enact more a with hkept' | ⟨other, -, rfl, i, hpos, hi, hfind⟩
      · exact .inl ⟨by rw [hkept', hkept], by rw [hkept, hkept']⟩
      · -- what is done second here is done first in the other order
        refine .inr ⟨_, _, hfind _, (hkept _).trans (hfind c), renumbered_object other ?_ ?_⟩
        · rw [version_enact]
          omega
        · rw [version_enact]
          unfold swapped
          split_ifs <;> omega
    · have hnone : ∀ other ∈ more, other.address ≠ deed.address := fun other hother =>
        (happart deed hdeed other hother).symm
      refine .inr ⟨_, _, (find?_enact_of_ne hnone _).trans (hfind c), hfind _, renumbered_object deed ?_ ?_⟩
      · omega
      · rw [version_enact]
        unfold swapped
        split_ifs <;> omega

end Cluster

end Reconciler
