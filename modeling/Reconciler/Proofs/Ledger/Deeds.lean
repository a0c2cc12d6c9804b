import Reconciler.Proofs.Ledger.Passes
import Reconciler.Proofs.Ownership.Effects

/-! # What calls do

A call of a pass is told by the cluster before and after it: whether an object was created, whether a Service
was updated, whether a request entered a stage. A store call may fail for reasons of its own, but then it has
no effect. So the answer of a call, and what the pass had heard before, are enough to know what it did: this is
what a pass owes for it.

Main definitions and statements:

* `sparing`: a store whose calls may fail, but not in secret;
* `Deed`: a call with the cluster before and after it, and what it did;
* `Gauge`: what the counters stand for;
* `create_effect`, `update_effect`, `progress_effect`: what a write can do;
* `count_due`: what a pass owes for a call is what the call did.
-/

namespace Reconciler

/-- Stages are told apart by their names. -/
theorem Stage.name_inj {stage stage' : Stage} : stage.name = stage'.name ↔ stage = stage' := by
  cases stage <;> cases stage' <;> decide

namespace Ledger

open Cluster Provisioning

/-! ## Deeds -/

/-- A store whose calls may fail in any way, but then have no effect. -/
def sparing : Answering Cluster :=
  fun c call reply c' => reliable c call reply c' ∨ (∃ f, reply = .error f) ∧ c' = c

/-- A call of a pass over a resource of a kind, with the cluster before and after it. -/
structure Deed where
  kind : String
  call : StoreCall
  before : Cluster
  after : Cluster

namespace Deed

/-- Whether the call is about an object of a kind, of which something is to be told by its address. -/
def about (d : Deed) (kind : String) (tells : Address → Bool) : Bool :=
  d.call.addressed.toOption.any fun a => a.kind = .text kind && tells a

def created (d : Deed) (kind : String) : Bool :=
  d.about kind fun a => (d.before.find? a).isNone && (d.after.find? a).isSome

/-- An object of a kind was to be updated. -/
def updates (d : Deed) (kind : String) : Bool :=
  d.call.operation = "update" && d.about kind fun _ => true

def updated (d : Deed) (kind : String) : Bool :=
  d.updates kind && d.about kind fun a => d.after.find? a ≠ d.before.find? a

/-- The stored stage of a request of a kind changed to a stage. -/
def entered (d : Deed) (kind : String) (stage : Stage) : Bool :=
  d.about kind fun a => stageAt a d.after = some stage && stageAt a d.before ≠ some stage

end Deed

/-- What a counter stands for. -/
inductive Gauge : Counter → (Deed → Bool) → Prop where
  | created (kind : String) : Gauge (.childOperations kind "create" "success") (·.created kind)
  | updated : Gauge (.childOperations Kind.service "update" "success") (·.updated Kind.service)
  | drift (kind : String) :
      Gauge (.drifts kind Kind.service) fun d => d.kind = kind && d.updates Kind.service
  | entered {kind : String} (stage : Stage) :
      kind ∈ requestKinds → Gauge (.transitions kind stage.name) (·.entered kind stage)

/-- Every counter that stands for something is watched. -/
theorem Gauge.watched {counter : Counter} {tells : Deed → Bool} (h : Gauge counter tells) :
    watched counter = true := by
  cases h <;> rfl

/-! ## What calls do -/

/-- Every stored Service has a spec that can be changed. -/
def Shaped (c : Cluster) : Prop :=
  ∀ a v, c.find? a = some v → a.kind = .text Kind.service → SpecShaped v

/-- One object was stored, and all others are as they were. -/
def Stores (c c' : Cluster) (a : Address) (v : Value) : Prop :=
  ∀ b, c'.find? b = if b = a then some v else c.find? b

section Effects

variable {c c' : Cluster} {kind k : String} {past : History} {call : StoreCall} {object v : Value}
variable {reply : Except Failure Value} {a : Address} {counter : Counter} {tells : Deed → Bool}

/-- A call fails and has no effect, or succeeds. -/
theorem sparing_cases (h : sparing c call reply c') :
    (∃ f, reply = .error f) ∧ c' = c ∨ ∃ v, reply = .ok v ∧ c.perform call = (.ok v, c') := by
  rcases h with ⟨rfl, rfl⟩ | hfailed
  · cases hok : (c.perform call).1 with
    | ok v => exact .inr ⟨v, reported_eq_ok.mpr hok, Prod.ext hok rfl⟩
    | error f =>
      refine .inl ⟨⟨⟨f, none⟩, by simp [reported, hok, Except.mapError]⟩, ?_⟩
      by_contra hchanged
      obtain ⟨-, v, hv⟩ := perform_of_changed hchanged
      rw [hok] at hv
      cases hv
  · exact .inl hfailed

/-- A fetch changes nothing. -/
theorem fetch_effect {ns name : Value} (h : sparing c (.get v ns name) reply c') : c' = c := by
  rcases sparing_cases h with ⟨-, rfl⟩ | ⟨w, -, hdone⟩
  · rfl
  · exact (congrArg Prod.snd hdone).symm.trans (get_snd c _)

/-- What is created was not there, and has the spec that was sent. -/
theorem create_effect (h : sparing c (.create object) reply c') :
    (∃ f, reply = .error f) ∧ c' = c ∨
      (∃ v, reply = .ok v) ∧ ∃ a stored, addressOf object = .ok a ∧ c.find? a = none ∧
        Stores c c' a stored ∧ stored.field? "spec" = object.field? "spec" := by
  refine (sparing_cases h).imp_right ?_
  rintro ⟨v, rfl, hdone⟩
  rcases create_cases c object with ⟨f, hrefused⟩ | ⟨a, stored, haddr, hfree, -, -, hcompletes, hstored⟩
  · cases hdone.symm.trans hrefused
  · obtain ⟨-, rfl⟩ := Prod.mk.inj (hdone.symm.trans hstored)
    refine ⟨⟨v, rfl⟩, a, stored, haddr, hfree, fun b => ?_, hcompletes.fields "spec" (by decide)⟩
    simp [find?_withObject]

/-- What is updated was there, is another object than before, and has the spec that was sent. -/
theorem update_effect (htidy : Tidy c) (haddr : addressOf object = .ok a)
    (h : sparing c (.update object) reply c') :
    (∃ f, reply = .error f) ∧ c' = c ∨
      (∃ v, reply = .ok v) ∧ ∃ stored replaced, c.find? a = some stored ∧ replaced ≠ stored ∧
        Stores c c' a replaced ∧ replaced.field? "spec" = object.field? "spec" := by
  refine (sparing_cases h).imp_right ?_
  rintro ⟨v, rfl, hdone⟩
  rcases update_cases c object with ⟨f, hrefused⟩ |
    ⟨b, stored, status, base, replaced, hb, hcurrent, -, hbase, hreplaced, hstored⟩
  · cases hdone.symm.trans hrefused
  · obtain rfl : a = b := Except.ok.inj (haddr.symm.trans hb)
    obtain ⟨-, rfl⟩ := Prod.mk.inj (hdone.symm.trans hstored)
    have hbefore := (of_current hcurrent).1
    refine ⟨⟨v, rfl⟩, stored, replaced, hbefore, ?_, fun b => by simp [find?_withObject], ?_⟩
    · -- it has a version that nothing had before
      rintro rfl
      exact (htidy.versioned a _ hbefore).ne_of_lt (Nat.lt_succ_self _) (versionOf_withVersion hreplaced)
    · rw [field?_withVersion hreplaced (by decide), Value.field?_setField_of_ne hbase (by decide)]

/-- A status is stored in the place of that of the copy it was made from. -/
theorem progress_effect {copy : Value} (hcopied : Copied a c copy) (hsame : SameBut progressParts copy object)
    (h : sparing c (.updateStatus object) reply c') :
    (∃ f, reply = .error f) ∧ c' = c ∨
      (∃ v, reply = .ok v) ∧ ∃ replaced, c.find? a = some copy ∧ Stores c c' a replaced ∧
        stageOf replaced = stageOf object := by
  refine (sparing_cases h).imp_right ?_
  rintro ⟨v, rfl, hdone⟩
  obtain ⟨haddr, hstored⟩ :=
    hcopied.of_accepted hsame (by decide) (.inr rfl) (congrArg Prod.fst hdone)
  rcases updateStatus_cases c object with ⟨f, hrefused⟩ |
    ⟨b, stored, status, base, replaced, hb, -, hstatus, hbase, hreplaced, hafter⟩
  · cases hdone.symm.trans hrefused
  · obtain rfl : a = b := Except.ok.inj (haddr.symm.trans hb)
    obtain ⟨-, rfl⟩ := Prod.mk.inj (hdone.symm.trans hafter)
    refine ⟨⟨v, rfl⟩, replaced, hstored, fun b => by simp [find?_withObject], ?_⟩
    -- the status that is stored is the one that was sent
    have hfield : replaced.field? "status" = some status := by
      rw [field?_withVersion hreplaced (by decide), Value.field?_setField hbase]
    have hread : replaced.fieldOrNull "status" = .ok status := Value.fieldOr_of_field? hfield _
    rw [stageOf, stageOf, hread, hstatus]

/-- A write of something else than a Service leaves the Services as they are. -/
theorem Shaped.stores (hshaped : Shaped c) (hstores : Stores c c' a v)
    (hv : a.kind = .text Kind.service → SpecShaped v) : Shaped c' := by
  intro b w hw hb
  rw [hstores b] at hw
  split at hw
  · next heq =>
    obtain rfl := Option.some.inj hw
    exact hv (heq ▸ hb)
  · exact hshaped b w hw hb

/-- The kind is a part of the address. -/
theorem kind_of_addressOf (haddr : addressOf object = .ok a) (hof : OfKind k object) :
    a.kind = .text k := by
  obtain ⟨-, -, hkind, -⟩ := addressOf_eq_ok.mp haddr
  exact Option.some.inj (hkind.symm.trans hof)

/-- No call of a pass makes a Service one that cannot be changed. -/
theorem Shaped.kept (hshaped : Shaped c) (htidy : Tidy c)
    (hcopies : ∀ a, ∀ copy ∈ past.reads a, Copied a c copy) (hproper : Proper kind past call)
    (hanswer : sparing c call reply c') : Shaped c' := by
  -- what is stored has the spec of what is sent, and that was built
  have hspec : ∀ {k : String} {object v : Value} {a : Address}, IsChild k object →
      addressOf object = .ok a → v.field? "spec" = object.field? "spec" →
      a.kind = .text Kind.service → SpecShaped v := by
    intro k object v a hchild haddr hsame hservice
    have hkind := kind_of_addressOf haddr hchild.ofKind
    have hobject := hchild.shaped (by simpa [hservice, eq_comm] using hkind)
    rwa [SpecShaped, hsame]
  cases hproper with
  | get k ns name => exact fetch_effect hanswer ▸ hshaped
  | create hchild _ =>
    rcases create_effect hanswer with ⟨-, rfl⟩ | ⟨-, a, stored, haddr, -, hstores, hsame⟩
    · exact hshaped
    · exact hshaped.stores hstores (hspec hchild haddr hsame)
  | update hchild _ haddr =>
    rcases update_effect htidy haddr hanswer with ⟨-, rfl⟩ | ⟨-, _, replaced, -, -, hstores, hsame⟩
    · exact hshaped
    · exact hshaped.stores hstores (hspec hchild haddr hsame)
  | @progress a copy object hk ha hread hsame =>
    have hcopied := hcopies a copy (by simp [hread])
    rcases progress_effect hcopied hsame hanswer with ⟨-, rfl⟩ | ⟨-, replaced, -, hstores, -⟩
    · exact hshaped
    · refine hshaped.stores hstores fun hservice => ?_
      -- a request is no Service, so its progress says nothing about one
      obtain rfl : kind = Kind.service := by simpa [ha] using hservice
      exact absurd hk (by decide)

/-- What is fetched is where it was asked for, and if it is a Service, it can be changed. -/
theorem fits_of_sparing (hshaped : Shaped c) (htidy : Tidy c) (hanswer : sparing c call reply c') :
    Fits call reply := by
  rcases sparing_cases hanswer with ⟨⟨f, rfl⟩, -⟩ | ⟨v, rfl, hdone⟩
  · cases call <;> trivial
  · cases call with
    | get k ns name =>
      have hstored := find?_of_get (congrArg Prod.fst hdone)
      exact ⟨htidy.consistent _ _ hstored, hshaped _ _ hstored⟩
    | _ => trivial

end Effects

/-! ## What calls are owed for -/

section Dues

variable {c c' : Cluster} {kind k : String} {past : History} {call : StoreCall} {object : Value}
variable {reply : Except Failure Value} {a : Address} {counter : Counter} {tells : Deed → Bool}

/-- Whom a call is about is read off its address. -/
theorem Deed.about_of_addressed {d : Deed} (ha : d.call.addressed = .ok a) (k : String)
    (tells : Address → Bool) : d.about k tells = (decide (a.kind = .text k) && tells a) := by
  simp [Deed.about, ha, Except.toOption]

/-- Where nothing changes, nothing was created or updated, and no stage was entered. So only an update that
failed is told of at all. -/
theorem Gauge.idle (h : Gauge counter tells) (hcall : call.operation ≠ "update") :
    tells ⟨kind, call, c, c⟩ = false := by
  have hnone : ∀ (k : String) (tell : Address → Bool), (∀ a, tell a = false) →
      (Deed.mk kind call c c).about k tell = false := by
    intro k tell hfalse
    cases haddr : call.addressed with
    | ok a => rw [Deed.about_of_addressed haddr, hfalse, Bool.and_false]
    | error f => simp [Deed.about, haddr, Except.toOption]
  cases h with
  | created k => exact hnone k _ fun a => by cases c.find? a <;> rfl
  | updated => simp [Deed.updated, Deed.updates, hcall]
  | drift k => simp [Deed.updates, hcall]
  | entered stage hk => exact hnone _ _ fun a => by simp

/-- A creation is owed for if it succeeded. -/
theorem count_due_create (hchild : IsChild k object) (hk : k ∉ requestKinds)
    (hanswer : sparing c (.create object) reply c') (hgauge : Gauge counter tells) :
    (due kind past (.create object) reply).count counter =
      if tells ⟨kind, .create object, c, c'⟩ then 1 else 0 := by
  rcases create_effect hanswer with ⟨⟨f, rfl⟩, rfl⟩ |
    ⟨⟨v, rfl⟩, a, stored, haddr, hfree, hstores, -⟩
  · rw [hgauge.idle (by simp [StoreCall.operation])]
    rfl
  have hkind := kind_of_addressOf haddr hchild.ofKind
  have habout := Deed.about_of_addressed (d := ⟨kind, .create object, c, c'⟩) haddr
  -- the name was free, so the success counts one object of the kind
  have hdue : due kind past (.create object) (.ok v) = [.childOperations k "create" "success"] := by
    simp [due, onSuccess, kindOf_eq_some.mpr hchild.ofKind]
  rw [hdue]
  cases hgauge with
  | created K => simp [Deed.created, habout, hkind, hfree, hstores a, List.count_singleton]
  | updated => simp [Deed.updated, Deed.updates, StoreCall.operation]
  | drift K => simp [Deed.updates, StoreCall.operation]
  | @entered K stage hK =>
    have hne : k ≠ K := fun heq => hk (heq ▸ hK)
    simp [Deed.entered, habout, hkind, hne]

/-- An update is owed for if it is one of a Service, and again if it succeeded. -/
theorem count_due_update (htidy : Tidy c) (hchild : IsChild k object) (hk : k ∉ requestKinds)
    (haddr : addressOf object = .ok a) (hanswer : sparing c (.update object) reply c')
    (hgauge : Gauge counter tells) :
    (due kind past (.update object) reply).count counter =
      if tells ⟨kind, .update object, c, c'⟩ then 1 else 0 := by
  have hkind := kind_of_addressOf haddr hchild.ofKind
  have habout := Deed.about_of_addressed (d := ⟨kind, .update object, c, c'⟩) haddr
  have hdue : due kind past (.update object) reply = if k = Kind.service then
      .drifts kind Kind.service :: onSuccess [.childOperations Kind.service "update" "success"] reply
      else [] := by
    simp [due, kindOf_eq_some.mpr hchild.ofKind]
  -- only a Service is updated to correct something that has drifted
  have hupdates : (Deed.mk kind (.update object) c c').updates Kind.service =
      decide (k = Kind.service) := by
    simp [Deed.updates, StoreCall.operation, habout, hkind]
  have heffect := update_effect htidy haddr hanswer
  rw [hdue]
  -- an update creates nothing and enters no stage, so two of the four gauges stay as they are
  cases hgauge with
  | created K =>
    have hnone : (Deed.mk kind (.update object) c c').created K = false := by
      rcases heffect with ⟨-, rfl⟩ | ⟨-, stored, replaced, hbefore, -⟩
      · simp [Deed.created, habout]
      · simp [Deed.created, habout, hbefore]
    simp only [hnone]
    split <;> cases reply <;> simp [onSuccess]
  | updated =>
    rcases heffect with ⟨⟨f, rfl⟩, rfl⟩ | ⟨⟨v, rfl⟩, stored, replaced, hbefore, hchanged, hstores, -⟩
    · split <;> simp [Deed.updated, habout, onSuccess]
    · by_cases hservice : k = Kind.service
      · simp [Deed.updated, hupdates, habout, hkind, hbefore, hstores a, hchanged, hservice, onSuccess]
      · simp [Deed.updated, hupdates, hservice]
  | drift K =>
    simp only [hupdates]
    by_cases hservice : k = Kind.service
    · cases reply <;> simp [hservice, onSuccess, List.count_cons]
    · simp [hservice]
  | @entered K stage hK =>
    have hne : k ≠ K := fun heq => hk (heq ▸ hK)
    have hnone : (Deed.mk kind (.update object) c c').entered K stage = false := by
      simp [Deed.entered, habout, hkind, hne]
    simp only [hnone]
    split <;> cases reply <;> simp [onSuccess]

/-- Only a stage is counted of a status. -/
theorem count_entering (hcounter : ∀ K name, counter ≠ .transitions K name) :
    (entering kind past object).count counter = 0 := by
  rw [List.count_eq_zero]
  unfold entering
  split
  · split
    · exact List.not_mem_nil
    · simpa using hcounter _ _
  · exact List.not_mem_nil

/-- A status is owed for if it was stored and enters a stage. -/
theorem count_due_progress {copy : Value} (ha : a.kind = .text kind)
    (hread : past.reads a = [copy]) (hsame : SameBut progressParts copy object) (hcopied : Copied a c copy)
    (hanswer : sparing c (.updateStatus object) reply c') (hgauge : Gauge counter tells) :
    (due kind past (.updateStatus object) reply).count counter =
      if tells ⟨kind, .updateStatus object, c, c'⟩ then 1 else 0 := by
  have haddr : addressOf object = .ok a := hsame.addressOf (by decide) hcopied.address
  have habout := Deed.about_of_addressed (d := ⟨kind, .updateStatus object, c, c'⟩) haddr
  rcases progress_effect hcopied hsame hanswer with ⟨⟨f, rfl⟩, rfl⟩ |
    ⟨⟨v, rfl⟩, replaced, hbefore, hstores, hstage⟩
  · rw [hgauge.idle (by simp [StoreCall.operation])]
    rfl
  have hfrom : stageAt a c = (stageOf copy).toOption := by simp [stageAt, hbefore]
  have hto : stageAt a c' = (stageOf object).toOption := by simp [stageAt, hstores a, hstage]
  change (entering kind past object).count counter = _
  -- a status that was stored moves the stages only, and those if it is a new one
  cases hgauge with
  | created K =>
    rw [count_entering (by simp)]
    simp [Deed.created, habout, hbefore]
  | updated =>
    rw [count_entering (by simp)]
    simp [Deed.updated, Deed.updates, StoreCall.operation]
  | drift K =>
    rw [count_entering (by simp)]
    simp [Deed.updates, StoreCall.operation]
  | @entered K stage hK =>
    simp only [Deed.entered, habout, hfrom, hto, ha]
    cases hobject : stageOf object with
    | error f => simp [entering, haddr, hobject, Except.toOption]
    | ok stage' =>
      have hok : (Except.ok stage' : Except Fault Stage).toOption = some stage' := rfl
      rw [entering_of_copy haddr hread hobject]
      by_cases hcopy : stageOf copy = .ok stage'
      · -- the request was in that stage already
        simp [hcopy, hok]
      · have hnot : ¬(stageOf copy).toOption = some stage' := fun heq => hcopy (toOption_eq_some.mp heq)
        by_cases hstages : stage' = stage
        · subst hstages
          simp [hcopy, hnot, hok, List.count_singleton]
        · simp [hcopy, hstages, hok, Stage.name_inj]

/-- What a pass owes for a call is what the call did. -/
theorem count_due (htidy : Tidy c) (hcopies : ∀ a, ∀ copy ∈ past.reads a, Copied a c copy)
    (hproper : Proper kind past call) (hanswer : sparing c call reply c') (hgauge : Gauge counter tells) :
    (due kind past call reply).count counter = if tells ⟨kind, call, c, c'⟩ then 1 else 0 := by
  cases hproper with
  | get k ns name =>
    rw [fetch_effect hanswer, hgauge.idle (by simp [StoreCall.operation])]
    rfl
  | create hchild hk => exact count_due_create hchild hk hanswer hgauge
  | update hchild hk haddr => exact count_due_update htidy hchild hk haddr hanswer hgauge
  | progress _ ha hread hsame =>
    exact count_due_progress ha hread hsame (hcopies _ _ (by simp [hread])) hanswer hgauge

end Dues

end Ledger

end Reconciler
