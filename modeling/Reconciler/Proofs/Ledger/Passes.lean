import Reconciler.Proofs.Ledger.Dues
import Reconciler.Proofs.Provisioning.Stages
import Reconciler.Proofs.Reliable

/-! # Every pass counts what it owes

The passes of all handlers, gone through line by line. A child that was created is counted right after the
store said so, and so is a stage that was entered. The drift of a Service is counted before the Service is
updated, so nothing may come in between at which the pass could end: there the remark on the drift does not
fail, since the parent has metadata, and neither do the changes, since the Service can be changed.

Main statements:

* `settles_create`, `settles_patch`: the two writes of a tier;
* `settles_enter`: a stage that a request enters;
* `reconcile_reckons`: the result for all handlers.
-/

namespace Reconciler.Ledger

open Cluster

variable {kind : String} {memory : Memory} {id : Identity} {settings : Settings}

/-! ## Services and databases -/

section Tiers

open Convergence

variable {parent : Value} {tier : Tier} {β : Type}

/-- Tiers make children of the kinds of children. -/
theorem kind_of_mem_tiers {family : Family} {images : Images} {all : List Tier}
    (hall : family.tiers images parent = .ok all) : ∀ tier ∈ all, tier.kind ∈ Family.childKinds := by
  cases family with
  | database =>
    simp only [Family.tiers, databaseTiers, bind_eq_ok, pure_eq_ok] at hall
    rcases hall with ⟨name, -, secret, -, rfl⟩
    simp [Family.childKinds]
  | service =>
    simp only [Family.tiers, serviceTiers, bind_eq_ok, pure_eq_ok] at hall
    rcases hall with ⟨name, -, database, -, keycloak, -, secret, -, web, -, gateway, -, rfl⟩
    simp [Family.childKinds]

/-- What a tier builds is a child of its kind, and building it counts nothing. -/
def Builds (kind : String) (tier : Tier) : Prop :=
  ∀ {memory : Memory} {β : Type} {k : Value → Pass β},
    (∀ m, IsChild tier.kind m → Settles kind memory (k m).run) →
    Settles kind memory (tier.build >>= k).run

/-- What is read off the parent is built without any count. -/
theorem builds_read {read : Except Fault Value} (hbuild : tier.build = Pass.lift read)
    {parentKind : String} (hmodest : Modest parentKind tier) : Builds kind tier := by
  intro memory β k hk
  have hgives : Pass.Ensures (σ := Unit) (fun _ _ _ _ => True) (fun _ _ => True)
      (fun _ r => ∀ m, r = .ok m → IsChild tier.kind m) tier.build () :=
    hmodest.build (fun m hm _ h => Except.ok.inj h ▸ hm) (fun _ _ => nofun)
  rw [hbuild] at hgives ⊢
  cases read with
  | ok m => exact hk m (hgives m rfl)
  | error f => exact settles_throw _

/-- Every tier of a parent builds like that, with or without a draw. -/
theorem builds_of_mem_tiers {family : Family} {images : Images} {all : List Tier}
    (hall : family.tiers images parent = .ok all) : ∀ tier ∈ all, Builds kind tier := by
  have hmodest := (tiers_modest family images parent).of_ok hall
  suffices h : ∀ tier ∈ all, Modest family.kind tier → Builds kind tier from
    fun tier htier => h tier htier (hmodest tier htier)
  refine family.forall_tiers images hall ?_ ?_ ?_
  · exact fun _ _ _ _ hmodest => builds_read rfl hmodest
  · exact fun _ _ _ hmodest => builds_read rfl hmodest
  · intro name childName _ memory β k hk
    simp only [buildCredential, bind_assoc]
    refine settles_andThen (settles_draw _) fun password => ?_
    exact settles_read fun m hm => hk m ((Manifest.gives_secret parent _).of_ok hm)

/-- A creation is counted when it succeeded. -/
theorem settles_created {k : String} {object : Value} {next : Except Failure Value → Pass β}
    {rest : Value → Pass β} (hchild : IsChild k object) (hk : k ∉ requestKinds)
    (herror : ∀ f, Settles kind memory (next (.error f)).run)
    (hok : ∀ v, next (.ok v) = do
      SafePass.count (.childOperations k "create" "success")
      rest v)
    (hrest : ∀ v, Settles kind memory (rest v).run) :
    Settles kind memory ((Pass.call (.create object)).outcome >>= next).run := by
  refine settles_write [.childOperations k "create" "success"] rfl
    (fun _ _ => .create hchild hk) (fun _ _ => rfl) ?_ herror ?_
  · intro past v _
    simp [due, onSuccess, kindOf_eq_some.mpr hchild.ofKind]
  · intro v
    rw [hok]
    exact settles_pay (hrest v)

/-- A creation is counted when it succeeds. -/
theorem settles_create (hbuilds : Builds kind tier) (hkind : tier.kind ∉ requestKinds) :
    Settles kind memory (Convergence.create kind parent tier).run := by
  unfold Convergence.create
  refine settles_read fun metadata _ => ?_
  refine settles_tell ?_
  refine hbuilds fun manifest hmanifest => ?_
  refine settles_note ?_
  refine settles_created hmanifest hkind ?_ (fun _ => rfl) ?_
  · intro f
    dsimp only
    split
    · exact settles_tell (settles_pure _)
    · exact settles_tell (settles_throw f)
  · exact fun _ => settles_tell (settles_pure _)

/-- A Service that can be changed is changed, and can still be. -/
theorem exists_applyChanges {existing : Value} {a : Address} (changes : Fields)
    (haddr : addressOf existing = .ok a) (hshaped : SpecShaped existing) :
    ∃ changed, applyChanges existing changes = .ok changed ∧ SpecShaped changed := by
  rcases addressOf_eq_ok.mp haddr with ⟨m, hm, -⟩
  obtain ⟨filled, hfilled⟩ := Value.exists_withDefault hm "spec" (.object [])
  -- the spec is filled in where there is none, and is an object where there is one
  obtain ⟨fields, hspec⟩ : ∃ fields, filled.field? "spec" = some (.object fields) := by
    rw [Value.field?_withDefault hfilled]
    cases hspec : existing.field? "spec" with
    | none => exact ⟨[], rfl⟩
    | some spec =>
      obtain ⟨fields, rfl⟩ := hshaped spec hspec
      exact ⟨fields, rfl⟩
  obtain ⟨changed, hchanged⟩ := Value.exists_setField hspec "spec" (.object (Fields.merge fields changes))
  refine ⟨changed, ?_, fun spec h => ?_⟩
  · simp only [applyChanges, hfilled, Value.require_eq_ok.mpr hspec, Value.overlay, bind, Except.bind]
    exact hchanged
  · rw [Value.field?_setField hchanged] at h
    exact ⟨_, (Option.some.inj h).symm⟩

/-- An update of a Service is counted as a drift before, and again when it succeeded. -/
theorem settles_patch {existing : Value} {changes : Fields} {a b : Address}
    (hparent : addressOf parent = .ok a) (hexisting : addressOf existing = .ok b)
    (hkind : b.kind = .text Kind.service) (htier : tier.kind = Kind.service)
    (hshaped : SpecShaped existing) :
    Settles kind memory (patch settings kind parent tier existing changes).run := by
  obtain ⟨changed, hchanged, hshaped'⟩ := exists_applyChanges changes hexisting hshaped
  have haddr := addressOf_applyChanges hchanged hexisting
  have hservice : OfKind Kind.service changed := by
    obtain ⟨-, -, hfield, -⟩ := addressOf_eq_ok.mp haddr
    exact hfield.trans (congrArg some hkind)
  have hchild : IsChild Kind.service changed := ⟨hservice, fun _ => hshaped'⟩
  unfold patch
  refine settles_tell ?_
  refine settles_read fun metadata hmetadata => ?_
  -- the parent has metadata with a name in it, so the remark does not fail
  obtain ⟨logged, hlogged⟩ : ∃ logged, loggedIdentity metadata = .ok logged := by
    obtain ⟨m, hm, -, -, hname⟩ := addressOf_eq_ok.mp hparent
    rw [Value.fieldOr_of_field? hm] at hmetadata
    obtain rfl := Except.ok.inj hmetadata
    exact loggedIdentity_of_field? hname
  rw [htier]
  -- the drift is counted before the write, and the write when it is answered
  refine settles_advance ?_
  refine settles_remark hlogged ?_
  rw [hchanged]
  refine settles_write [.childOperations Kind.service "update" "success"] rfl
    (fun _ _ => .update hchild (by decide) haddr) ?_ ?_ ?_ ?_
  · intro past f
    simp [due, onSuccess, kindOf_eq_some.mpr hservice]
  · intro past v _
    simp [due, onSuccess, kindOf_eq_some.mpr hservice]
  · intro f
    dsimp only
    split
    · exact settles_tell (settles_pure _)
    · exact settles_tell (settles_throw f)
  · intro v
    refine settles_pay ?_
    refine settles_tell ?_
    exact settles_lift _

/-- A walk over the tiers counts what it creates and corrects. Only endpoints are corrected. -/
theorem settles_walk {tiers : List Tier} {a : Address} (hparent : addressOf parent = .ok a)
    (hbuilds : ∀ tier ∈ tiers, Builds kind tier) (hkinds : ∀ tier ∈ tiers, tier.kind ∉ requestKinds)
    (hdrift : ∀ tier ∈ tiers, ∀ drift, tier.drift = some drift → tier.kind = Kind.service) :
    Settles kind .none (walk settings kind id parent tiers).run := by
  induction tiers with
  | nil =>
    unfold walk
    refine settles_read fun metadata _ => ?_
    exact settles_note (settles_pure _)
  | cons tier rest ih =>
    simp only [List.forall_mem_cons] at hbuilds hkinds hdrift
    have hrest := ih hbuilds.2 hkinds.2 hdrift.2
    unfold walk
    -- a missing child is created, any other failure ends the pass
    refine settles_fetch (fun _ _ _ => trivial) ?_ ?_
    · intro f
      dsimp only
      split
      · exact settles_create hbuilds.1 hkinds.1
      · exact settles_throw f
    · intro existing hexisting hshaped
      dsimp only
      split
      · exact hrest
      · next drift hsome =>
        -- a tier that compares its child makes a Service
        have htier := hdrift.1 drift hsome
        refine hbuilds.1 fun wanted _ => ?_
        refine settles_read fun changes _ => ?_
        split
        · exact hrest
        · exact settles_patch hparent hexisting (by rw [htier]) htier (hshaped htier)

/-- A pass over a parent counts what it does. -/
theorem settles_converge (family : Family) (images : Images) :
    Settles family.kind .none (converge settings family.kind (family.tiers images) id).run := by
  unfold converge
  refine settles_get (fun _ _ _ => trivial) fun parent hparent _ => ?_
  refine settles_read fun metadata _ => ?_
  refine settles_read fun all hall => ?_
  refine settles_walk hparent (builds_of_mem_tiers hall) ?_ ?_
  · intro tier htier
    have hno : ∀ k ∈ Family.childKinds, k ∉ requestKinds := by decide
    exact hno _ (kind_of_mem_tiers hall tier htier)
  · exact fun tier htier drift hsome => (drift_of_mem_tiers hall tier htier drift hsome).2

end Tiers

/-! ## Provisioners -/

/-- Labels are given to provisioners only, and are not counted. -/
theorem settles_labelling : Settles kind .none (Labelling.converge id).run := by
  unfold Labelling.converge
  refine settles_get (fun _ _ _ => trivial) fun stored hstored _ => ?_
  refine settles_read fun provisioner hfilled => ?_
  refine settles_read fun metadata hmeta => ?_
  refine settles_read fun labels _ => ?_
  refine settles_read fun labelled _ => ?_
  split
  · exact settles_pure _
  · refine settles_read fun spec _ => ?_
    refine settles_read fun descriptor _ => ?_
    split
    · refine settles_note ?_
      exact settles_tell (settles_pure _)
    · exact settles_throw _
    · refine settles_read fun labeled hlabeled => ?_
      have haddr := (Labelling.sameBut_withLabels hfilled hmeta hlabeled).addressOf (by decide) hstored
      have hof : OfKind Kind.provisioner labeled := (addressOf_eq_ok.mp haddr).choose_spec.2.1
      -- an update of a provisioner is owed no count
      have hdue : ∀ past reply, due kind past (.update labeled) reply = [] := fun past reply => by
        simp [due, kindOf_eq_some.mpr hof, Kind.provisioner, Kind.service]
      refine settles_must [] rfl (fun _ _ => .update (.of_ne hof (by decide)) (by decide) haddr)
        (fun _ _ => hdue _ _) (fun _ _ _ => hdue _ _) fun _ => ?_
      refine settles_note ?_
      exact settles_tell (settles_pure _)

/-! ## Requests -/

section Requests

open Provisioning

variable {request : Value}

/-- Fetches from elsewhere do not count among the copies of a request. -/
theorem copies_kept {a : Address} {objects : List Value} {k : String} {ns name : Value}
    (hne : a.kind ≠ .text k) (past : History) (reply : Except Failure Value)
    (hread : (Memory.copies a objects).holds past) :
    (Memory.copies a objects).holds (past ++ [(.get (.text k) ns name, reply)]) := by
  refine (History.reads_append_get_of_ne ?_).trans hread
  rintro rfl
  exact hne rfl

/-- A request enters a stage if its copy was in another one. -/
theorem entering_of_copy {past : History} {a : Address} {copy object : Value} {stage : Stage}
    (haddr : addressOf object = .ok a) (hread : past.reads a = [copy]) (hstage : stageOf object = .ok stage) :
    entering kind past object =
      if stageOf copy = .ok stage then [] else [.transitions kind stage.name] := by
  simp [entering, haddr, hread, hstage, toOption_eq_some]

/-- Who stores a request in the stage of the only copy there is enters no stage. -/
theorem entering_of_same {past : History} {a : Address} {copy object : Value}
    (haddr : addressOf object = .ok a) (hread : past.reads a = [copy]) (hsame : stageOf object = stageOf copy) :
    entering kind past object = [] := by
  cases hstage : stageOf object with
  | ok stage => rw [entering_of_copy haddr hread hstage, if_pos (hsame.symm.trans hstage)]
  | error f => simp [entering, haddr, hstage]

section Request

variable (hkind : kind ∈ requestKinds) (haddr : addressOf request = .ok (requestAt kind id))

include hkind haddr

/-- A stage that a request enters is counted when it is stored. -/
theorem settles_enter {current target : Stage} {conditions : Value} (hstage : stageOf request = .ok current)
    (hne : current ≠ target) :
    Settles kind (.copies (requestAt kind id) [request]) (advance kind request target conditions).run := by
  unfold advance
  refine settles_read fun moved hmoved => ?_
  rcases moved with ⟨before, changed⟩
  obtain ⟨-, -, status, fields, generation, hstatus, hfields, hset⟩ := of_advanced hmoved
  have hsame : SameBut progressParts request changed := sameBut_setStatus hstatus hfields hset (by simp)
  have haddr' := (addressOf_setField hset (by decide) (by decide)).trans haddr
  -- the stored request is in the target stage, and its copy was not
  have hstage' : stageOf changed = .ok target :=
    (stageOf_setField hset).trans (ofStatus_advanced fields target conditions generation)
  refine settles_must [.transitions kind target.name] rfl
    (fun past hread => .progress hkind rfl hread hsame) (fun _ _ => rfl) ?_ fun _ => ?_
  · intro past _ hread
    rw [due, onSuccess, entering_of_copy haddr' hread hstage', if_neg]
    rw [hstage]
    exact fun heq => hne (Except.ok.inj heq)
  · refine settles_pay ?_
    refine settles_read fun metadata _ => ?_
    exact settles_log

/-- Recording a missing provisioner leaves the stage as it is, so it is owed no count. -/
theorem settles_recordMissing {name : Value} :
    Settles kind (.copies (requestAt kind id) [request]) (recordMissing kind request name).run := by
  unfold recordMissing
  refine settles_read fun conditions _ => ?_
  refine settles_read fun metadata _ => ?_
  refine settles_note ?_
  split
  · exact settles_pure _
  · refine settles_safely (settles_bind settles_instant fun _ => settles_pure _) fun recorded => ?_
    refine settles_read fun changed hchanged => ?_
    have hstage := stageOf_withStatus hchanged
    simp only [withStatus, bind_eq_ok] at hchanged
    obtain ⟨status, hstatus, fields, hfields, hset⟩ := hchanged
    -- only conditions are stored, so the stage is the one that was read
    have hsame : SameBut progressParts request changed :=
      (sameBut_setStatus hstatus hfields hset (by simp)).mono (by simp [progressParts])
    have haddr' := (addressOf_setField hset (by decide) (by decide)).trans haddr
    refine settles_must [] rfl (fun past hread => .progress hkind rfl hread hsame)
      (fun _ _ => rfl) ?_ fun _ => settles_pure _
    exact fun past _ hread => entering_of_same haddr' hread hstage

omit haddr in
/-- Looking for the provisioner counts nothing, and what is known of the request stays known. -/
theorem settles_getProvisioner :
    Settles kind (.copies (requestAt kind id) [request]) (getProvisioner request).run := by
  have hne : (requestAt kind id).kind ≠ .text Kind.provisioner := by
    intro heq
    obtain rfl : kind = Kind.provisioner := by simpa [requestAt] using heq
    exact absurd hkind (by decide)
  unfold getProvisioner
  refine settles_read fun metadata _ => ?_
  refine settles_read fun ns _ => ?_
  refine settles_read fun spec _ => ?_
  refine settles_read fun name _ => ?_
  split
  · refine settles_fetch (copies_kept hne) ?_ fun _ _ _ => settles_pure _
    intro f
    dsimp only
    split
    · exact settles_throw _
    · exact settles_throw _
  · exact settles_throw _

theorem settles_withProvisioner {next : Value → Pass Directive}
    (hnext : ∀ provisioner,
      Settles kind (.copies (requestAt kind id) [request]) (next provisioner).run) :
    Settles kind (.copies (requestAt kind id) [request]) (withProvisioner kind request next).run := by
  unfold withProvisioner
  refine settles_outcome (settles_getProvisioner hkind) ?_
  rintro (f | provisioner)
  · dsimp only
    split
    · exact settles_andThen (settles_recordMissing hkind haddr) fun _ => settles_pure _
    · exact settles_throw _
  · exact hnext provisioner

omit hkind haddr in
/-- The job is counted when it is created. -/
theorem settles_createJob {memory : Memory} {provisioner : Value} :
    Settles kind memory (createJob kind request provisioner).run := by
  unfold createJob
  refine settles_read fun metadata _ => ?_
  refine settles_read fun job hjob => ?_
  refine settles_created (isChild_provisioningJob hjob) (by decide) ?_ (fun _ => rfl) ?_
  · intro f
    dsimp only
    split
    · exact settles_tell (settles_pure _)
    · exact settles_throw f
  · intro _
    refine settles_read fun name _ => ?_
    refine settles_read fun spec _ => ?_
    refine settles_read fun image _ => ?_
    refine settles_note ?_
    exact settles_tell (settles_pure _)

/-- A request that starts is counted as one that enters its next stage. -/
theorem settles_start (hstage : stageOf request = .ok .unset) :
    Settles kind (.copies (requestAt kind id) [request]) (start kind request).run := by
  unfold start
  refine settles_withProvisioner hkind haddr fun provisioner => ?_
  refine settles_read fun conditions _ => ?_
  refine settles_safely settles_instant fun now => ?_
  refine settles_andThen (settles_enter hkind haddr hstage (by decide)) fun _ => ?_
  exact settles_createJob

/-- A request whose job is complete is counted as ready. -/
theorem settles_complete {metadata : Value} (hstage : stageOf request = .ok .creating) :
    Settles kind (.copies (requestAt kind id) [request]) (complete kind request metadata).run := by
  unfold complete
  refine settles_read fun conditions _ => ?_
  refine settles_safely (settles_bind settles_instant fun _ => settles_pure _) fun recorded => ?_
  refine settles_andThen (settles_enter hkind haddr hstage (by decide)) fun _ => ?_
  refine settles_note ?_
  refine settles_read fun name _ => ?_
  exact settles_tell (settles_pure _)

/-- A request whose job has failed is counted as failed. -/
theorem settles_failed {metadata job : Value} (hstage : stageOf request = .ok .creating) :
    Settles kind (.copies (requestAt kind id) [request]) (fail kind request metadata job).run := by
  unfold fail
  refine settles_read fun conditions _ => ?_
  refine settles_read fun name _ => ?_
  refine settles_read fun reason _ => ?_
  refine settles_safely (settles_bind settles_instant fun _ => settles_pure _) fun recorded => ?_
  refine settles_safely (settles_bind settles_instant fun _ => settles_pure _) fun recorded => ?_
  refine settles_andThen (settles_enter hkind haddr hstage (by decide)) fun _ => ?_
  refine settles_note ?_
  exact settles_tell (settles_pure _)

/-- A pass that looks at the job counts what it makes of it. -/
theorem settles_observe (hstage : stageOf request = .ok .creating) :
    Settles kind (.copies (requestAt kind id) [request]) (observe settings kind request).run := by
  -- reading the job adds nothing to what was read of the request
  have hne : (requestAt kind id).kind ≠ .text Kind.job := by
    intro heq
    obtain rfl : kind = Kind.job := by simpa [requestAt] using heq
    exact absurd hkind (by decide)
  unfold observe
  refine settles_read fun metadata _ => ?_
  refine settles_read fun ns _ => ?_
  refine settles_read fun name _ => ?_
  refine settles_fetch (copies_kept hne) ?_ ?_
  · intro f
    dsimp only
    split
    · refine settles_note ?_
      exact settles_withProvisioner hkind haddr fun _ => settles_createJob
    · exact settles_throw f
  · intro job _ _
    refine settles_read fun outcome _ => ?_
    cases outcome with
    | running => exact settles_lift _
    | complete => exact settles_complete hkind haddr hstage
    | failed => exact settles_failed hkind haddr hstage

end Request

/-- A pass that has no copy of its request gets one first. -/
theorem reckons_provisioning (hkind : kind ∈ requestKinds) {t : Tally}
    (ht : Square (.copies (requestAt kind id) []) [] [] t) :
    Reckons kind (fun t' _ => Square .none [] [] t') (converge settings kind id).run t := by
  unfold converge
  refine ⟨.get _ _ _, ?_⟩
  rintro (f | request) _ ⟨hfits, rfl⟩
  · exact ht.forget.hearing trivial rfl
  have haddr : addressOf request = .ok (requestAt kind id) := hfits.1
  -- the copy that was just fetched is the only one
  have hread : (Memory.copies (requestAt kind id) [request]).holds
      (t.heard ++ [(.get (.text kind) id.ns id.name, .ok request)]) :=
    (History.reads_append_get _ _ _ _).trans (congrArg (· ++ [request]) ht.remembered)
  have ht' : Square (.copies (requestAt kind id) [request]) [] []
      (t.hearing kind (.get (.text kind) id.ns id.name) (.ok request)) :=
    ⟨hread, (ht.forget.hearing trivial rfl).even⟩
  suffices hrest : Settles kind (.copies (requestAt kind id) [request]) _ from
    (hrest _ ht').mono (fun _ _ hmay => hmay) fun _ _ hdone => hdone.forget
  refine settles_read fun metadata _ => ?_
  refine settles_read fun status hstatus => ?_
  have hstageOf : stageOf request = Stage.ofStatus status := by
    simp [stageOf, hstatus, bind, Except.bind]
  split
  · next hstage => exact settles_start hkind haddr (hstageOf.trans hstage)
  · next hstage => exact settles_observe hkind haddr (hstageOf.trans hstage)
  · exact settles_pure _
  · exact settles_pure _
  · refine settles_read fun stored _ => ?_
    exact settles_note (settles_pure _)
  · exact settles_throw _

end Requests

/-! ## All handlers -/

/-- However a pass of any handler is answered, in the end it counted what it owes. -/
theorem reconcile_reckons {settings settings' : Settings} {h : Handler} (hhandler : h ∈ handlers settings)
    (id : Identity) :
    Reckons h.kind (fun t _ => Square .none [] [] t) (h.reconcile settings' id) {} := by
  have hstart : ∀ memory : Memory, memory.holds [] → Square memory [] [] {} :=
    fun _ hholds => ⟨hholds, fun _ _ => rfl⟩
  have hrequests : ∀ k ∈ requestKinds, Reckons k (fun t _ => Square .none [] [] t)
      ((Provisioning.handler settings k).reconcile settings' id) {} := fun k hk =>
    reckons_reconcile settings' (fun _ => reckons_provisioning hk) (hstart _ rfl)
  simp only [handlers, List.mem_cons, List.not_mem_nil, or_false] at hhandler
  -- the five handlers: services, databases, provisioners, and the two kinds of requests
  rcases hhandler with rfl | rfl | rfl | rfl | rfl
  · exact reckons_reconcile settings' (settles_converge .service settings.images) (hstart _ trivial)
  · exact reckons_reconcile settings' (settles_converge .database settings.images) (hstart _ trivial)
  · exact reckons_reconcile settings' settles_labelling (hstart _ trivial)
  · exact hrequests Kind.resource (by decide)
  · exact hrequests Kind.provisioningJob (by decide)

end Reconciler.Ledger
