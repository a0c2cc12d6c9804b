import Reconciler.Proofs.Convergence.Directive
import Reconciler.Proofs.Parts
import Reconciler.Proofs.Provisioning.Calls
import Reconciler.Scheduling

/-! # What the operator writes

Passes fetch objects, change them and send them back whole. What they change is little: the exposure of an
endpoint, the progress of a request, the labels of a provisioner. Beside that they create objects, and put
one annotation on owners. This is shown of every handler and of the reaction to changed children, whatever
the store answers.

Main definitions and statements:

* `OwnWrite`: the five kinds of writes, each with what is written to;
* `MayWrite`: a write of a pass in view of what it has read;
* `OperatorPass.writes`: no pass makes any other.
-/

namespace Reconciler

open Cluster

/-! ## Own parts -/

def exposureParts : List Path := [["spec", "type"]]

/-- How far a request has come. -/
def progressParts : List Path :=
  [["status", "lifecycleStage"], ["status", "conditions"], ["status", "observedGeneration"]]

def labelParts : List Path := [["metadata", "labels"]]

/-- The annotation that tells an owner which child changed. -/
def markParts : List Path := [["metadata", "annotations", childChangedKey]]

/-- Where the tiers of a parent that was seen in the same namespace look for an endpoint. -/
structure EndpointAt (seen : Address → Value → Prop) (a : Address) : Prop where
  kind : a.kind = .text Kind.service
  wanted : ∃ (family : Family) (images : Images) (parent name : Value) (tiers : List Tier),
    seen ⟨.text family.kind, a.ns, name⟩ parent ∧ family.tiers images parent = .ok tiers ∧
    ∃ tier ∈ tiers, tier.drift.isSome = true ∧ tier.childName = a.name

theorem EndpointAt.mono {seen seen' : Address → Value → Prop} {a : Address} (h : EndpointAt seen a)
    (hseen : ∀ b v, seen b v → seen' b v) : EndpointAt seen' a := by
  rcases h.wanted with ⟨family, images, parent, name, tiers, hparent, htiers⟩
  exact ⟨h.kind, family, images, parent, name, tiers, hseen _ _ hparent, htiers⟩

/-- A write to an address, and the parts it sets, in view of what was seen before, and of what is known to be
stored now: some object, or none. -/
inductive OwnWrite (seen : Address → Value → Prop) (known : Address → Option Value → Prop) :
    Address → StoreCall → List Path → Prop where
  /-- An object is created where there is none. -/
  | create {a : Address} {object : Value} : known a none → OwnWrite seen known a (.create object) []
  /-- An endpoint gets another exposure. -/
  | expose {a : Address} {existing object : Value} :
      EndpointAt seen a → known a (some existing) → SameBut exposureParts existing object →
      OwnWrite seen known a (.update object) exposureParts
  /-- A request makes progress. -/
  | progress {a : Address} {kind : String} {existing object : Value} :
      kind ∈ requestKinds → a.kind = .text kind → known a (some existing) →
      SameBut progressParts existing object →
      OwnWrite seen known a (.updateStatus object) progressParts
  /-- A provisioner gets labels. -/
  | label {a : Address} {existing object : Value} :
      a.kind = .text Kind.provisioner → known a (some existing) →
      SameBut labelParts existing object →
      OwnWrite seen known a (.update object) labelParts
  /-- The owner of a changed child is marked. -/
  | mark {body kind : Value} {id : Identity} {marker : String} :
      owningResource body ownerKinds = .ok (some (kind, id)) → childMarker body = .ok marker →
      OwnWrite seen known ⟨kind, id.ns, id.name⟩
        (.annotate kind id.ns id.name (.object [(childChangedKey, .text marker)])) markParts

/-! ## Writes of a pass -/

namespace History

/-- What a pass takes to be stored: what it fetched; and where it creates, nothing. -/
def knows (h : History) (a : Address) : Option Value → Prop
  | none => True
  | some v => v ∈ h.reads a

theorem mem_reads_after {h : History} {a : Address} {v : Value} (hv : v ∈ h.reads a)
    (call : StoreCall) (reply : Except Failure Value) : v ∈ reads a (h ++ [(call, reply)]) := by
  have hnoted : facing noted h (.store call) reply (h ++ [(call, reply)]) := rfl
  exact mem_reads_of_noted hv hnoted

end History

/-- What a pass may ask: it may read, and make writes of the five kinds to what it read. -/
def MayWrite (h : History) (call : StoreCall) : Prop :=
  call.writes = true → ∃ a parts, OwnWrite (fun b v => v ∈ h.reads b) h.knows a call parts

theorem mayWrite_get (h : History) (kind ns name : Value) : MayWrite h (.get kind ns name) := by
  intro hwrites
  cases hwrites

/-- A pass may create whatever it wants, since nothing may be stored there yet. -/
theorem mayWrite_create (h : History) (object : Value) : MayWrite h (.create object) :=
  fun _ => ⟨⟨.null, .null, .null⟩, [], .create trivial⟩

/-- What is asked of a pass: that it makes permitted calls only. -/
abbrev Pass.Writes {α : Type} (p : Pass α) (h : History) : Prop :=
  Pass.Ensures noted MayWrite (fun _ _ => True) p h

/-! ## Services and databases -/

namespace Convergence

/-- Only endpoints are compared with what is wanted, and only by their exposure. -/
theorem drift_of_mem_tiers {family : Family} {images : Images} {parent : Value} {tiers : List Tier}
    (h : family.tiers images parent = .ok tiers) :
    ∀ tier ∈ tiers, ∀ drift, tier.drift = some drift →
      drift = Manifest.exposureDrift ∧ tier.kind = Kind.service := by
  cases family with
  | database =>
    simp only [Family.tiers, databaseTiers, bind_eq_ok, pure_eq_ok] at h
    rcases h with ⟨name, -, secret, -, rfl⟩
    simp [eq_comm]
  | service =>
    simp only [Family.tiers, serviceTiers, bind_eq_ok, pure_eq_ok] at h
    rcases h with ⟨name, -, database, -, keycloak, -, secret, -, web, -, gateway, -, rfl⟩
    simp [eq_comm]

/-- Setting a field of the spec changes nothing else. -/
theorem sameBut_applyChanges {existing changed value : Value} {key : String}
    (h : applyChanges existing [(key, value)] = .ok changed) :
    SameBut [["spec", key]] existing changed := by
  simp only [applyChanges, bind_eq_ok, Value.require_eq_ok] at h
  rcases h with ⟨filled, hfilled, spec, hspec, spec', hspec', hset⟩
  cases spec with
  | object fields =>
    obtain rfl := Except.ok.inj hspec'
    have hmerge : SameBut [[key]] (.object fields) (.object (Fields.merge fields [(key, value)])) :=
      sameBut_merge fields [(key, value)]
    exact (SameBut.filled hfilled [key]).trans (.within (by simp) hspec hset hmerge)
  | _ => cases hspec'

/-- Only the exposure is compared. -/
theorem exposureDrift_cases {existing desired : Value} {changes : Fields}
    (h : Manifest.exposureDrift existing desired = .ok changes) :
    changes = [] ∨ ∃ wanted, changes = [("type", wanted)] := by
  simp only [Manifest.exposureDrift, bind_eq_ok, pure_eq_ok] at h
  rcases h with ⟨_, -, _, -, _, -, wanted, -, rfl⟩
  split
  · exact .inl rfl
  · exact .inr ⟨wanted, rfl⟩

section Passes

variable {settings : Settings} {family : Family} {images : Images} {id : Identity} {parent : Value}
variable {h : History}

/-- The exposure of an endpoint is corrected in the object that was read. -/
theorem mayWrite_expose {all : List Tier} {tier : Tier} {existing changed : Value} {changes : Fields}
    (hall : family.tiers images parent = .ok all) (htier : tier ∈ all) {drift : Drift}
    (hdrift : tier.drift = some drift) {wanted : Value} (hchanges : drift existing wanted = .ok changes)
    (hsome : changes ≠ []) (hparent : parent ∈ h.reads ⟨.text family.kind, id.ns, id.name⟩)
    (hread : existing ∈ h.reads ⟨.text tier.kind, id.ns, tier.childName⟩)
    (hchanged : applyChanges existing changes = .ok changed) : MayWrite h (.update changed) := by
  intro _
  rcases drift_of_mem_tiers hall tier htier drift hdrift with ⟨rfl, hkind⟩
  have hendpoint : EndpointAt (fun b v => v ∈ h.reads b) ⟨.text tier.kind, id.ns, tier.childName⟩ :=
    ⟨by rw [hkind], family, images, parent, id.name, all, hparent, hall, tier, htier, by simp [hdrift],
      rfl⟩
  rcases exposureDrift_cases hchanges with rfl | ⟨exposure, rfl⟩
  · exact absurd rfl hsome
  · exact ⟨_, _, .expose hendpoint hread (sameBut_applyChanges hchanged)⟩

/-- A walk over tiers creates children, and corrects the exposure of endpoints it read. -/
theorem walk_writes {all tiers : List Tier} (hall : family.tiers images parent = .ok all)
    (hsub : ∀ tier ∈ tiers, tier ∈ all)
    (hparent : parent ∈ h.reads ⟨.text family.kind, id.ns, id.name⟩) :
    (walk settings family.kind id parent tiers).Writes h := by
  induction tiers generalizing h with
  | nil =>
    unfold walk
    refine Pass.ensures_read (fun metadata _ => ?_) (fun _ _ => trivial)
    exact Pass.ensures_note trivial (fun _ _ => trivial)
  | cons tier rest ih =>
    have htier : tier ∈ all := hsub tier (by simp)
    have hmodest := (tiers_modest family images parent).of_ok hall tier htier
    have hrest : ∀ tier ∈ rest, tier ∈ all := fun t ht => hsub t (by simp [ht])
    unfold walk
    refine Pass.ensures_attempt (mayWrite_get _ _ _ _) ?_
    rintro (f | existing) h' rfl
    · dsimp only
      -- any failure but a missing child ends the pass
      split
      · exact create_ensures (fun hok herror => hmodest.build hok fun f _ => herror _)
          fun manifest _ => mayWrite_create _ manifest
      · trivial
    · have hparent' := History.mem_reads_after hparent
        (.get (.text tier.kind) id.ns tier.childName) (.ok existing)
      have hread : existing ∈ History.reads ⟨.text tier.kind, id.ns, tier.childName⟩
          (h ++ [(.get (.text tier.kind) id.ns tier.childName, .ok existing)]) := by
        simp [History.reads_append_get]
      dsimp only
      split
      · exact ih hrest hparent'
      · next drift hdrift =>
        rw [Pass.ensures_bind]
        refine hmodest.build (fun wanted _ => ?_) (fun _ _ => trivial)
        refine Pass.ensures_read (fun changes hchanges => ?_) (fun _ _ => trivial)
        split
        · exact ih hrest hparent'
        · next hnonempty =>
          have hsome : changes ≠ [] := by simpa using hnonempty
          refine patch_ensures fun changed hchanged => ?_
          exact mayWrite_expose hall htier hdrift hchanges hsome hparent' hread hchanged

theorem converge_writes :
    (converge settings family.kind (family.tiers images) id).Writes [] := by
  unfold converge
  refine Pass.ensures_must (mayWrite_get _ _ _ _) ?_ (fun _ _ _ => trivial)
  rintro parent h' rfl
  refine Pass.ensures_read (fun metadata _ => ?_) (fun _ _ => trivial)
  refine Pass.ensures_read (fun tiers htiers => ?_) (fun _ _ => trivial)
  refine walk_writes htiers (fun _ ht => ht) ?_
  simp [History.reads, History.found?]

end Passes

end Convergence

/-! ## Provisioners -/

namespace Labelling

/-- Labels are added, and nothing else. -/
theorem sameBut_withLabels {stored provisioner metadata labels labeled : Value} {d : Descriptor}
    (hfilled : stored.withDefault "metadata" (.object []) = .ok provisioner)
    (hmeta : provisioner.require "metadata" = .ok metadata)
    (h : withLabels provisioner metadata labels d = .ok labeled) :
    SameBut labelParts stored labeled := by
  simp only [withLabels, bind_eq_ok] at h
  rcases h with ⟨kept, -, metadata', hmeta', hset⟩
  exact (SameBut.filled hfilled ["labels"]).trans
    (.within (by simp) (Value.require_eq_ok.mp hmeta) hset (.set hmeta'))

theorem converge_writes {id : Identity} : (converge id).Writes [] := by
  unfold converge
  refine Pass.ensures_must (mayWrite_get _ _ _ _) ?_ (fun _ _ _ => trivial)
  rintro stored h' rfl
  refine Pass.ensures_read (fun provisioner hfilled => ?_) (fun _ _ => trivial)
  refine Pass.ensures_read (fun metadata hmeta => ?_) (fun _ _ => trivial)
  refine Pass.ensures_read (fun labels _ => ?_) (fun _ _ => trivial)
  refine Pass.ensures_read (fun labelled _ => ?_) (fun _ _ => trivial)
  split
  · trivial
  · refine Pass.ensures_read (fun spec _ => ?_) (fun _ _ => trivial)
    refine Pass.ensures_read (fun descriptor _ => ?_) (fun _ _ => trivial)
    split
    · refine Pass.ensures_note ?_ (fun _ _ => trivial)
      exact Pass.ensures_tell trivial
    · trivial
    · refine Pass.ensures_read (fun labeled hlabeled => ?_) (fun _ _ => trivial)
      -- the labels are the only write, to the provisioner that was just read
      refine Pass.ensures_must ?_ (fun _ _ _ => ?_) (fun _ _ _ => trivial)
      · intro _
        refine ⟨⟨.text Kind.provisioner, id.ns, id.name⟩, _, .label rfl ?_
          (sameBut_withLabels hfilled hmeta hlabeled)⟩
        simp [History.knows, History.reads, History.found?]
      · refine Pass.ensures_note ?_ (fun _ _ => trivial)
        exact Pass.ensures_tell trivial

end Labelling

/-! ## Requests -/

namespace Provisioning

/-- Some fields of the status are set, and nothing else. -/
theorem sameBut_setStatus {request status o : Value} {fields changes : Fields}
    (hstatus : statusOf request = .ok status) (hfields : status.spread = .ok fields)
    (hset : request.setField "status" (.object (Fields.merge fields changes)) = .ok o)
    (hsome : changes ≠ []) :
    SameBut (changes.map fun change => ["status", change.1]) request o := by
  simp only [statusOf, bind_eq_ok, pure_eq_ok] at hstatus
  rcases hstatus with ⟨raw, hraw, rfl⟩
  have hparts : (changes.map fun change => ["status", change.1]) =
      (changes.map fun change => [change.1]).map ("status" :: ·) := by
    simp
  rw [hparts]
  refine .of_setField (by simpa using hsome) hset ?_
  intro path hpath
  rw [sameBut_merge fields changes path hpath, ← Value.spread_eq_ok.mp hfields]
  cases path with
  | nil => exact absurd hpath (not_apart_nil (by simpa using hsome))
  | cons key rest =>
    -- a status that is absent has no fields, like the empty one in its place
    rw [Value.part?_orElse]
    rcases Value.fieldOr_eq_ok.mp hraw with ⟨all, rfl, rfl⟩
    simp only [Value.field?]
    cases Fields.find? "status" all <;> rfl

/-- What a pass stores as the status changes the progress of the request, and nothing else. -/
theorem StatusWrite.sameBut {h : History} {request o : Value} (hw : StatusWrite h request o) :
    SameBut progressParts request o := by
  have hadvanced : ∀ {target current : Stage} {conditions : Value},
      advanced request target conditions = .ok (current, o) → SameBut progressParts request o := by
    intro target current conditions hmoved
    rcases of_advanced hmoved with ⟨-, -, status, fields, generation, hstatus, hfields, hset⟩
    exact sameBut_setStatus hstatus hfields hset (by simp)
  -- every status that is stored is the one read with some of these fields set
  cases hw with
  | waiting _ _ _ _ hset =>
    simp only [withStatus, bind_eq_ok] at hset
    rcases hset with ⟨status, hstatus, fields, hfields, hset⟩
    exact (sameBut_setStatus hstatus hfields hset (by simp)).mono (by simp [progressParts])
  | starting _ _ hmoved => exact hadvanced hmoved
  | completing _ _ _ _ hmoved => exact hadvanced hmoved
  | failing _ _ _ _ hmoved => exact hadvanced hmoved

theorem MayAsk.mayWrite {kind : String} (hkind : kind ∈ requestKinds) {id : Identity} {h : History}
    {call : StoreCall} (hmay : MayAsk kind id h call) : MayWrite h call := by
  cases hmay with
  | request _ => exact mayWrite_get _ _ _ _
  | other _ => exact mayWrite_get _ _ _ _
  | job _ _ _ _ => exact mayWrite_create _ _
  | @status request o hread hwrite =>
    have hmem : request ∈ h.reads (requestAt kind id) := by simp [hread]
    exact fun _ => ⟨requestAt kind id, _, .progress hkind rfl hmem hwrite.sameBut⟩

end Provisioning

/-! ## Changed children -/

/-- A value that is the same as a text is that text. -/
theorem Value.eq_of_same_text {v : Value} {s : String} (h : v.same (.text s) = true) :
    v = .text s := by
  cases v with
  | text t =>
    have hts : (t == s) = true := h
    rw [eq_of_beq hts]
  | _ => cases h

/-- A controller that is found among kinds is of one of them. -/
theorem controllerAmong_eq_some {kinds references : List Value} {ref : Value}
    (h : controllerAmong kinds references = .ok (some ref)) :
    ∃ kind, ref.fieldOrNull "kind" = .ok kind ∧ kinds.any kind.same = true := by
  induction references with
  | nil => cases h
  | cons first rest ih =>
    simp only [controllerAmong, bind_eq_ok] at h
    rcases h with ⟨controller, -, h⟩
    -- a reference that is passed over leaves the search to the rest
    split at h
    · simp only [bind_eq_ok] at h
      rcases h with ⟨group, -, h⟩
      split at h
      · simp only [bind_eq_ok] at h
        rcases h with ⟨kind, hkind, h⟩
        split at h
        · next hany =>
          simp only [pure_eq_ok, Option.some.injEq] at h
          subst h
          exact ⟨kind, hkind, hany⟩
        · exact ih h
      · exact ih h
    · exact ih h

/-- The owners that are marked are of the kinds that have children. -/
theorem mem_of_owningResource {body kind : Value} {id : Identity}
    (h : owningResource body ownerKinds = .ok (some (kind, id))) : kind ∈ ownerKinds := by
  simp only [owningResource, bind_eq_ok] at h
  rcases h with ⟨metadata, -, owners, -, references, -, found, hfound, h⟩
  cases found with
  | none => cases h
  | some ref =>
    simp only [bind_eq_ok, Value.require_eq_ok, pure_eq_ok, Option.some.injEq,
      Prod.mk.injEq] at h
    rcases h with ⟨_, hkind, _, -, _, -, rfl, -⟩
    -- the kind was compared with the kinds of owners, by contents
    rcases controllerAmong_eq_some hfound with ⟨_, hread, hany⟩
    rw [Value.fieldOrNull, Value.fieldOr_of_field? hkind] at hread
    obtain rfl := Except.ok.inj hread
    simp only [ownerKinds, List.any_cons, List.any_nil, Bool.or_false, Bool.or_eq_true] at hany
    rcases hany with hsame | hsame
    · rw [Value.eq_of_same_text hsame]
      decide
    · rw [Value.eq_of_same_text hsame]
      decide

/-- The owner of a child is marked, if there is one, and nothing else is written. -/
theorem nudgeOwner_writes {body : Value} : (nudgeOwner body ownerKinds).Writes [] := by
  unfold nudgeOwner
  refine Pass.ensures_read (fun owner howner => ?_) (fun _ _ => trivial)
  split
  · trivial
  · next kind id =>
    refine Pass.ensures_read (fun marker hmarker => ?_) (fun _ _ => trivial)
    refine Pass.ensures_attempt (fun _ => ⟨_, _, .mark howner hmarker⟩) ?_
    rintro (f | marked) h' -
    · dsimp only
      split
      · exact Pass.ensures_tell trivial
      · split
        · exact Pass.ensures_tell trivial
        · trivial
    · trivial

theorem childEvent_writes {body type : Value} : (childEvent body type).Writes [] := by
  unfold childEvent
  split
  · refine Pass.ensures_read (fun fields _ => ?_) (fun _ _ => trivial)
    rw [Pass.ensures_bind]
    refine Pass.Ensures.mono nudgeOwner_writes (fun _ _ hmay => hmay) ?_
    rintro h (f | owner) - <;> trivial
  · trivial

/-! ## All passes -/

/-- The reaction to an event about a child, as a pass of its own. -/
def nudge (body type : Value) : SafePass Directive := do
  let _ ← (childEvent body type).run
  return .done

/-- A pass of any of the handlers over any resource, or a reaction to any event about a child. -/
inductive OperatorPass : SafePass Directive → Prop where
  | handler {settings settings' : Settings} {h : Handler} (id : Identity) :
      h ∈ handlers settings → OperatorPass (h.reconcile settings' id)
  | event (body type : Value) : OperatorPass (nudge body type)

/-- Every write of the operator is of one of the five kinds. -/
theorem OperatorPass.writes (p : SafePass Directive) (hp : OperatorPass p) :
    SafePass.Ensures noted MayWrite (fun _ _ => True) p [] := by
  cases hp with
  | @handler settings settings' h id hmem =>
    -- five handlers, of which two are of parents and two of requests
    simp only [handlers, List.mem_cons, List.not_mem_nil, or_false] at hmem
    rcases hmem with rfl | rfl | rfl | rfl | rfl
    · exact (Handler.reconcile_ensures _ _ _ _).mpr
        (@Convergence.converge_writes settings .service settings.images id)
    · exact (Handler.reconcile_ensures _ _ _ _).mpr
        (@Convergence.converge_writes settings .database settings.images id)
    · exact (Handler.reconcile_ensures _ _ _ _).mpr Labelling.converge_writes
    · exact (Provisioning.reconcile_asks (by decide) _).mono
        (fun _ _ hmay => hmay.mayWrite (by decide)) fun _ _ h => h
    · exact (Provisioning.reconcile_asks (by decide) _).mono
        (fun _ _ hmay => hmay.mayWrite (by decide)) fun _ _ h => h
  | event body type =>
    refine (SafePass.ensures_bind _ _ _).mpr ?_
    refine SafePass.Ensures.mono childEvent_writes (fun _ _ hmay => hmay) ?_
    exact fun _ _ _ => trivial

end Reconciler
