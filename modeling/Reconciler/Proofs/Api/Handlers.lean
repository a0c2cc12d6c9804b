import Reconciler.Proofs.Api.Tandem
import Reconciler.Proofs.Ownership.Writes
import Reconciler.Proofs.Provisioning.Owners
import Reconciler.Simulation.World

/-! # Handlers over both stores

Every pass of every handler goes together over a server and over its cluster. All its calls are about objects
that both know: the names come from objects that were read, and those are stored where they were read. And all
it looks at in a failure is what went wrong.

Main definitions and statements:

* `Convergence.converge_tandem`, `Labelling.converge_tandem`, `Provisioning.converge_tandem`: the passes of the
  handlers;
* `nudge_tandem`: reactions to events about children;
* `NamingPass`: all of these, of resources whose names are texts;
* `store_refines_cluster`: calls, and all passes, over every server in front of a cluster.
-/

namespace Reconciler

open Cluster

/-! ## Reading -/

namespace Pass

variable {α β : Type} {rel : α → β → Prop} {c : Cluster} {kind : String} {ns name : Value}

/-- A fetch whose failure is looked at. -/
theorem inTandem_look {k : Except Failure Value → Pass α} {k' : Except Failure Value → Pass β}
    (ha : Address.Supported ⟨.text kind, ns, name⟩)
    (hok : ∀ v, c.find? ⟨.text kind, ns, name⟩ = some v → InTandem rel c (k (.ok v)) (k' (.ok v)))
    (herror : ∀ f source source', InTandem rel c (k (.error ⟨f, source⟩)) (k' (.error ⟨f, source'⟩))) :
    InTandem rel c ((Pass.get kind ns name).outcome >>= k) ((Pass.get kind ns name).outcome >>= k') := by
  have hsame : (c.perform (.get (.text kind) ns name)).2 = c := get_snd c _
  refine inTandem_attempt (apt_get ha) ?_ ?_
  · intro v hv
    rw [hsame]
    exact hok v (find?_of_get (reported_eq_ok.mp hv))
  · rw [hsame]
    exact herror

/-- A fetch that has to succeed. -/
theorem inTandem_fetch {k : Value → Pass α} {k' : Value → Pass β}
    (ha : Address.Supported ⟨.text kind, ns, name⟩)
    (hok : ∀ v, c.find? ⟨.text kind, ns, name⟩ = some v → InTandem rel c (k v) (k' v)) :
    InTandem rel c (Pass.get kind ns name >>= k) (Pass.get kind ns name >>= k') := by
  have hsame : (c.perform (.get (.text kind) ns name)).2 = c := get_snd c _
  refine inTandem_must (apt_get ha) ?_
  intro v hv
  rw [hsame]
  exact hok v (find?_of_get (reported_eq_ok.mp hv))

end Pass

/-- A supported kind, with a namespace and a name. -/
theorem supported_of_kind {kind : String} (hkind : kind ∈ Served.kinds.map (·.1)) (ns name : String) :
    Address.Supported ⟨.text kind, .text ns, .text name⟩ := by
  obtain ⟨entry, hentry, rfl⟩ := List.mem_map.mp hkind
  exact ⟨entry, hentry, ns, name, rfl⟩

open Pass

/-! ## Services and databases -/

namespace Convergence

variable {settings : Settings} {kind : String} {parent : Value} {tier : Tier} {child : Child} {c : Cluster}

/-- Children lie in the namespace of their parent, are of supported kinds and have texts as names. -/
theorem supported_of_mem_children {parent : Value} {ns name : String} {family : Family} {child : Child}
    (hchild : child ∈ family.children parent (.text ns) name) :
    child.address.ns = .text ns ∧ child.address.Supported := by
  have hmem : child.address ∈ family.addresses (.text ns) name := by
    rw [← Family.map_address_children parent]
    exact List.mem_map_of_mem hchild
  obtain ⟨hns, k, hk, hkind⟩ := Family.of_mem_addresses hmem
  have hnames : ∀ a ∈ family.addresses (.text ns) name, ∃ s, a.name = .text s := by
    cases family <;> simp [Family.addresses, Family.children]
  obtain ⟨s, hname⟩ := hnames _ hmem
  -- every kind of child is one that the client serves
  have hserved : ∀ k ∈ Family.childKinds, k ∈ Served.kinds.map (·.1) := by decide
  have hsame : child.address = ⟨.text k, .text ns, .text s⟩ := by rw [← hkind, ← hns, ← hname]
  refine ⟨hns, ?_⟩
  rw [hsame]
  exact supported_of_kind (hserved k hk) ns s

theorem create_tandem (hmakes : tier.Makes parent child) (hchild : child.address.Supported) :
    InTandem Directive.Concur c (create kind parent tier) (create kind parent tier) := by
  -- building the manifest makes no calls, and what is built has the address of the child
  have hbuilt : Pass.Ensures reliable (fun _ _ => False) (fun _ r => ∀ m, r = .ok m → Built child m)
      tier.build c := by
    refine hmakes.build ?_ fun f _ => nofun
    rintro m hm _ ⟨⟩
    exact hm
  unfold create
  refine inTandem_read fun metadata _ => ?_
  refine inTandem_tell ?_
  refine inTandem_built hbuilt fun manifest hmanifest => ?_
  refine inTandem_note ?_
  refine inTandem_attempt (apt_create hmanifest.address hchild) (fun created _ => ?_) ?_
  · exact inTandem_tell (inTandem_tell (inTandem_pure (.same _)))
  · intro f source source'
    -- somebody else was faster, or the creation failed
    refine inTandem_branch rfl (fun _ => ?_) fun _ => ?_
    · exact inTandem_tell (inTandem_pure (.same _))
    · exact inTandem_tell (inTandem_throw f source source')

theorem patch_tandem {existing : Value} {changes : Fields} {a : Address}
    (haddr : addressOf existing = .ok a) (ha : a.Supported) :
    InTandem Directive.Concur c (patch settings kind parent tier existing changes)
      (patch settings kind parent tier existing changes) := by
  unfold patch
  refine inTandem_tell ?_
  refine inTandem_read fun metadata _ => ?_
  refine inTandem_tell ?_
  refine inTandem_note ?_
  refine inTandem_read fun changed hchanged => ?_
  refine inTandem_attempt (apt_update (addressOf_applyChanges hchanged haddr) ha) (fun updated _ => ?_) ?_
  · refine inTandem_tell (inTandem_tell ?_)
    exact inTandem_liftRead _ .same
  · intro f source source'
    refine inTandem_branch rfl (fun _ => ?_) fun _ => ?_
    · exact inTandem_tell (inTandem_pure (.same _))
    · exact inTandem_tell (inTandem_throw f source source')

/-- The induction is on the tiers and the children they make; what is found at a tier is stored there. -/
theorem walk_tandem (horderly : c.Orderly) {tiers : List Tier} {children : List Child} {ns name : String}
    (hmake : List.Forall₂ (Tier.Makes parent) tiers children)
    (hchildren : ∀ child ∈ children, child.address.ns = .text ns ∧ child.address.Supported) :
    InTandem Directive.Concur c (walk settings kind ⟨.text ns, .text name⟩ parent tiers)
      (walk settings kind ⟨.text ns, .text name⟩ parent tiers) := by
  induction hmake with
  | nil =>
    unfold walk
    refine inTandem_read fun metadata _ => ?_
    exact inTandem_note (inTandem_pure (.same _))
  | @cons tier child tiers children hmakes hmake ih =>
    obtain ⟨hns, hchild⟩ := hchildren child List.mem_cons_self
    have hrest := ih fun later hlater => hchildren later (List.mem_cons_of_mem _ hlater)
    -- what the tier looks for is its child
    have haddr : child.address = ⟨.text tier.kind, .text ns, tier.childName⟩ := by
      rw [← hns, ← hmakes.kind, ← hmakes.name]
    unfold walk
    refine inTandem_look (haddr ▸ hchild) (fun existing hfind => ?_) fun f source source' => ?_
    · -- what is found has the address under which it was looked for, so it can be sent back
      have hexisting := horderly.consistent _ existing hfind
      dsimp only
      cases hdrift : tier.drift with
      | none => exact hrest
      | some drift =>
        have hbuilt : Pass.Ensures reliable (fun _ _ => False) (fun _ r => ∀ m, r = .ok m → True)
            tier.build c := hmakes.build (fun _ _ _ _ => trivial) fun _ _ _ _ => trivial
        refine inTandem_built hbuilt fun wanted _ => ?_
        refine inTandem_read fun changes _ => ?_
        refine inTandem_branch rfl (fun _ => ?_) fun _ => ?_
        · exact hrest
        · exact patch_tandem hexisting (haddr ▸ hchild)
    · refine inTandem_branch rfl (fun _ => ?_) fun _ => ?_
      · exact create_tandem hmakes hchild
      · exact inTandem_throw f source source'

/-- A pass over a service or a database goes together: the parent is stored where it was asked for, and so its
children can be asked for. -/
theorem converge_tandem (settings : Settings) (family : Family) {ns name : String} (horderly : c.Orderly) :
    InTandem Directive.Concur c
      (converge settings family.kind (family.tiers settings.images) ⟨.text ns, .text name⟩)
      (converge settings family.kind (family.tiers settings.images) ⟨.text ns, .text name⟩) := by
  have hserved : family.kind ∈ Served.kinds.map (·.1) := by cases family <;> decide
  unfold converge
  refine inTandem_fetch (supported_of_kind hserved ns name) fun parent hfind => ?_
  obtain ⟨tiers, htiers, hmake⟩ :=
    family.tiers_make settings.images (horderly.consistent _ parent hfind)
  refine inTandem_read fun metadata _ => ?_
  refine inTandem_read fun tiers' htiers' => ?_
  obtain rfl : tiers' = tiers := Except.ok.inj (htiers'.symm.trans htiers)
  exact walk_tandem horderly hmake fun _ => supported_of_mem_children

end Convergence

/-! ## Provisioners -/

namespace Labelling

/-- A pass over a provisioner goes together. Of a descriptor that is no descriptor, both say the same. -/
theorem converge_tandem {c : Cluster} (ns name : String) (horderly : c.Orderly) :
    InTandem Directive.Concur c (converge ⟨.text ns, .text name⟩) (converge ⟨.text ns, .text name⟩) := by
  have ha : Address.Supported ⟨.text Kind.provisioner, .text ns, .text name⟩ :=
    supported_of_kind (by decide) ns name
  unfold converge
  refine inTandem_fetch ha fun stored hfind => ?_
  refine inTandem_read fun provisioner hfilled => ?_
  refine inTandem_read fun metadata hmeta => ?_
  refine inTandem_read fun labels _ => ?_
  refine inTandem_read fun labelled _ => ?_
  refine inTandem_branch rfl (fun _ => ?_) fun _ => ?_
  · exact inTandem_pure (.same .done)
  · refine inTandem_read fun spec _ => ?_
    refine inTandem_read fun descriptor _ => ?_
    cases Descriptor.parse descriptor with
    | ok d =>
      refine inTandem_read fun labeled hlabeled => ?_
      -- new labels leave the address of the provisioner alone
      have haddr : addressOf labeled = .ok ⟨.text Kind.provisioner, .text ns, .text name⟩ :=
        (sameBut_withLabels hfilled hmeta hlabeled).addressOf (by decide)
          (horderly.consistent _ stored hfind)
      refine inTandem_must (apt_update haddr ha) fun updated _ => ?_
      exact inTandem_note (inTandem_tell (inTandem_pure (.same .done)))
    | error f =>
      cases f with
      | build complaint => exact inTandem_note (inTandem_tell (inTandem_pure (.same _)))
      | _ => exact inTandem_throw _ _ _

end Labelling

/-! ## Requests -/

namespace Provisioning

/-- A request that names its provisioner by a text, if it names one. -/
def NamesByText (request : Value) : Prop :=
  ∀ a, provisionerAt request = .ok a → a.name.truthy = true → ∃ s, a.name = .text s

section Passes

variable {α β : Type} {rel : α → β → Prop} {settings : Settings} {kind : String} {request : Value}
variable {ns name : String} {c : Cluster}

theorem inTandem_recordNow {r : Condition.Report} {conditions : List Condition}
    {k : List Condition → Pass α} {k' : List Condition → Pass β}
    (hnext : ∀ conditions, InTandem rel c (k conditions) (k' conditions)) :
    InTandem rel c (liftM (recordNow r conditions) >>= k) (liftM (recordNow r conditions) >>= k') :=
  .aside nofun fun _ _ => hnext _

/-- The provisioner is looked for under its name, in the namespace of the request. -/
theorem getProvisioner_tandem (haddr : addressOf request = .ok ⟨.text kind, .text ns, .text name⟩)
    (hnames : NamesByText request) :
    InTandem Eq c (getProvisioner request) (getProvisioner request) := by
  obtain ⟨metadata, hmeta, -, hns, -⟩ := addressOf_eq_ok.mp haddr
  unfold getProvisioner
  refine inTandem_read fun metadata' hmeta' => ?_
  obtain rfl : metadata' = metadata :=
    Except.ok.inj (hmeta'.symm.trans (Value.require_eq_ok.mpr hmeta))
  refine inTandem_read fun ns' hns' => ?_
  obtain rfl : ns' = .text ns := Except.ok.inj (hns'.symm.trans hns)
  refine inTandem_read fun spec hspec => ?_
  refine inTandem_read fun given hgiven => ?_
  refine inTandem_branch rfl (fun htruthy => ?_) fun _ => ?_
  · -- the name that is looked up is the one that the request is known to give as a text
    have hat : provisionerAt request = .ok ⟨.text Kind.provisioner, .text ns, given⟩ := by
      simp [provisionerAt, hmeta', hns, hspec, hgiven, bind, Except.bind, pure, Except.pure]
    obtain ⟨s, hs⟩ := hnames _ hat htruthy
    obtain rfl : given = .text s := hs
    refine inTandem_look (supported_of_kind (by decide) ns s) (fun provisioner _ => ?_) ?_
    · exact inTandem_pure rfl
    · intro f source source'
      refine inTandem_branch rfl (fun _ => ?_) fun _ => ?_
      · exact inTandem_throw _ _ _
      · exact inTandem_throw f source source'
  · exact inTandem_throw _ _ _

/-- Setting the status does not move a request. -/
theorem apt_setStatus (hkind : kind ∈ requestKinds)
    (haddr : addressOf request = .ok ⟨.text kind, .text ns, .text name⟩) {status changed : Value}
    (hset : request.setField "status" status = .ok changed) : Apt c (.updateStatus changed) := by
  have hserved : ∀ kind ∈ requestKinds, kind ∈ Served.kinds.map (·.1) ∧ kind ≠ Kind.secret := by decide
  obtain ⟨hmem, hsecret⟩ := hserved kind hkind
  have hchanged := addressOf_setField hset (by decide) (by decide)
  refine apt_updateStatus (hchanged.trans haddr) (supported_of_kind hmem ns name) ?_
  intro heq
  exact hsecret (Value.text.inj heq)

theorem recordMissing_tandem (hkind : kind ∈ requestKinds)
    (haddr : addressOf request = .ok ⟨.text kind, .text ns, .text name⟩) (provisioner : Value) :
    InTandem Eq c (recordMissing kind request provisioner) (recordMissing kind request provisioner) := by
  unfold recordMissing
  refine inTandem_read fun conditions _ => ?_
  refine inTandem_read fun metadata _ => ?_
  refine inTandem_note ?_
  refine inTandem_branch rfl (fun _ => ?_) fun _ => ?_
  · exact inTandem_pure rfl
  · refine inTandem_recordNow fun conditions => ?_
    refine inTandem_read fun changed hchanged => ?_
    simp only [withStatus, bind_eq_ok] at hchanged
    obtain ⟨status, -, fields, -, hset⟩ := hchanged
    refine inTandem_must (apt_setStatus hkind haddr hset) fun stored _ => ?_
    exact inTandem_pure rfl

/-- Whatever is done with the provisioner is done by both, or the same is reported missing by both. -/
theorem withProvisioner_tandem (hkind : kind ∈ requestKinds)
    (haddr : addressOf request = .ok ⟨.text kind, .text ns, .text name⟩) (hnames : NamesByText request)
    {next : Value → Pass Directive}
    (hnext : ∀ c' provisioner, InTandem Directive.Concur c' (next provisioner) (next provisioner)) :
    InTandem Directive.Concur c (withProvisioner kind request next) (withProvisioner kind request next) := by
  unfold withProvisioner
  refine inTandem_outcome (getProvisioner_tandem haddr hnames) ?_
  rintro c' r r' (hsame | ⟨f, source, source'⟩)
  · subst hsame
    exact hnext c' _
  · cases f with
    | dependencyMissing =>
      refine inTandem_bind (recordMissing_tandem hkind haddr _) ?_
      rintro c'' _ _ rfl
      exact inTandem_pure (.failed _ source source')
    | _ => exact inTandem_throw _ source source'

/-- The job is created under the name of the request. -/
theorem createJob_tandem (haddr : addressOf request = .ok ⟨.text kind, .text ns, .text name⟩)
    (provisioner : Value) :
    InTandem Directive.Concur c (createJob kind request provisioner) (createJob kind request provisioner) := by
  unfold createJob
  refine inTandem_read fun metadata _ => ?_
  refine inTandem_read fun job hjob => ?_
  have hjobAddr := (Manifest.controllerOf_provisioningJob hjob haddr).1
  have ha : Address.Supported ⟨.text Kind.job, .text ns, .text name⟩ :=
    supported_of_kind (by decide) ns name
  refine inTandem_attempt (apt_create hjobAddr ha) (fun created _ => ?_) ?_
  · refine inTandem_tell ?_
    refine inTandem_read fun name _ => ?_
    refine inTandem_read fun spec _ => ?_
    refine inTandem_read fun image _ => ?_
    exact inTandem_note (inTandem_tell (inTandem_pure (.same _)))
  · intro f source source'
    refine inTandem_branch rfl (fun _ => ?_) fun _ => ?_
    · exact inTandem_tell (inTandem_pure (.same _))
    · exact inTandem_throw f source source'

/-- The stage of a request is set in tandem, since a request says itself where it is stored. -/
theorem advance_tandem (hkind : kind ∈ requestKinds)
    (haddr : addressOf request = .ok ⟨.text kind, .text ns, .text name⟩) (target : Stage)
    (conditions : Value) :
    InTandem Eq c (advance kind request target conditions) (advance kind request target conditions) := by
  unfold advance
  refine inTandem_read fun moved hmoved => ?_
  obtain ⟨current, changed⟩ := moved
  obtain ⟨-, -, status, fields, generation, -, -, hset⟩ := of_advanced hmoved
  refine inTandem_must (apt_setStatus hkind haddr hset) fun stored _ => ?_
  refine inTandem_tell ?_
  refine inTandem_read fun metadata _ => ?_
  exact inTandem_log

/-- Provisioning starts in tandem. -/
theorem start_tandem (hkind : kind ∈ requestKinds)
    (haddr : addressOf request = .ok ⟨.text kind, .text ns, .text name⟩) (hnames : NamesByText request) :
    InTandem Directive.Concur c (start kind request) (start kind request) := by
  unfold start
  refine withProvisioner_tandem hkind haddr hnames fun c' provisioner => ?_
  refine inTandem_read fun conditions _ => ?_
  refine inTandem_now fun now => ?_
  refine inTandem_bind (advance_tandem hkind haddr .creating _) ?_
  rintro c'' _ _ rfl
  exact createJob_tandem haddr provisioner

theorem complete_tandem (hkind : kind ∈ requestKinds)
    (haddr : addressOf request = .ok ⟨.text kind, .text ns, .text name⟩) (metadata : Value) :
    InTandem Directive.Concur c (complete kind request metadata) (complete kind request metadata) := by
  unfold complete
  refine inTandem_read fun conditions _ => ?_
  refine inTandem_recordNow fun conditions => ?_
  refine inTandem_bind (advance_tandem hkind haddr .ready _) ?_
  rintro c' _ _ rfl
  refine inTandem_note ?_
  refine inTandem_read fun name _ => ?_
  exact inTandem_tell (inTandem_pure (.same .done))

theorem fail_tandem (hkind : kind ∈ requestKinds)
    (haddr : addressOf request = .ok ⟨.text kind, .text ns, .text name⟩) (metadata job : Value) :
    InTandem Directive.Concur c (fail kind request metadata job) (fail kind request metadata job) := by
  unfold fail
  refine inTandem_read fun conditions _ => ?_
  refine inTandem_read fun name _ => ?_
  refine inTandem_read fun reason _ => ?_
  refine inTandem_recordNow fun conditions => ?_
  refine inTandem_recordNow fun conditions => ?_
  refine inTandem_bind (advance_tandem hkind haddr .failed _) ?_
  rintro c' _ _ rfl
  exact inTandem_note (inTandem_tell (inTandem_pure (.same .done)))

/-- The job is looked for under the name of the request. -/
theorem observe_tandem (hkind : kind ∈ requestKinds)
    (haddr : addressOf request = .ok ⟨.text kind, .text ns, .text name⟩) (hnames : NamesByText request) :
    InTandem Directive.Concur c (observe settings kind request) (observe settings kind request) := by
  obtain ⟨metadata, hmeta, -, hns, hname⟩ := addressOf_eq_ok.mp haddr
  unfold observe
  refine inTandem_read fun metadata' hmeta' => ?_
  obtain rfl : metadata' = metadata :=
    Except.ok.inj (hmeta'.symm.trans (Value.require_eq_ok.mpr hmeta))
  refine inTandem_read fun ns' hns' => ?_
  obtain rfl : ns' = .text ns := Except.ok.inj (hns'.symm.trans hns)
  refine inTandem_read fun name' hname' => ?_
  obtain rfl : name' = .text name :=
    Except.ok.inj (hname'.symm.trans (Value.require_eq_ok.mpr hname))
  -- the name of the job is the name of the request, which is a text
  refine inTandem_look (supported_of_kind (by decide) ns name) (fun job _ => ?_) ?_
  · refine inTandem_read fun outcome _ => ?_
    cases outcome with
    | running => exact inTandem_liftRead _ .same
    | complete => exact complete_tandem hkind haddr metadata'
    | failed => exact fail_tandem hkind haddr metadata' job
  · intro f source source'
    refine inTandem_branch rfl (fun _ => ?_) fun _ => ?_
    · -- the job is missing, and is created
      refine inTandem_note ?_
      exact withProvisioner_tandem hkind haddr hnames fun c' => createJob_tandem haddr
    · exact inTandem_throw f source source'

/-- A pass over a request goes together, whatever stage the request is in. -/
theorem converge_tandem (hkind : kind ∈ requestKinds) (horderly : c.Orderly)
    (hnames : ∀ request, c.find? ⟨.text kind, .text ns, .text name⟩ = some request → NamesByText request) :
    InTandem Directive.Concur c (converge settings kind ⟨.text ns, .text name⟩)
      (converge settings kind ⟨.text ns, .text name⟩) := by
  have hserved : ∀ kind ∈ requestKinds, kind ∈ Served.kinds.map (·.1) := by decide
  unfold converge
  refine inTandem_fetch (supported_of_kind (hserved kind hkind) ns name) fun request hfind => ?_
  -- the request is stored where it was asked for, so it can be sent back
  have haddr := horderly.consistent _ request hfind
  have hrequest := hnames request hfind
  refine inTandem_read fun metadata _ => ?_
  refine inTandem_read fun status _ => ?_
  cases Stage.ofStatus status with
  | ok stage =>
    cases stage with
    | unset => exact start_tandem hkind haddr hrequest
    | creating => exact observe_tandem hkind haddr hrequest
    | ready | failed => exact inTandem_pure (.same .done)
  | error f =>
    cases f with
    | badValue message =>
      refine inTandem_read fun stored _ => ?_
      exact inTandem_note (inTandem_pure (.same .done))
    | _ => exact inTandem_throw _ _ _

end Passes

end Provisioning

/-! ## Events -/

/-- A body that names its owner by texts, if it has one that is woken. -/
def OwnedByText (body : Value) : Prop :=
  ∀ kind id, owningResource body ownerKinds = .ok (some (kind, id)) →
    ∃ ns name : String, id = ⟨.text ns, .text name⟩

section Events

variable {c : Cluster} {body type : Value}

/-- The owner of a changed child is marked with a text. -/
theorem nudgeOwner_tandem (hpatchable : c.Patchable) (howned : OwnedByText body) :
    InTandem Eq c (nudgeOwner body ownerKinds) (nudgeOwner body ownerKinds) := by
  unfold nudgeOwner
  refine inTandem_read fun owner howner => ?_
  cases owner with
  | none => exact inTandem_pure rfl
  | some found =>
    obtain ⟨kind, id⟩ := found
    obtain ⟨ns, name, rfl⟩ := howned kind id howner
    have hserved : ∀ kind ∈ ownerKinds, ∃ k ∈ Served.kinds.map (·.1), kind = .text k := by decide
    obtain ⟨k, hk, rfl⟩ := hserved kind (mem_of_owningResource howner)
    refine inTandem_read fun marker _ => ?_
    -- a marker is a text, so the annotation can be sent
    have htexts : Texts [(childChangedKey, .text marker)] := by simp [Texts]
    have hapt := hpatchable.apt (.annotate (supported_of_kind hk ns name) htexts)
    refine inTandem_attempt hapt (fun marked _ => ?_) fun f source source' => ?_
    · exact inTandem_pure rfl
    · refine inTandem_branch rfl (fun _ => ?_) fun _ => inTandem_branch rfl (fun _ => ?_) fun _ => ?_
      · exact inTandem_tell (inTandem_pure rfl)
      · exact inTandem_tell (inTandem_pure rfl)
      · exact inTandem_throw f source source'

/-- An event about a child is reacted to in tandem. -/
theorem nudge_tandem (hpatchable : c.Patchable)
    (howned : ∀ fields, body.asObject = .ok fields → OwnedByText (.object fields)) :
    Tandem Directive.Concur c (nudge body type) (nudge body type) := by
  have hevent : InTandem Eq c (childEvent body type) (childEvent body type) := by
    unfold childEvent
    refine inTandem_branch rfl (fun _ => ?_) fun _ => ?_
    · refine inTandem_read fun fields hfields => ?_
      refine inTandem_bind (nudgeOwner_tandem hpatchable (howned fields hfields)) ?_
      rintro c' _ _ rfl
      exact inTandem_pure rfl
    · exact inTandem_pure rfl
  exact Tandem.bind hevent fun _ _ _ _ => .done (.same .done)

end Events

/-! ## All passes -/

/-- A pass of any of the handlers over a resource, or a reaction to an event about a child, that reads names as
texts: those of the resource, of the provisioner that a request names, and of the owner that is woken. -/
inductive NamingPass (settings : Settings) (c : Cluster) : SafePass Directive → Prop where
  | handler {h : Handler} (ns name : String) :
      h ∈ handlers settings →
      (h.kind ∈ requestKinds → ∀ request,
        c.find? ⟨.text h.kind, .text ns, .text name⟩ = some request → Provisioning.NamesByText request) →
      NamingPass settings c (h.reconcile settings ⟨.text ns, .text name⟩)
  | event {body : Value} (type : Value) :
      c.Patchable → (∀ fields, body.asObject = .ok fields → OwnedByText (.object fields)) →
      NamingPass settings c (nudge body type)

section Handlers

variable {settings : Settings} {c : Cluster}

/-- All passes go together over a server and over its cluster. -/
theorem NamingPass.tandem {p : SafePass Directive} (hp : NamingPass settings c p) (horderly : c.Orderly) :
    Tandem Directive.Concur c p p := by
  cases hp with
  | @handler h ns name hmem hnames =>
    have hresource : Kind.resource ∈ requestKinds := by decide
    have hjob : Kind.provisioningJob ∈ requestKinds := by decide
    refine Handler.reconcile_tandem settings ?_
    simp only [handlers, List.mem_cons, List.not_mem_nil, or_false] at hmem
    -- the five handlers: services, databases, provisioners, and the two kinds of requests
    rcases hmem with rfl | rfl | rfl | rfl | rfl
    · exact Convergence.converge_tandem settings .service horderly
    · exact Convergence.converge_tandem settings .database horderly
    · exact Labelling.converge_tandem ns name horderly
    · exact Provisioning.converge_tandem hresource horderly (hnames hresource)
    · exact Provisioning.converge_tandem hjob horderly (hnames hjob)
  | event type hpatchable howned => exact nudge_tandem hpatchable howned

/-- A cluster that answers every call is orderly to the end. -/
theorem Cluster.Orderly.leads {α : Type} {p q : SafePass α} {c c' : Cluster} (h : c.Orderly)
    (hrun : Program.Leads (facing reliable) p c q c') : c'.Orderly := by
  induction hrun with
  | here => exact h
  | @next t u op rest answer hrun hanswer ih =>
    -- only a call to the store changes the cluster
    cases op with
    | store call =>
      obtain ⟨-, rfl⟩ := hanswer
      exact ih.perform call
    | random op =>
      obtain rfl : u = t := hanswer.2
      exact ih
    | instant | seconds | trace =>
      obtain rfl : u = t := hanswer
      exact ih

end Handlers

namespace ApiStore

/-- The store over any server in front of a cluster, which may also reject calls so many times in a row, is
the store that the cluster is.

* Calls one after the other come to an end. Whatever is rejected meanwhile, they get what the cluster reports,
  with the same fault where it reports one, and they leave the cluster behind that the calls leave. They are
  counted and timed as the ledger of the cluster says; beside that there are only waits, and attempts that are
  counted as throttled, as many as there may be.
* A pass of any handler, and a reaction to any event about a child, comes to the same directives and leaves the
  same cluster behind, with the same writes, in the runs over the server as in those over the cluster. A failure
  may have been made from another one, and nothing else differs.

Calls are about objects of the supported kinds, by their own names, and annotations are texts. The client has
its methods, and what it makes of a refusal quotes the reason and the body. -/
theorem store_refines_cluster {methods : Methods} (hcomplete : methods.Complete) {wording : Wording}
    (hquotes : Quotes wording) {settings : Settings} (hrate : settings.callRate ≠ 0) {retries : Nat} {σ : Type}
    {server : Server σ} {cluster : σ → Cluster} {rejected : σ → Nat}
    (hfronts : Fronts wording retries server cluster rejected) (s : Backstage σ) (l : Limiter)
    (horderly : (cluster s.server).Orderly) :
    (∀ calls : List StoreCall, (cluster s.server).Patchable →
      (∀ call ∈ calls, call.Sensible ∧ call.Patchable) →
      (∃ replies l' s', Program.Leads (backed server) ((performAll methods settings retries calls).run l) s
        (.done (replies, l')) s') ∧
      ∀ replies l' s', Program.Leads (backed server) ((performAll methods settings retries calls).run l) s
          (.done (replies, l')) s' →
        List.Forall₂ (Concur Eq) replies ((cluster s.server).reports calls) ∧
        cluster s'.server = (cluster s.server).after calls ∧
        ∃ asked, s'.log = s.log ++ asked ∧ Logged retries (cluster s.server) calls asked ∧
          (labels asked).filter (fun count => count.2 ≠ "throttled") = ledger (cluster s.server) calls ∧
          timed asked = (ledger (cluster s.server) calls).map (·.1)) ∧
    ∀ p, NamingPass settings (cluster s.server) p →
      Program.Matched (facing (through methods settings retries server)) (facing reliable)
          (fun s => cluster s.1.server) Directive.Concur p p (s, l) ∧
        ∀ d c', Program.Leads (facing reliable) p (cluster s.server) (.done d) c' → c'.Orderly := by
  constructor
  · intro calls hpatchable hcalls
    constructor
    · -- the server always has an answer that its front permits, so some run gets to the end
      obtain ⟨⟨replies, l'⟩, s', hrun⟩ := Program.exists_leads_done (exists_backed hfronts.answers)
        ((performAll methods settings retries calls).run l) s
      exact ⟨replies, l', s', hrun⟩
    · intro replies l' s' hrun
      obtain ⟨hreplies, hafter, asked, hlog, hlogged⟩ :=
        (performAll_over_server hcomplete hquotes hrate hfronts hcalls l horderly hpatchable).of_leads hrun
      exact ⟨hreplies, hafter, asked, hlog, hlogged, hlogged.counts⟩
  · intro p hp
    constructor
    · exact (hp.tandem horderly).matched hcomplete hquotes hrate hfronts horderly
    · intro d c' hrun
      exact horderly.leads hrun

/-! ### A server that rejects everything twice -/

/-- The texts that the simulated client gives a refusal: with headers, or without. -/
def clientWording : Wording := fun status reason body text =>
  ∃ headers, text = refusalText status reason headers body

/-- The simulated client quotes the reason and the body, with headers between them or without. -/
theorem quotes_clientWording : Quotes clientWording := by
  constructor
  · rintro status reason body text ⟨headers, rfl⟩
    refine ⟨"(" ++ status.shown ++ ")\nReason: ", "\n" ++
      (headers.map fun shown => s!"HTTP response headers: {shown}\n").getD "" ++
      (if body.truthy then s!"HTTP response body: {body.shown}\n" else ""), ?_⟩
    simp only [refusalText, String.append_assoc]
    rfl
  · rintro status reason body text hgiven ⟨headers, rfl⟩
    refine ⟨"(" ++ status.shown ++ ")\nReason: " ++ reason.shown ++ "\n" ++
      (headers.map fun shown => s!"HTTP response headers: {shown}\n").getD "" ++ "HTTP response body: ",
      "\n", ?_⟩
    have hshown : (Value.text body).truthy = true := by simp [Value.truthy, hgiven]
    simp only [refusalText, hshown, if_true, String.append_assoc]
    rfl

/-- The client of the sample has all its methods. -/
theorem complete_clientMethods : clientMethods.Complete := by
  constructor
  -- the same for each of the five methods, kind by kind
  all_goals
    intro kind api resource hkind
    simp only [Served.builtinKinds, List.mem_cons, List.not_mem_nil, or_false, Prod.mk.injEq,
      Served.builtin.injEq] at hkind
    rcases hkind with ⟨rfl, rfl, rfl⟩ | ⟨rfl, rfl, rfl⟩ | ⟨rfl, rfl, rfl⟩ | ⟨rfl, rfl, rfl⟩ | ⟨rfl, rfl, rfl⟩
    all_goals decide +kernel

def busy : Value := .text "Rate limit exceeded"

/-- A server that rejects every call twice before it looks at it: there are too many, and then it is busy. -/
def reluctant : Server (Cluster × Nat) := fun s call outcome s' =>
  match s.2 with
  | 0 => (∃ text, outcome = .refused (.integer 429) .null .null text) ∧ s' = (s.1, 1)
  | 1 => outcome = .refused (.integer 503) busy .null (refusalText (.integer 503) busy (some "{}") .null) ∧
      s' = (s.1, 2)
  | _ => LookedAt s.1 call outcome s'.1 ∧ s'.2 = 0

/-- After its two rejections this server looks at the call, so three attempts are enough. -/
theorem fronts_reluctant : Fronts clientWording 2 reluctant Prod.fst Prod.snd := by
  constructor
  · rintro ⟨c, n⟩ call
    match n with
    | 0 => exact ⟨.refused (.integer 429) .null .null "", (c, 1), ⟨"", rfl⟩, rfl⟩
    | 1 => exact ⟨_, (c, 2), rfl, rfl⟩
    | n + 2 =>
      cases hserve : ApiServer.serve c call with
      | ok done =>
        obtain ⟨v, c'⟩ := done
        exact ⟨.object v, (c', 0), .carriedOut hserve, rfl⟩
      | error code =>
        have hstatus : (Value.integer code).same (.integer code) = true := same_integer_iff.mpr rfl
        exact ⟨.refused (.integer code) .null .null "", (c, 0), .refused "" hserve hstatus, rfl⟩
  · rintro ⟨c, n⟩ call outcome s' h
    match n with
    | 0 =>
      obtain ⟨⟨text, rfl⟩, rfl⟩ := h
      have hstatus : (Value.integer 429).same (.integer 429) = true := by decide
      exact .inl ⟨.tooMany text hstatus, Nat.zero_lt_two, rfl, rfl⟩
    | 1 =>
      obtain ⟨rfl, rfl⟩ := h
      have hstatus : (Value.integer 503).same (.integer 503) = true := by decide
      have hmentions : Mentions busy := ⟨_, rfl, by decide +kernel⟩
      exact .inl ⟨.unavailable hstatus (.inl hmentions) ⟨some "{}", rfl⟩, Nat.one_lt_two, rfl, rfl⟩
    | n + 2 => exact .inr h

/-- A read of the provisioner, a read of a Secret that does not exist, and a mark for the request. -/
def sampleCalls : List StoreCall := [
  .get (.text Kind.provisioner) (.text "default") (.text "postgres"),
  .get (.text Kind.secret) (.text "default") (.text "db"),
  .annotate (.text Kind.resource) (.text "default") (.text "db") (.object [("team", .text "storage")])]

/-- The calls of the sample can be made. -/
theorem sampleCalls_sensible : ∀ call ∈ sampleCalls, call.Sensible ∧ call.Patchable := by
  have htexts : Texts [("team", .text "storage")] := by simp [Texts]
  simp only [sampleCalls, List.forall_mem_cons, List.not_mem_nil, false_imp_iff, implies_true, and_true]
  refine ⟨⟨.get ?_, trivial⟩, ⟨.get ?_, trivial⟩, .annotate ?_ htexts, trivial⟩
  · exact supported_of_kind (by decide) "default" "postgres"
  · exact supported_of_kind (by decide) "default" "db"
  · exact supported_of_kind (by decide) "default" "db"

open Provisioning (sampleCluster sampleId) in
/-- Over this server the calls are counted, once each, beside the rejections, and a pass over the request stores
its stage and creates its job. -/
theorem reluctance_makes_no_difference :
    let start : Backstage (Cluster × Nat) := ⟨(sampleCluster Kind.resource, 0), []⟩
    let pass := (Provisioning.handler {} Kind.resource).reconcile {} sampleId
    (∃ replies l' s', Program.Leads (backed reluctant)
        ((performAll clientMethods {} 2 sampleCalls).run .fresh) start (.done (replies, l')) s' ∧
      (labels s'.log).filter (fun count => count.2 ≠ "throttled") =
        [("get_starlaneprovisioner", "success"), ("get_secret", "not_found"),
          ("annotate_starlaneresource", "success")]) ∧
    ∃ s' l', Program.Leads (facing (through clientMethods {} 2 reluctant)) pass (start, .fresh)
        (.done .requeueNow) (s', l') ∧
      s'.server.1.journal =
        [⟨"update_status", ⟨.text Kind.resource, .text "default", .text "db"⟩⟩,
          ⟨"create", ⟨.text Kind.job, .text "default", .text "db"⟩⟩] := by
  intro start pass
  -- the objects of the sample are stored where they say they are, with versions, and without annotations
  have hobjects : ∀ entry ∈ (sampleCluster Kind.resource).objects,
      Cluster.addressOf entry.2 = .ok entry.1 ∧ (versionOf entry.2).isSome ∧
        entry.2.part? ["metadata", "annotations"] = none := by
    decide +kernel
  have horderly : (sampleCluster Kind.resource).Orderly := by
    constructor
    · exact Provisioning.consistent_of_objects fun entry hentry => (hobjects entry hentry).1
    · intro a object hfind
      exact Option.isSome_iff_exists.mp (hobjects _ (mem_objects_of_find? hfind)).2.1
  have hpatchable : (sampleCluster Kind.resource).Patchable := by
    intro a object hfind
    exact .inl (hobjects _ (mem_objects_of_find? hfind)).2.2
  have hrate : ({} : Settings).callRate ≠ 0 := by decide
  obtain ⟨hcalls, hpasses⟩ := store_refines_cluster complete_clientMethods quotes_clientWording hrate fronts_reluctant
    start .fresh horderly
  constructor
  · obtain ⟨⟨replies, l', s', hrun⟩, hall⟩ := hcalls sampleCalls hpatchable sampleCalls_sensible
    obtain ⟨-, -, asked, hlog, -, hlabels, -⟩ := hall replies l' s' hrun
    refine ⟨replies, l', s', hrun, ?_⟩
    rw [hlog, List.nil_append, hlabels]
    decide +kernel
  · have hmem : Provisioning.handler {} Kind.resource ∈ handlers {} := by simp [handlers]
    have hprovisioner : ((sampleCluster Kind.resource).find? ⟨.text Kind.resource, .text "default", .text "db"⟩).bind
        (fun request => (Provisioning.provisionerAt request).toOption) =
        some ⟨.text Kind.provisioner, .text "default", .text "postgres"⟩ := by
      decide +kernel
    -- the sample request names its provisioner by a text
    have hnames : ∀ request, (sampleCluster Kind.resource).find? ⟨.text Kind.resource, .text "default", .text "db"⟩ =
        some request → Provisioning.NamesByText request := by
      intro request hfind a ha _
      rw [hfind, Option.bind_some, ha] at hprovisioner
      exact ⟨"postgres", congrArg Address.name (Option.some.inj hprovisioner)⟩
    obtain ⟨⟨-, hback⟩, -⟩ := hpasses pass (.handler "default" "db" hmem fun _ => hnames)
    -- the run over the cluster can be computed
    have hdirective : (pass.run reliably (sampleCluster Kind.resource)).1 = .requeueNow := by decide +kernel
    obtain ⟨d, ⟨s', l'⟩, hconcur, hcluster, hrun⟩ := hback _ _
      (Program.leads_run facing_reliably pass (sampleCluster Kind.resource))
    rw [hdirective] at hconcur
    obtain rfl : d = .requeueNow := by
      cases hconcur
      rfl
    refine ⟨s', l', hrun, ?_⟩
    rw [hcluster]
    decide +kernel

end ApiStore

end Reconciler
