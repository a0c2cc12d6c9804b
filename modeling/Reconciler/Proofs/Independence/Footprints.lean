import Reconciler.Proofs.Convergence.Sharing
import Reconciler.Proofs.Ownership.Effects
import Reconciler.Proofs.Independence.Looking

/-! # Where passes call

When every object is stored under its own address, a pass over a resource writes to the resource itself, to its
children and to its job, and it fetches from there and from the provisioner that a request names. All other
addresses are none of its business.

Main definitions and statements:

* `writable`, `reachable`: these addresses, by the kind of a resource and its name;
* `calls_of_ensures`: what is shown of the calls of a pass holds of its courses;
* `Provisioning.converge_within`, `Labelling.converge_within`: a pass over a request or a provisioner calls at
  these addresses only;
* `calls_within`: so do the passes of all handlers.
-/

namespace Reconciler

open Cluster
open Provisioning (Consistent requestAt jobAt provisionerAt)

/-! ## Addresses of a resource -/

/-- The family of a kind, if its resources own children. -/
def familyOf (kind : String) : Option Family :=
  [Family.service, .database].find? (·.kind = kind)

def childrenOf (kind : String) (id : Identity) : List Address :=
  match familyOf kind, id.name with
  | some family, .text name => family.addresses id.ns name
  | _, _ => []

/-- Where a pass over a resource may write: to the resource, its children, and the job of a request. -/
def writable (kind : String) (id : Identity) : List Address :=
  requestAt kind id :: childrenOf kind id ++
    if kind ∈ requestKinds then [⟨.text Kind.job, id.ns, id.name⟩] else []

def namedProvisioner (c : Cluster) (kind : String) (id : Identity) : Option Address := do
  (provisionerAt (← c.find? (requestAt kind id))).toOption

/-- Where a pass over a resource may call: where it may write, and to fetch the provisioner of a request. -/
def reachable (c : Cluster) (kind : String) (id : Identity) : List Address :=
  writable kind id ++ if kind ∈ requestKinds then (namedProvisioner c kind id).toList else []

/-- A call about an address of some, and one that writes about an address of others. -/
def Within (calls writes : List Address) (call : StoreCall) : Prop :=
  ∃ a ∈ calls, call.addressed = .ok a ∧ (call.writes = true → a ∈ writes)

/-- Calls are clear of others when what may be written is not where the others may call. -/
theorem clear_of_within {calls others : List StoreCall} {reach writes reach' writes' : List Address}
    (hcalls : ∀ call ∈ calls, Within reach writes call)
    (hothers : ∀ call ∈ others, Within reach' writes' call) (happart : ∀ a ∈ writes, a ∉ reach') :
    Clear calls others := by
  intro call hcall hwrites a haddr other hother hsame
  obtain ⟨b, -, hb, hwritten⟩ := hcalls call hcall
  obtain ⟨d, hd, hreached, -⟩ := hothers other hother
  obtain rfl : a = b := Except.ok.inj (haddr.symm.trans hb)
  obtain rfl : a = d := Except.ok.inj (hsame.symm.trans hreached)
  exact happart a (hwritten hwrites) hd

/-! ## Calls in a course -/

/-- What is shown of the calls of a pass holds in its courses, when each step of a cluster is one of the
environment it is shown for. -/
theorem calls_of_ensures {σ α : Type} {answers : Answering σ} {rel : Cluster → σ → Prop}
    (hstep : ∀ c s call, rel c s →
      ∃ s', answers s call (c.reported call) s' ∧ rel (c.perform call).2 s')
    {circumstances : Circumstances} (hfree : circumstances.FaultFree) {source : Source}
    (hlawful : source.Lawful) {may : StoreCall → Prop} {post : σ → α → Prop} {p : SafePass α} {s : σ}
    (hp : SafePass.Ensures answers (fun _ => may) post p s) {c : Cluster} (hrel : rel c s) (n : Nat) :
    ∀ call ∈ (p.course (circumstances.facing source) ⟨c, n⟩).calls, may call := by
  induction p generalizing c s n with
  | done a => simp [SafePass.course, Course.calls]
  | ask op next ih =>
    obtain ⟨hmay, hnext⟩ := hp
    -- only a call to the store changes the cluster; what else is asked leaves the relation as it is
    cases op with
    | store call =>
      obtain ⟨s', hanswer, hrel'⟩ := hstep c s call hrel
      simp only [SafePass.course, exchange_store hfree (Prod.eta (c.perform call)).symm]
      intro other hother
      rcases List.mem_cons.mp hother with rfl | hother
      · exact hmay
      · exact ih _ (hnext _ s' hanswer) hrel' (n + 1) other hother
    | instant => exact ih _ (hnext (circumstances.instant n) s rfl) hrel (n + 1)
    | seconds => exact ih _ (hnext (circumstances.seconds n) s rfl) hrel (n + 1)
    | random op => exact ih _ (hnext (source n op) s ⟨hlawful n op, rfl⟩) hrel (n + 1)
    | trace t => exact ih _ (hnext () s rfl) hrel (n + 1)

/-! ## Requests -/

namespace Provisioning

/-- A call about a request or its job, or one that fetches its provisioner. -/
def AboutRequest (request : Value) (call : StoreCall) : Prop :=
  ∃ a, call.addressed = .ok a ∧
    (addressOf request = .ok a ∨ jobAt request = .ok a ∨
      call.writes = false ∧ provisionerAt request = .ok a)

section Requests

variable {σ : Type} {answers : Answering σ} {settings : Settings} {kind : String} {request : Value}
variable {a : Address} {s : σ}

/-- What is asked of a pass: that all its calls are about a request. -/
abbrev AsksAbout {α : Type} (answers : Answering σ) (request : Value) (p : Pass α) (s : σ) : Prop :=
  Pass.Ensures answers (fun _ => AboutRequest request) (fun _ _ => True) p s

/-- The status of a request is written to the request. -/
theorem aboutRequest_setStatus {status o : Value} (haddr : addressOf request = .ok a)
    (hset : request.setField "status" status = .ok o) : AboutRequest request (.updateStatus o) := by
  refine ⟨a, ?_, .inl haddr⟩
  rw [StoreCall.addressed, addressOf_setField hset (by decide) (by decide), haddr]

/-- Looking for the provisioner of a request is about the request. -/
theorem getProvisioner_about : AsksAbout answers request (getProvisioner request) s := by
  unfold getProvisioner
  refine Pass.ensures_read (fun metadata hmeta => ?_) fun _ _ => trivial
  refine Pass.ensures_read (fun ns hns => ?_) fun _ _ => trivial
  refine Pass.ensures_read (fun spec hspec => ?_) fun _ _ => trivial
  refine Pass.ensures_read (fun name hname => ?_) fun _ _ => trivial
  have haddr : provisionerAt request = .ok ⟨.text Kind.provisioner, ns, name⟩ := by
    simp only [provisionerAt, hmeta, hns, hspec, hname, bind, Except.bind, pure, Except.pure]
  split
  · refine Pass.ensures_attempt ⟨_, rfl, .inr (.inr ⟨rfl, haddr⟩)⟩ ?_
    -- it is fetched, and nothing else is called
    rintro (f | provisioner) s' -
    · dsimp only
      split <;> trivial
    · trivial
  · trivial

/-- Recording that a provisioner is missing writes to the request only. -/
theorem recordMissing_about {name : Value} (haddr : addressOf request = .ok a) :
    AsksAbout answers request (recordMissing kind request name) s := by
  unfold recordMissing
  refine Pass.ensures_read (fun conditions _ => ?_) fun _ _ => trivial
  refine Pass.ensures_read (fun metadata _ => ?_) fun _ _ => trivial
  refine Pass.ensures_note ?_ fun _ _ => trivial
  split
  · trivial
  · refine ensures_recordNow fun now => ?_
    refine Pass.ensures_read (fun changed hchanged => ?_) fun _ _ => trivial
    obtain ⟨_, -, hset⟩ := bind_eq_ok.mp hchanged
    obtain ⟨_, -, hset⟩ := bind_eq_ok.mp hset
    exact Pass.ensures_must (aboutRequest_setStatus haddr hset) (fun _ _ _ => trivial) fun _ _ _ => trivial

theorem withProvisioner_about {next : Value → Pass Directive} (haddr : addressOf request = .ok a)
    (hnext : ∀ provisioner s, AsksAbout answers request (next provisioner) s) :
    AsksAbout answers request (withProvisioner kind request next) s := by
  unfold withProvisioner
  rw [AsksAbout, Pass.ensures_bind, Pass.ensures_outcome]
  refine getProvisioner_about.mono (fun _ _ h => h) ?_
  rintro s' (f | provisioner) -
  · simp only [Pass.andThen]
    split
    · rw [Pass.ensures_bind]
      refine (recordMissing_about haddr).mono (fun _ _ h => h) ?_
      rintro s'' (f | u) - <;> trivial
    · trivial
  · exact hnext provisioner s'

/-- Creating the job of a request is about the request. -/
theorem createJob_about {provisioner : Value} (haddr : addressOf request = .ok a) :
    AsksAbout answers request (createJob kind request provisioner) s := by
  unfold createJob
  refine Pass.ensures_read (fun metadata _ => ?_) fun _ _ => trivial
  refine Pass.ensures_read (fun job hjob => ?_) fun _ _ => trivial
  -- the job goes where the request looks for it
  have hjobAddr := (Manifest.controllerOf_provisioningJob hjob haddr).1
  refine Pass.ensures_attempt ⟨_, hjobAddr, .inr (.inl (jobAt_of_addressOf haddr))⟩ ?_
  rintro (f | created) s' -
  · dsimp only
    split
    · exact Pass.ensures_tell trivial
    · trivial
  · refine Pass.ensures_tell ?_
    refine Pass.ensures_read (fun name _ => ?_) fun _ _ => trivial
    refine Pass.ensures_read (fun spec _ => ?_) fun _ _ => trivial
    refine Pass.ensures_read (fun image _ => ?_) fun _ _ => trivial
    refine Pass.ensures_note ?_ fun _ _ => trivial
    exact Pass.ensures_tell trivial

/-- Advancing a request writes to the request, and goes on as what comes next does. -/
theorem advance_about {target : Stage} {conditions : Value} {k : Unit → Pass Directive}
    (haddr : addressOf request = .ok a) (hnext : ∀ s, AsksAbout answers request (k ()) s) :
    AsksAbout answers request (advance kind request target conditions >>= k) s := by
  rw [AsksAbout, Pass.ensures_bind]
  unfold advance
  refine Pass.ensures_read (fun moved hmoved => ?_) fun _ _ => trivial
  obtain ⟨current, changed⟩ := moved
  obtain ⟨-, -, _, _, _, -, -, hset⟩ := of_advanced hmoved
  refine Pass.ensures_must (aboutRequest_setStatus haddr hset) (fun _ s' _ => ?_) fun _ _ _ => trivial
  refine Pass.ensures_tell ?_
  refine Pass.ensures_read (fun metadata _ => ?_) fun _ _ => trivial
  rw [Pass.ensures_log]
  cases loggedIdentity metadata with
  | ok _ => exact hnext s'
  | error f => trivial

theorem start_about (haddr : addressOf request = .ok a) :
    AsksAbout answers request (start kind request) s := by
  unfold start
  refine withProvisioner_about haddr fun provisioner s' => ?_
  refine Pass.ensures_read (fun conditions _ => ?_) fun _ _ => trivial
  refine Pass.ensures_now fun now => ?_
  exact advance_about haddr fun _ => createJob_about haddr

theorem complete_about {metadata : Value} (haddr : addressOf request = .ok a) :
    AsksAbout answers request (complete kind request metadata) s := by
  unfold complete
  refine Pass.ensures_read (fun conditions _ => ?_) fun _ _ => trivial
  refine ensures_recordNow fun now => ?_
  refine advance_about haddr fun s' => ?_
  refine Pass.ensures_note ?_ fun _ _ => trivial
  refine Pass.ensures_read (fun name _ => ?_) fun _ _ => trivial
  exact Pass.ensures_tell trivial

theorem fail_about {metadata job : Value} (haddr : addressOf request = .ok a) :
    AsksAbout answers request (fail kind request metadata job) s := by
  unfold fail
  refine Pass.ensures_read (fun conditions _ => ?_) fun _ _ => trivial
  refine Pass.ensures_read (fun name _ => ?_) fun _ _ => trivial
  refine Pass.ensures_read (fun reason _ => ?_) fun _ _ => trivial
  refine ensures_recordNow fun now => ?_
  refine ensures_recordNow fun now' => ?_
  refine advance_about haddr fun s' => ?_
  refine Pass.ensures_note ?_ fun _ _ => trivial
  exact Pass.ensures_tell trivial

/-- Looking at the job of a request is about the request, whatever becomes of the job. -/
theorem observe_about (haddr : addressOf request = .ok a) :
    AsksAbout answers request (observe settings kind request) s := by
  unfold observe
  refine Pass.ensures_read (fun metadata hmeta => ?_) fun _ _ => trivial
  refine Pass.ensures_read (fun ns hns => ?_) fun _ _ => trivial
  refine Pass.ensures_read (fun name hname => ?_) fun _ _ => trivial
  have hjobAt : jobAt request = .ok ⟨.text Kind.job, ns, name⟩ := by
    simp only [jobAt, hmeta, hns, hname, bind, Except.bind, pure, Except.pure]
  refine Pass.ensures_attempt ⟨_, rfl, .inr (.inl hjobAt)⟩ ?_
  rintro (f | job) s' -
  · dsimp only
    split
    · refine Pass.ensures_note ?_ fun _ _ => trivial
      exact withProvisioner_about haddr fun _ _ => createJob_about haddr
    · trivial
  · refine Pass.ensures_read (fun outcome _ => ?_) fun _ _ => trivial
    -- running, complete or failed, only the request itself is written to
    cases outcome with
    | running => exact (Pass.ensures_liftRead _ _).mpr trivial
    | complete => exact complete_about haddr
    | failed => exact fail_about haddr

end Requests

/-- What is about a stored request is within its addresses. -/
theorem AboutRequest.within {c : Cluster} {kind : String} {id : Identity} {request : Value} {call : StoreCall}
    (hkind : kind ∈ requestKinds) (hfind : c.find? (requestAt kind id) = some request)
    (haddr : addressOf request = .ok (requestAt kind id)) (h : AboutRequest request call) :
    Within (reachable c kind id) (writable kind id) call := by
  -- a call about the request itself, about its job, or a fetch of its provisioner
  obtain ⟨a, hcall, hown | hjob | ⟨hreads, hprovisioner⟩⟩ := h
  · obtain rfl : requestAt kind id = a := Except.ok.inj (haddr.symm.trans hown)
    have hmem : requestAt kind id ∈ writable kind id := List.mem_cons_self
    exact ⟨_, List.mem_append_left _ hmem, hcall, fun _ => hmem⟩
  · obtain rfl : ⟨.text Kind.job, id.ns, id.name⟩ = a :=
      Except.ok.inj ((jobAt_of_addressOf haddr).symm.trans hjob)
    have hmem : (⟨.text Kind.job, id.ns, id.name⟩ : Address) ∈ writable kind id := by
      simp [writable, hkind]
    exact ⟨_, List.mem_append_left _ hmem, hcall, fun _ => hmem⟩
  · have hnamed : namedProvisioner c kind id = some a := by
      simp [namedProvisioner, hfind, hprovisioner, Except.toOption]
    refine ⟨a, List.mem_append_right _ ?_, hcall, fun hwrites => ?_⟩
    · simp [hkind, hnamed]
    · rw [hreads] at hwrites
      cases hwrites

/-- The calls of a pass over a request are within its addresses, in a cluster where everything is under its
own address. -/
theorem converge_within {c : Cluster} (hc : Consistent c) {kind : String} (hkind : kind ∈ requestKinds)
    (settings : Settings) (id : Identity) :
    Pass.Ensures reliable (fun _ => Within (reachable c kind id) (writable kind id)) (fun _ _ => True)
      (converge settings kind id) c := by
  have hown : Within (reachable c kind id) (writable kind id) (.get (.text kind) id.ns id.name) :=
    ⟨requestAt kind id, List.mem_append_left _ List.mem_cons_self, rfl, nofun⟩
  unfold converge
  refine Pass.ensures_must hown ?_ fun _ _ _ => trivial
  rintro request s ⟨hreply, -⟩
  -- what the store answered first is the stored request, so its provisioner is the one it names
  have hfind : c.find? (requestAt kind id) = some request := find?_of_get (reported_eq_ok.mp hreply.symm)
  have haddr := hc _ request hfind
  have hwithin : ∀ {p : Pass Directive}, AsksAbout reliable request p s →
      Pass.Ensures reliable (fun _ => Within (reachable c kind id) (writable kind id)) (fun _ _ => True) p s :=
    fun hp => hp.mono (fun _ _ habout => habout.within hkind hfind haddr) fun _ _ h => h
  refine Pass.ensures_read (fun metadata _ => ?_) fun _ _ => trivial
  refine Pass.ensures_read (fun status _ => ?_) fun _ _ => trivial
  split
  · exact hwithin (start_about haddr)
  · exact hwithin (observe_about haddr)
  · trivial
  · trivial
  · refine Pass.ensures_read (fun stored _ => ?_) fun _ _ => trivial
    exact Pass.ensures_note trivial fun _ _ => trivial
  · trivial

end Provisioning

/-! ## Provisioners -/

/-- A provisioner is fetched and labelled, and nothing else is called about. -/
theorem Labelling.converge_within {c : Cluster} (hc : Consistent c) (id : Identity) :
    Pass.Ensures reliable (fun _ => Within (reachable c Kind.provisioner id) (writable Kind.provisioner id))
      (fun _ _ => True) (converge id) c := by
  have hmem : requestAt Kind.provisioner id ∈ writable Kind.provisioner id := List.mem_cons_self
  unfold converge
  refine Pass.ensures_must ⟨_, List.mem_append_left _ hmem, rfl, nofun⟩ ?_ fun _ _ _ => trivial
  rintro stored s ⟨hreply, -⟩
  have haddr := hc _ stored (find?_of_get (reported_eq_ok.mp hreply.symm))
  refine Pass.ensures_read (fun provisioner hfilled => ?_) fun _ _ => trivial
  refine Pass.ensures_read (fun metadata hmeta => ?_) fun _ _ => trivial
  refine Pass.ensures_read (fun labels _ => ?_) fun _ _ => trivial
  refine Pass.ensures_read (fun labelled _ => ?_) fun _ _ => trivial
  split
  · trivial
  · refine Pass.ensures_read (fun spec _ => ?_) fun _ _ => trivial
    refine Pass.ensures_read (fun descriptor _ => ?_) fun _ _ => trivial
    split
    · refine Pass.ensures_note ?_ fun _ _ => trivial
      exact Pass.ensures_tell trivial
    · trivial
    · refine Pass.ensures_read (fun labeled hlabeled => ?_) fun _ _ => trivial
      -- labels do not move an object
      have hlabeledAddr : addressOf labeled = .ok (requestAt Kind.provisioner id) :=
        (sameBut_withLabels hfilled hmeta hlabeled).addressOf (by decide) haddr
      refine Pass.ensures_must ⟨_, List.mem_append_left _ hmem, hlabeledAddr, fun _ => hmem⟩
        (fun _ _ _ => ?_) fun _ _ _ => trivial
      refine Pass.ensures_note ?_ fun _ _ => trivial
      exact Pass.ensures_tell trivial

/-! ## All resources -/

/-- What is about a parent or its children is within its addresses. -/
theorem Convergence.Own.within {family : Family} {ns : Value} {name : String} {call : StoreCall}
    (h : Own family ns name call) (c : Cluster) :
    Within (reachable c family.kind ⟨ns, .text name⟩) (writable family.kind ⟨ns, .text name⟩) call := by
  obtain ⟨a, hcall, hown⟩ := h
  have hfamily : familyOf family.kind = some family := by cases family <;> rfl
  have hmem : a ∈ writable family.kind ⟨ns, .text name⟩ := by
    rcases hown with rfl | hchild
    · exact List.mem_cons_self
    · refine List.mem_cons_of_mem _ (List.mem_append_left _ ?_)
      simpa only [childrenOf, hfamily] using hchild
  exact ⟨a, List.mem_append_left _ hmem, hcall, fun _ => hmem⟩

section Handlers

variable {settings : Settings} {circumstances : Circumstances} {source : Source} {c : Cluster}

/-- A pass over a parent calls about the parent and its children, when every object is stored under its own
address. -/
theorem family_calls_within (family : Family) (settings : Settings) {id : Identity}
    (hname : ∃ name, id.name = .text name) (hfree : circumstances.FaultFree) (hlawful : source.Lawful)
    (hc : Consistent c) :
    ∀ call ∈ (((family.handler settings).reconcile settings id).course
      (circumstances.facing source) ⟨c, 0⟩).calls,
      Within (reachable c family.kind id) (writable family.kind id) call := by
  obtain ⟨ns, _⟩ := id
  obtain ⟨name, rfl⟩ := hname
  have hpass := Convergence.reconcile_own settings settings family ns name
  -- what is fetched is placed, and stays so, since no write puts an object anywhere else
  have hstep : ∀ (d : Cluster) (h : History) (call : StoreCall), Consistent d →
      ∃ h', Convergence.placed h call (d.reported call) h' ∧ Consistent (d.perform call).2 := by
    intro d h call hd
    refine ⟨_, ⟨rfl, ?_⟩, (renews_perform d call).consistent hd⟩
    rintro kind ns name object rfl hreply
    exact hd _ object (find?_of_get (reported_eq_ok.mp hreply))
  intro call hcall
  exact (calls_of_ensures hstep hfree hlawful hpass hc 0 call hcall).within c

/-- The calls of a pass are within the addresses of its resource, when every object is stored under its own
address. -/
theorem calls_within {h : Handler} (hh : h ∈ handlers settings) {id : Identity}
    (hname : ∃ name, id.name = .text name) (hfree : circumstances.FaultFree) (hlawful : source.Lawful)
    (hc : Consistent c) :
    ∀ call ∈ ((h.reconcile settings id).course (circumstances.facing source) ⟨c, 0⟩).calls,
      Within (reachable c h.kind id) (writable h.kind id) call := by
  have hstep : ∀ (d s : Cluster) (call : StoreCall), d = s →
      ∃ s', reliable s call (d.reported call) s' ∧ (d.perform call).2 = s' := by
    rintro d _ call rfl
    exact ⟨_, ⟨rfl, rfl⟩, rfl⟩
  -- in circumstances without faults, a pass has the courses it has before a reliable store
  have hreliable : ∀ h : Handler, Pass.Ensures reliable
      (fun _ => Within (reachable c h.kind id) (writable h.kind id)) (fun _ _ => True) (h.converge id) c →
      ∀ call ∈ ((h.reconcile settings id).course (circumstances.facing source) ⟨c, 0⟩).calls,
        Within (reachable c h.kind id) (writable h.kind id) call := by
    intro h hp
    have hrun : SafePass.Ensures reliable (fun _ => Within (reachable c h.kind id) (writable h.kind id))
        (fun _ _ => True) (h.reconcile settings id) c :=
      (Handler.reconcile_ensures settings h id c).mpr hp
    exact calls_of_ensures hstep hfree hlawful hrun rfl 0
  have hresource : Kind.resource ∈ requestKinds := by decide
  have hjob : Kind.provisioningJob ∈ requestKinds := by decide
  simp only [handlers, List.mem_cons, List.not_mem_nil, or_false] at hh
  rcases hh with rfl | rfl | rfl | rfl | rfl
  · exact family_calls_within .service settings hname hfree hlawful hc
  · exact family_calls_within .database settings hname hfree hlawful hc
  · exact hreliable _ (Labelling.converge_within hc id)
  · exact hreliable _ (Provisioning.converge_within hc hresource settings id)
  · exact hreliable _ (Provisioning.converge_within hc hjob settings id)

end Handlers

end Reconciler
