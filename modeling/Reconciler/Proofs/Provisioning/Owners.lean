import Reconciler.Proofs.Manifest
import Reconciler.Proofs.Provisioning.Stages

/-! # Whose job finishes a request

A request finds its job by name alone, and a job of that name that exists already is taken for its own.
So the job that a request is finished by may have been made for another one: a request of the other kind
with the same name, or one that was deleted and had the name before.

Main statements:

* `finished_by_job_of_namesake`: that is all that can happen. Whenever a pass is about to store `Ready` or
  `Failed`, the job it read is controlled by a request that was stored under that namespace and name at
  some moment; and so by this very request when there was no other;
* `not_finishedByOwnJob`: it does happen.
-/

namespace Reconciler

/-- The object whose status a pass is about to store. -/
def Running.storing? : Running → Option Value
  | ⟨_, .ask (.store (.updateStatus o)) _⟩ => some o
  | _ => none

/-- What a pass is about to store is permitted. -/
theorem Running.may_storing {may : History → StoreCall → Prop} {r : Running} {o : Value}
    (hr : SafePass.Ensures noted may (fun _ _ => True) r.rest r.history)
    (ho : r.storing? = some o) : may r.history (.updateStatus o) := by
  unfold storing? at ho
  split at ho
  · obtain rfl := Option.some.inj ho
    exact hr.1
  · cases ho

namespace Provisioning

open Cluster Manifest

/-! ## Runs over any requests -/

def PassOverAny (p : SafePass Directive) : Prop :=
  ∃ kind ∈ requestKinds, ∃ id, PassOver kind id p

def MayAskAny (h : History) (call : StoreCall) : Prop :=
  ∃ kind ∈ requestKinds, ∃ id, MayAsk kind id h call

/-- Every object is stored under its own address. -/
def Consistent (c : Cluster) : Prop :=
  ∀ a object, c.find? a = some object → addressOf object = .ok a

/-- What others may do when they do not meddle with jobs: requests, provisioners and everything else come,
go and change; a job may go and its status may change, but it keeps its owner. -/
structure NoMeddling (c c' : Cluster) : Prop where
  consistent : Consistent c → Consistent c'
  jobs : ∀ ns name job, c'.find? ⟨.text Kind.job, ns, name⟩ = some job →
    ∃ before, c.find? ⟨.text Kind.job, ns, name⟩ = some before ∧
      controllerOf job = controllerOf before

/-- A job that is controlled by a request that was stored under a namespace and name at some moment. -/
def MadeFor (states : List System) (ns name job : Value) : Prop :=
  ∃ kind ∈ requestKinds, ∃ s ∈ states, ∃ request,
    s.cluster.find? ⟨.text kind, ns, name⟩ = some request ∧
      controllerOf job = some (.text kind, uidOf request)

/-- A job that was made for a request stays so, however long the run is. -/
theorem MadeFor.mono {states states' : List System} {ns name job : Value}
    (h : MadeFor states ns name job) (hsub : ∀ s ∈ states, s ∈ states') :
    MadeFor states' ns name job := by
  rcases h with ⟨kind, hkind, s, hs, request, hrequest, hcontroller⟩
  exact ⟨kind, hkind, s, hsub s hs, request, hrequest, hcontroller⟩

/-- Everything that was read was stored at some moment, under its own address. -/
structure Traced (states : List System) (s : System) : Prop where
  sound : s.Sound MayAskAny
  consistent : Consistent s.cluster
  read : ∀ h ∈ s.histories, ∀ a v, v ∈ h.reads a →
    addressOf v = .ok a ∧ ∃ t ∈ states, t.cluster.find? a = some v

theorem PassOverAny.asks (p : SafePass Directive) (hp : PassOverAny p) :
    SafePass.Ensures noted MayAskAny (fun _ _ => True) p [] := by
  rcases hp with ⟨kind, hkind, id, hp⟩
  exact (hp.asks hkind).mono (fun _ _ h => ⟨kind, hkind, id, h⟩) fun _ _ h => h

/-! ## One step -/

/-- The stored job has the owner of the one that was sent. -/
theorem controllerOf_completes {object stored : Value} (h : Completes object stored) :
    controllerOf stored = controllerOf object := by
  rcases h.metadata with ⟨before, after, hbefore, hafter, hkeys⟩
  refine controllerOf_congr ?_
  simp [hbefore, hafter, hkeys "ownerReferences"]

section Step

variable {states : List System} {s s' : System}

/-- A permitted call leaves the objects alone, or stores one under its own address; and if that is a job,
it was made for a request of that name. -/
theorem Traced.stored {h : History} {call : StoreCall} {reply : Except Failure Value} {c : Cluster}
    (hs : Traced states s) (hh : h ∈ s.histories) (hmay : MayAskAny h call)
    (hanswer : unreliable s.cluster call reply c) :
    (∀ b, c.find? b = s.cluster.find? b) ∨
      ∃ a v, (∀ b, c.find? b = if b = a then some v else s.cluster.find? b) ∧
        addressOf v = .ok a ∧
        ∀ ns name, a = ⟨.text Kind.job, ns, name⟩ → MadeFor states ns name v := by
  rcases hmay with ⟨kind, hkind, id, hmay⟩
  cases hmay with
  | request _ | other _ => exact .inl fun b => by rw [eq_of_fetching hanswer]
  | @job request provisioner job stage hread _ _ hjob =>
    rcases hs.read h hh (requestAt kind id) request (by simp [hread]) with ⟨haddr, t, ht, hfound⟩
    -- a created job has the namespace, the name and the uid of the request that was read
    rcases controllerOf_provisioningJob hjob haddr with ⟨hjobAddr, hcontroller⟩
    rcases after_unreliable hanswer with heq | heq
    · exact .inl fun b => by rw [heq]
    · rcases create_cases s.cluster job with ⟨f, hrefused⟩ |
        ⟨a, stored, ha, hfree, hstoredAddr, -, hcompletes, hdone⟩
      · exact .inl fun b => by rw [heq]; exact congrArg (fun r => r.2.find? b) hrefused
      · refine .inr ⟨a, stored, fun b => ?_, hstoredAddr, ?_⟩
        · rw [heq, perform, hdone]
          simp [find?_withObject]
        · rintro ns name rfl
          obtain ⟨rfl, rfl⟩ : id.ns = ns ∧ id.name = name := by
            simpa [requestAt] using Except.ok.inj (hjobAddr.symm.trans ha)
          exact ⟨kind, hkind, t, ht, request, hfound,
            (controllerOf_completes hcompletes).trans hcontroller⟩
  | @status request o hread hwrite =>
    rcases hs.read h hh (requestAt kind id) request (by simp [hread]) with ⟨haddr, -⟩
    rcases hwrite.moves with ⟨_, _, status, -, -, -, -, hset⟩
    rcases after_unreliable hanswer with heq | heq
    · exact .inl fun b => by rw [heq]
    · rcases updateStatus_cases s.cluster o with ⟨f, hrefused⟩ |
        ⟨a, stored, sent, base, replaced, ha, hcurrent, -, hbase, hreplaced, hdone⟩
      · exact .inl fun b => by rw [heq]; exact congrArg (fun r => r.2.find? b) hrefused
      · have hstored := hs.consistent a stored (of_current hcurrent).1
        refine .inr ⟨a, replaced, fun b => ?_, ?_, ?_⟩
        · rw [heq, perform, hdone]
          simp [find?_withObject]
        · rw [addressOf_withVersion hreplaced, addressOf_setField hbase (by decide) (by decide),
            hstored]
        · -- a status is stored at the address of its request, which is no job
          rintro ns name rfl
          rw [addressOf_setField hset (by decide) (by decide), haddr] at ha
          obtain rfl : kind = Kind.job := by
            simpa [requestAt] using congrArg Address.kind (Except.ok.inj ha)
          exact absurd hkind (by decide)

/-- Storing one object under its own address keeps all objects under theirs. -/
theorem Consistent.of_change {c c' : Cluster} {a : Address} {v : Value} (hc : Consistent c)
    (hchange : ∀ b, c'.find? b = if b = a then some v else c.find? b)
    (haddr : addressOf v = .ok a) : Consistent c' := by
  intro b object hobject
  rw [hchange] at hobject
  split at hobject
  · next hb =>
    obtain rfl := Option.some.inj hobject
    rw [hb, haddr]
  · exact hc b object hobject

/-- Every stored job was made for a request of its name. -/
def JobsMade (states : List System) (s : System) : Prop :=
  ∀ ns name job, s.cluster.find? ⟨.text Kind.job, ns, name⟩ = some job → MadeFor states ns name job

theorem JobsMade.mono {states' : List System} (h : JobsMade states s)
    (hsub : ∀ t ∈ states, t ∈ states') : JobsMade states' s := fun ns name job hjob =>
  (h ns name job hjob).mono hsub

/-- One step keeps the owners of jobs. -/
theorem Traced.step (hs : Traced (s :: states) s) (hjobs : JobsMade (s :: states) s)
    (hstep : System.Step PassOverAny NoMeddling s s') :
    Traced (s' :: s :: states) s' ∧ JobsMade (s' :: s :: states) s' := by
  have hsound := hstep.sound PassOverAny.asks hs.sound
  have hsub : ∀ t ∈ s :: states, t ∈ s' :: s :: states := fun t ht => List.mem_cons_of_mem s' ht
  have hread : ∀ h ∈ s'.histories, ∀ a v, v ∈ h.reads a →
      addressOf v = .ok a ∧ ∃ t ∈ s' :: s :: states, t.cluster.find? a = some v := by
    intro h' hh' a v hv
    rcases hstep.reads hs.sound hh' hv with ⟨h, hh, hold⟩ | hnow
    · rcases hs.read h hh a v hold with ⟨haddr, t, ht, hfound⟩
      exact ⟨haddr, t, hsub t ht, hfound⟩
    · exact ⟨hs.consistent a v hnow, s, by simp, hnow⟩
  rcases hstep.change hs.sound with ⟨hout, -⟩ | ⟨hcluster, -⟩ |
    ⟨h, hh, call, reply, -, hmay, hanswer, -⟩
  · -- others keep the owners of jobs
    refine ⟨⟨hsound, hout.consistent hs.consistent, hread⟩, ?_⟩
    intro ns name job hjob
    rcases hout.jobs ns name job hjob with ⟨before, hbefore, howner⟩
    rcases hjobs ns name before hbefore with ⟨kind, hkind, t, ht, request, hrequest, hcontroller⟩
    exact ⟨kind, hkind, t, hsub t ht, request, hrequest, howner.trans hcontroller⟩
  · refine ⟨⟨hsound, by rw [hcluster]; exact hs.consistent, hread⟩, ?_⟩
    intro ns name job hjob
    rw [hcluster] at hjob
    exact (hjobs ns name job hjob).mono hsub
  · rcases hs.stored hh hmay hanswer with hsame | ⟨a, v, hchange, haddr, hmade⟩
    · refine ⟨⟨hsound, ?_, hread⟩, ?_⟩
      · intro b object hobject
        exact hs.consistent b object ((hsame b).symm.trans hobject)
      · intro ns name job hjob
        exact (hjobs ns name job ((hsame _).symm.trans hjob)).mono hsub
    · -- one object is new; all others are as they were
      refine ⟨⟨hsound, hs.consistent.of_change hchange haddr, hread⟩, ?_⟩
      intro ns name job hjob
      rw [hchange] at hjob
      split at hjob
      · next hb =>
        obtain rfl := Option.some.inj hjob
        exact (hmade ns name hb.symm).mono hsub
      · exact (hjobs ns name job hjob).mono hsub

end Step

/-! ## Runs -/

/-- Along a run, everything that was read was stored, and every job was made for a request of its name. -/
theorem Traced.run {first : System} {states : List System} (hfirst : Traced [first] first)
    (hjobs : JobsMade [first] first)
    (hrun : System.Run (System.Step PassOverAny NoMeddling) first states) :
    ∃ s past, states = s :: past ∧ Traced states s ∧ ∀ t ∈ states, JobsMade states t := by
  induction hrun with
  | start => exact ⟨first, [], rfl, hfirst, by simpa using hjobs⟩
  | @next s s' past hrun hstep ih =>
    rcases ih with ⟨_, _, ⟨⟩, hs, hmade⟩
    rcases hs.step (hmade s (by simp)) hstep with ⟨hs', hmade'⟩
    refine ⟨s', s :: past, rfl, hs', ?_⟩
    intro t ht
    rcases List.mem_cons.mp ht with rfl | ht
    · exact hmade'
    · exact (hmade t ht).mono fun u hu => List.mem_cons_of_mem _ hu

/-- Only a job that was read takes a request to a final stage. -/
theorem StatusWrite.jobRead {h : History} {request o : Value} {stage : Stage}
    (hw : StatusWrite h request o) (hstage : stageOf o = .ok stage) (hfinal : stage.isFinal = true) :
    ∃ job, JobRead h request job := by
  cases hw with
  | waiting hbefore hopen _ _ hset =>
    rw [stageOf_withStatus hset, hbefore] at hstage
    cases hstage
    rw [hopen] at hfinal
    cases hfinal
  | starting _ _ hadvanced =>
    rcases of_advanced hadvanced with ⟨-, -, _, fields, _, -, -, hset⟩
    rw [stageOf_setField hset, ofStatus_advanced] at hstage
    cases hstage
    cases hfinal
  | completing _ hjob _ _ _ => exact ⟨_, hjob⟩
  | failing _ hjob _ _ _ => exact ⟨_, hjob⟩

/-- A request looks for its job under its own namespace and name. -/
theorem jobAt_of_addressOf {request : Value} {a : Address} (h : addressOf request = .ok a) :
    jobAt request = .ok ⟨.text Kind.job, a.ns, a.name⟩ := by
  rcases addressOf_eq_ok.mp h with ⟨metadata, hmeta, -, hns, hname⟩
  simp only [jobAt, Value.require_eq_ok.mpr hmeta, hns, Value.require_eq_ok.mpr hname, bind,
    Except.bind, pure, Except.pure]

/-- Whatever requests and passes there are and whatever comes in between, as long as nobody meddles with
jobs: the job that takes a request to a final stage was found under the namespace and name of the request,
and is controlled by a request that was stored there at some moment. So it is its own job if it was the
only one. -/
theorem finished_by_job_of_namesake {c : Cluster} {s : System} {past : List System}
    (hconsistent : Consistent c)
    (hjobs : ∀ ns name, c.find? ⟨.text Kind.job, ns, name⟩ = none)
    (hrun : System.Run (System.Step PassOverAny NoMeddling) (System.idle c) (s :: past))
    {r : Running} (hr : r ∈ s.passes) {o : Value} (ho : r.storing? = some o) {stage : Stage}
    (hstage : stageOf o = .ok stage) (hfinal : stage.isFinal = true) :
    ∃ kind ∈ requestKinds, ∃ ns name job, addressOf o = .ok ⟨.text kind, ns, name⟩ ∧
      r.history.reads ⟨.text Kind.job, ns, name⟩ = [job] ∧ MadeFor (s :: past) ns name job ∧
      ((∀ other ∈ requestKinds, ∀ t ∈ s :: past, ∀ request,
          t.cluster.find? ⟨.text other, ns, name⟩ = some request →
          other = kind ∧ uidOf request = uidOf o) →
        controllerOf job = some (.text kind, uidOf o)) := by
  have hfirst : Traced [System.idle c] (System.idle c) :=
    ⟨System.sound_idle c, hconsistent, by simp [System.histories, System.idle]⟩
  have hnone : JobsMade [System.idle c] (System.idle c) := by
    intro ns name job hjob
    have hsome := (hjobs ns name).symm.trans hjob
    cases hsome
  rcases hfirst.run hnone hrun with ⟨_, _, ⟨⟩, hs, hmade⟩
  rcases Running.may_storing (hs.sound r hr).2 ho with ⟨kind, hkind, id, hmay⟩
  have hh : r.history ∈ s.histories := List.mem_map.mpr ⟨r, hr, rfl⟩
  cases hmay with
  | @status request _ hread hwrite =>
    rcases hs.read _ hh (requestAt kind id) request (by simp [hread]) with ⟨haddr, -⟩
    rcases hwrite.moves with ⟨_, _, status, -, -, -, -, hset⟩
    rcases hwrite.jobRead hstage hfinal with ⟨job, a, hjobAt, hjobRead⟩
    obtain rfl : _ = a := Except.ok.inj ((jobAt_of_addressOf haddr).symm.trans hjobAt)
    have hmem : job ∈ r.history.reads ⟨.text Kind.job, id.ns, id.name⟩ :=
      hjobRead ▸ List.mem_singleton_self job
    rcases hs.read _ hh _ job hmem with ⟨-, t, ht, hfound⟩
    -- the job was stored when it was read, and every stored job was made for a namesake
    have hmadeFor := hmade t ht _ _ _ hfound
    refine ⟨kind, hkind, id.ns, id.name, job, ?_, hjobRead, hmadeFor, ?_⟩
    · rw [addressOf_setField hset (by decide) (by decide), haddr]
      rfl
    · intro honly
      rcases hmadeFor with ⟨other, hother, u, hu, owner, howner, hcontroller⟩
      -- the request the job was made for is the only one there was
      rcases honly other hother u hu owner howner with ⟨rfl, huid⟩
      rw [hcontroller, huid]

/-! ### Requests that share a name -/

/-- Every pass that takes a request to a final stage read the job of this very request. -/
def FinishedByOwnJob (c : Cluster) : Prop :=
  ∀ s past, System.Run (System.Step PassOverAny NoMeddling) (System.idle c) (s :: past) →
    ∀ r ∈ s.passes, ∀ o, r.storing? = some o →
    ∀ stage, stageOf o = .ok stage → stage.isFinal = true →
    ∀ kind ns name, addressOf o = .ok ⟨.text kind, ns, name⟩ →
    ∀ job ∈ r.history.reads ⟨.text Kind.job, ns, name⟩,
      controllerOf job = some (.text kind, uidOf o)

theorem consistent_of_objects {c : Cluster}
    (h : ∀ entry ∈ c.objects, addressOf entry.2 = .ok entry.1) : Consistent c := by
  intro a object hfind
  exact h (a, object) (mem_objects_of_find? hfind)

/-- A status can be set in place without meddling with owners. -/
theorem noMeddling_setStatus (a : Address) (status : Value) (c : Cluster) :
    NoMeddling c (edited a (·.setField "status" status) c) := by
  rcases edited_cases a (·.setField "status" status) c with h | ⟨before, after, hbefore, hset, h⟩
  · rw [h]
    exact ⟨id, fun ns name job hjob => ⟨job, hjob, rfl⟩⟩
  · rw [h]
    refine ⟨fun hc => hc.of_change (find?_withObject c a · after) ?_, fun ns name job hjob => ?_⟩
    · rw [addressOf_setField hset (by decide) (by decide), hc a before hbefore]
    · rw [find?_withObject] at hjob
      split at hjob
      · next hb =>
        obtain rfl := Option.some.inj hjob
        refine ⟨before, by rw [hb, hbefore], controllerOf_congr ?_⟩
        rw [Value.field?_setField_of_ne hset (by decide)]
      · exact ⟨job, hjob, rfl⟩

/-- A cluster with two requests of one name, of either kind. -/
def rivalCluster : Cluster :=
  ((sampleCluster Kind.resource).put (sampleRequest Kind.provisioningJob)).2

/-- One request is started and its job completes; the other is started, and looks for its job. -/
def rivalMoves : List System.Move :=
  let one := (handler {} Kind.resource).reconcile {} sampleId
  let other := (handler {} Kind.provisioningJob).reconcile {} sampleId
  .begin one :: List.replicate 30 (.turn 0) ++ .begin other :: List.replicate 30 (.turn 1)
    ++ [.outside completeSampleJob, .begin other] ++ List.replicate 5 (.turn 2)

theorem rivalMoves_allowed : ∀ move ∈ rivalMoves, move.Allowed PassOverAny NoMeddling := by
  have hone : PassOverAny ((handler {} Kind.resource).reconcile {} sampleId) :=
    ⟨Kind.resource, by decide, sampleId, _, _, rfl⟩
  have hother : PassOverAny ((handler {} Kind.provisioningJob).reconcile {} sampleId) :=
    ⟨Kind.provisioningJob, by decide, sampleId, _, _, rfl⟩
  have hturns : ∀ n i, ∀ move ∈ List.replicate n (System.Move.turn i),
      move.Allowed PassOverAny NoMeddling := by
    intro n i move hmove
    rcases List.mem_replicate.mp hmove with ⟨-, rfl⟩
    trivial
  simp only [rivalMoves, List.forall_mem_append, List.forall_mem_cons]
  exact ⟨⟨⟨⟨hone, hturns _ _⟩, hother, hturns _ _⟩, noMeddling_setStatus _ _, hother, by simp⟩,
    hturns _ _⟩

/-- What the last pass is about to store, and the job it read. -/
def rivalFinish : Option (Value × Value) := do
  let s ← ((System.idle rivalCluster).played [] rivalMoves).head?
  let r ← s.passes[2]?
  let o ← r.storing?
  let job ← (r.history.reads ⟨.text Kind.job, .text "default", .text "db"⟩).head?
  return (o, job)

theorem rivalFinish_found :
    rivalFinish.map (fun (o, job) => (stageOf o, addressOf o, uidOf o, controllerOf job)) =
      some (.ok .ready, .ok ⟨.text Kind.provisioningJob, .text "default", .text "db"⟩,
        .text "uid-StarlaneProvisioningJob",
        some (.text Kind.resource, .text "uid-StarlaneResource")) := by
  decide +kernel

/-- The run ends with a pass that is about to finish the second request, with the job of the first. -/
theorem exists_rivalFinish :
    ∃ s past r o job, System.Run (System.Step PassOverAny NoMeddling) (System.idle rivalCluster)
        (s :: past) ∧ r ∈ s.passes ∧ r.storing? = some o ∧ stageOf o = .ok .ready ∧
      addressOf o = .ok ⟨.text Kind.provisioningJob, .text "default", .text "db"⟩ ∧
      uidOf o = .text "uid-StarlaneProvisioningJob" ∧
      job ∈ r.history.reads ⟨.text Kind.job, .text "default", .text "db"⟩ ∧
      controllerOf job = some (.text Kind.resource, .text "uid-StarlaneResource") := by
  have hrun := System.run_of_moves rivalMoves_allowed (System.idle rivalCluster)
  rcases Option.map_eq_some_iff.mp rivalFinish_found with ⟨⟨o, job⟩, hfinish, hfound⟩
  simp only [Prod.mk.injEq] at hfound
  rcases hfound with ⟨hstage, haddr, huid, hcontroller⟩
  simp only [rivalFinish, Option.bind_eq_bind, Option.bind_eq_some_iff, Option.pure_def,
    Option.some.injEq, Prod.mk.injEq] at hfinish
  rcases hfinish with ⟨s, hs, r, hr, o', ho, job', hjob, rfl, rfl⟩
  rcases List.head?_eq_some_iff.mp hs with ⟨past, hstates⟩
  rw [hstates] at hrun
  exact ⟨s, past, r, o', job', hrun, List.mem_of_getElem? hr, ho, hstage, haddr, huid,
    List.mem_of_head? hjob, hcontroller⟩

theorem rivalCluster_consistent : Consistent rivalCluster :=
  consistent_of_objects (by decide +kernel)

theorem rivalCluster_no_job (ns name : Value) :
    rivalCluster.find? ⟨.text Kind.job, ns, name⟩ = none := by
  have hkinds : ∀ entry ∈ rivalCluster.objects, entry.1.kind ≠ .text Kind.job := by
    decide +kernel
  refine List.lookup_eq_none_iff.mpr ?_
  intro entry hentry
  simp only [beq_eq_false_iff_ne, Bool.not_eq_true', bne]
  intro heq
  exact hkinds entry hentry (by rw [← heq])

/-- The job was made for one of the two. -/
theorem rival_finished_by_job_of_namesake :
    ∃ s past r o, System.Run (System.Step PassOverAny NoMeddling) (System.idle rivalCluster)
        (s :: past) ∧ r ∈ s.passes ∧ r.storing? = some o ∧ stageOf o = .ok .ready ∧
      ∃ ns name job, r.history.reads ⟨.text Kind.job, ns, name⟩ = [job] ∧
        MadeFor (s :: past) ns name job := by
  rcases exists_rivalFinish with ⟨s, past, r, o, _, hrun, hr, ho, hstage, -⟩
  obtain ⟨_, -, ns, name, job, -, hread, hmade, -⟩ := finished_by_job_of_namesake
    rivalCluster_consistent rivalCluster_no_job hrun hr ho hstage rfl
  exact ⟨s, past, r, o, hrun, hr, ho, hstage, ns, name, job, hread, hmade⟩

/-- The second of two requests of one name is finished by the job of the first. -/
theorem not_finishedByOwnJob :
    Consistent rivalCluster ∧ (∀ ns name, rivalCluster.find? ⟨.text Kind.job, ns, name⟩ = none) ∧
      ¬ FinishedByOwnJob rivalCluster := by
  refine ⟨rivalCluster_consistent, rivalCluster_no_job, fun hown => ?_⟩
  obtain ⟨s, past, r, o, job, hrun, hr, ho, hstage, haddr, huid, hjob, hcontroller⟩ :=
    exists_rivalFinish
  have hsame := hown s past hrun r hr o ho .ready hstage rfl Kind.provisioningJob _ _ haddr job hjob
  rw [hcontroller, huid] at hsame
  exact absurd hsame (by decide)

end Provisioning

end Reconciler
