import Reconciler.Handler.All
import Reconciler.Proofs.Independence.Looking
import Reconciler.Proofs.Reports.Accounting

/-! # All handlers look before they write

The pass of every handler fetches what it wants to know, and then makes its writes: one that replaces what it
fetched or creates what is missing, and after the stage of a request its job. It never looks at what is stored
by its own writes, whatever is answered, on every way through it.

Main statements:

* `Convergence.converge_looks`, `Labelling.converge_looks`, `Provisioning.converge_looks`: the passes of the
  handlers;
* `Handler.reconcile_looksFirst`: so a reconciliation looks first, whatever becomes of its pass.
-/

namespace Reconciler

open Pass

/-- A pass that looks first, wherever it comes to. -/
abbrev Pass.LooksOnly {α : Type} (phase : Phase) (p : Pass α) : Prop :=
  Looks (fun _ _ => True) phase p

/-! ## Services and databases -/

namespace Convergence

variable {settings : Settings} {kind : String} {id : Identity} {parent : Value} {tier : Tier}

/-- A pass that creates a child does not look at the answer to its write. -/
theorem create_looks (hbuild : Stays .looking tier.build) :
    LooksOnly .looking (create kind parent tier) := by
  unfold create
  refine looks_read (fun metadata => ?_) fun _ => trivial
  refine looks_tell _ ?_
  refine looks_part hbuild (fun manifest => ?_) fun _ => trivial
  refine looks_note ?_ fun _ => trivial
  refine looks_write (.create _ _) (fun _ _ => rfl) ?_
  rintro (f | created)
  · dsimp only
    split
    · exact looks_tell _ (.done trivial)
    · exact looks_tell _ (.done trivial)
  · exact looks_tell _ (looks_tell _ (.done trivial))

/-- A pass that corrects a child does not look at the answer to its write. -/
theorem patch_looks (existing : Value) (changes : Fields) :
    LooksOnly .looking (patch settings kind parent tier existing changes) := by
  unfold patch
  refine looks_tell _ ?_
  refine looks_read (fun metadata => ?_) fun _ => trivial
  refine looks_tell _ ?_
  refine looks_note ?_ fun _ => trivial
  refine looks_read (fun changed => ?_) fun _ => trivial
  refine looks_write (.update _) (fun _ _ => rfl) ?_
  rintro (f | updated)
  · dsimp only
    split
    · exact looks_tell _ (.done trivial)
    · exact looks_tell _ (.done trivial)
  · exact looks_tell _ (looks_tell _ (looks_liftRead _ fun _ => trivial))

/-- A walk over children looks at each of them before it writes. -/
theorem walk_looks {tiers : List Tier} (hbuild : ∀ tier ∈ tiers, Stays .looking tier.build) :
    LooksOnly .looking (walk settings kind id parent tiers) := by
  induction tiers with
  | nil =>
    unfold walk
    refine looks_read (fun metadata => ?_) fun _ => trivial
    exact looks_note (.done trivial) fun _ => trivial
  | cons tier rest ih =>
    have hfirst := hbuild tier List.mem_cons_self
    have hrest := ih fun tier htier => hbuild tier (List.mem_cons_of_mem _ htier)
    unfold walk
    refine looks_attempt ?_
    rintro (f | existing)
    · dsimp only
      split
      · exact create_looks hfirst
      · exact .done trivial
    · dsimp only
      split
      · exact hrest
      · -- the wanted child is built to compare it, which asks nothing of the store
        refine looks_part hfirst (fun wanted => ?_) fun _ => trivial
        refine looks_read (fun changes => ?_) fun _ => trivial
        split
        · exact hrest
        · exact patch_looks existing changes

/-- What a tier builds is read off the parent, or drawn for its credential. -/
theorem stays_tiers (family : Family) (images : Images) {all : List Tier}
    (hall : family.tiers images parent = .ok all) : ∀ tier ∈ all, Stays .looking tier.build := by
  have hread : ∀ read : Except Fault Value, Stays .looking (Pass.lift read) :=
    fun read => looks_liftRead read fun _ => rfl
  refine family.forall_tiers images hall (fun _ _ _ build => hread build) (fun _ _ build => hread build) ?_
  intro name childName
  exact looks_part (stays_draw _) (fun password => hread _) fun _ => rfl

theorem converge_looks (settings : Settings) (family : Family) (id : Identity) :
    LooksOnly .looking (converge settings family.kind (family.tiers settings.images) id) := by
  unfold converge
  refine looks_fetch (fun parent => ?_) fun _ => trivial
  refine looks_read (fun metadata => ?_) fun _ => trivial
  cases hall : family.tiers settings.images parent with
  | error f => exact .done trivial
  | ok all => exact walk_looks (stays_tiers family settings.images hall)

end Convergence

/-! ## Provisioners -/

theorem Labelling.converge_looks (id : Identity) : LooksOnly .looking (converge id) := by
  unfold converge
  refine looks_fetch (fun stored => ?_) fun _ => trivial
  refine looks_read (fun provisioner => ?_) fun _ => trivial
  refine looks_read (fun metadata => ?_) fun _ => trivial
  refine looks_read (fun labels => ?_) fun _ => trivial
  refine looks_read (fun labelled => ?_) fun _ => trivial
  split
  · exact .done trivial
  · refine looks_read (fun spec => ?_) fun _ => trivial
    refine looks_read (fun descriptor => ?_) fun _ => trivial
    split
    · refine looks_note ?_ fun _ => trivial
      exact looks_tell _ (.done trivial)
    · exact .done trivial
    · refine looks_read (fun labeled => ?_) fun _ => trivial
      -- the labelled provisioner is sent whole, and its answer is not looked at
      refine looks_must (.update _) ?_ fun _ => trivial
      refine looks_note ?_ fun _ => trivial
      exact looks_tell _ (.done trivial)

/-! ## Requests -/

namespace Provisioning

variable {settings : Settings} {kind : String} {request : Value}

/-- Looking for a provisioner only looks. -/
theorem getProvisioner_stays (request : Value) : Stays .looking (getProvisioner request) := by
  unfold getProvisioner
  refine looks_read (fun metadata => ?_) fun _ => rfl
  refine looks_read (fun ns => ?_) fun _ => rfl
  refine looks_read (fun spec => ?_) fun _ => rfl
  refine looks_read (fun name => ?_) fun _ => rfl
  split
  · refine looks_attempt ?_
    rintro (f | provisioner)
    · dsimp only
      split
      · exact .done rfl
      · exact .done rfl
    · exact .done rfl
  · exact .done rfl

theorem looks_recordNow {α : Type} {phase : Phase} {r : Condition.Report} {conditions : List Condition}
    {k : List Condition → Pass α} (hnext : ∀ conditions, LooksOnly phase (k conditions)) :
    LooksOnly phase (liftM (recordNow r conditions) >>= k) :=
  .aside nofun fun _ => hnext _

theorem recordMissing_looks (provisioner : Value) :
    LooksOnly .looking (recordMissing kind request provisioner) := by
  unfold recordMissing
  refine looks_read (fun conditions => ?_) fun _ => trivial
  refine looks_read (fun metadata => ?_) fun _ => trivial
  refine looks_note ?_ fun _ => trivial
  split
  · exact .done trivial
  · refine looks_recordNow fun conditions => ?_
    refine looks_read (fun changed => ?_) fun _ => trivial
    exact looks_must (.updateStatus _) (.done trivial) fun _ => trivial

theorem withProvisioner_looks {next : Value → Pass Directive}
    (hnext : ∀ provisioner, LooksOnly .looking (next provisioner)) :
    LooksOnly .looking (withProvisioner kind request next) := by
  unfold withProvisioner
  refine looks_outcome (getProvisioner_stays request) ?_
  rintro (f | provisioner)
  · dsimp only
    split
    · exact looks_bind (recordMissing_looks _) (fun _ _ _ => .done trivial) fun _ _ _ => trivial
    · exact .done trivial
  · exact hnext provisioner

theorem createJob_looks {phase : Phase} (provisioner : Value) :
    LooksOnly phase (createJob kind request provisioner) := by
  unfold createJob
  refine looks_read (fun metadata => ?_) fun _ => trivial
  refine looks_read (fun job => ?_) fun _ => trivial
  -- the answer only tells whether the job was there already
  refine looks_write (.create _ _) (fun _ _ => rfl) ?_
  rintro (f | created)
  · dsimp only
    split
    · exact looks_tell _ (.done trivial)
    · exact .done trivial
  · refine looks_tell _ ?_
    refine looks_read (fun name => ?_) fun _ => trivial
    refine looks_read (fun spec => ?_) fun _ => trivial
    refine looks_read (fun image => ?_) fun _ => trivial
    refine looks_note ?_ fun _ => trivial
    exact looks_tell _ (.done trivial)

/-- Entering a stage is one write, and what follows it only leaves something behind or creates. -/
theorem advance_looks {target : Stage} {conditions : Value} {k : Unit → Pass Directive}
    (hnext : ∀ phase, LooksOnly phase (k ())) :
    LooksOnly .looking (advance kind request target conditions >>= k) := by
  have hadvance : LooksOnly .looking (advance kind request target conditions) := by
    unfold advance
    refine looks_read (fun moved => ?_) fun _ => trivial
    refine looks_must (.updateStatus _) ?_ fun _ => trivial
    refine looks_tell _ ?_
    refine looks_read (fun metadata => ?_) fun _ => trivial
    exact looks_read (fun _ => .aside nofun fun _ => .done trivial) fun _ => trivial
  exact looks_bind hadvance (fun phase _ _ => hnext phase) fun _ _ _ => trivial

theorem start_looks : LooksOnly .looking (start kind request) := by
  unfold start
  refine withProvisioner_looks fun provisioner => ?_
  refine looks_read (fun conditions => ?_) fun _ => trivial
  refine looks_now fun now => ?_
  exact advance_looks fun _ => createJob_looks provisioner

theorem complete_looks (metadata : Value) : LooksOnly .looking (complete kind request metadata) := by
  unfold complete
  refine looks_read (fun conditions => ?_) fun _ => trivial
  refine looks_recordNow fun conditions => ?_
  refine advance_looks fun _ => ?_
  refine looks_note ?_ fun _ => trivial
  refine looks_read (fun name => ?_) fun _ => trivial
  exact looks_tell _ (.done trivial)

theorem fail_looks (metadata job : Value) : LooksOnly .looking (fail kind request metadata job) := by
  unfold fail
  refine looks_read (fun conditions => ?_) fun _ => trivial
  refine looks_read (fun name => ?_) fun _ => trivial
  refine looks_read (fun reason => ?_) fun _ => trivial
  refine looks_recordNow fun conditions => ?_
  refine looks_recordNow fun conditions => ?_
  refine advance_looks fun _ => ?_
  refine looks_note ?_ fun _ => trivial
  exact looks_tell _ (.done trivial)

/-- Looking at a job comes before everything that is done about it. -/
theorem observe_looks : LooksOnly .looking (observe settings kind request) := by
  unfold observe
  refine looks_read (fun metadata => ?_) fun _ => trivial
  refine looks_read (fun ns => ?_) fun _ => trivial
  refine looks_read (fun name => ?_) fun _ => trivial
  refine looks_attempt ?_
  rintro (f | job)
  · dsimp only
    split
    · refine looks_note ?_ fun _ => trivial
      exact withProvisioner_looks createJob_looks
    · exact .done trivial
  · refine looks_read (fun outcome => ?_) fun _ => trivial
    cases outcome with
    | running => exact looks_liftRead _ fun _ => trivial
    | complete => exact complete_looks metadata
    | failed => exact fail_looks metadata job

theorem converge_looks (settings : Settings) (kind : String) (id : Identity) :
    LooksOnly .looking (converge settings kind id) := by
  unfold converge
  refine looks_fetch (fun request => ?_) fun _ => trivial
  refine looks_read (fun metadata => ?_) fun _ => trivial
  refine looks_read (fun status => ?_) fun _ => trivial
  split
  · exact start_looks
  · exact observe_looks
  · exact .done trivial
  · exact .done trivial
  · refine looks_read (fun stored => ?_) fun _ => trivial
    exact looks_note (.done trivial) fun _ => trivial
  · exact .done trivial

end Provisioning

/-! ## Reconciliations -/

namespace Handler

variable {settings : Settings} {h : Handler} {id : Identity}

/-- A program that looks first, however far the pass before it has come, and wherever it comes to itself. -/
abbrev FollowsUp {α : Type} (p : SafePass α) : Prop :=
  ∀ phase, LooksFirst (fun _ _ => True) phase p

/-- What follows after what follows up does so as well, if each of its ways does. -/
theorem followsUp_bind {α β : Type} {p : SafePass α} {k : α → SafePass β} (h : FollowsUp p)
    (hk : ∀ a, FollowsUp (k a)) : FollowsUp (p >>= k) :=
  fun phase => (h phase).bind fun phase' a _ => hk a phase'

theorem followsUp_tell {α : Type} (t : Trace) {k : Unit → SafePass α} (hnext : FollowsUp (k ())) :
    FollowsUp (SafePass.trace t >>= k) :=
  fun phase => .aside nofun fun _ => hnext phase

theorem followsUp_done {α : Type} (a : α) : FollowsUp (pure a : SafePass α) :=
  fun _ => .done trivial

theorem followsUp_time (start : Rat) : FollowsUp (h.time settings start) :=
  fun _ => .aside nofun fun _ => .aside nofun fun _ => .done trivial

theorem followsUp_fail (f : Failure) : FollowsUp (h.fail id f) := by
  unfold fail
  -- what is logged differs, and then both count
  split
  · exact followsUp_tell _ (followsUp_tell _ (followsUp_tell _ (followsUp_done _)))
  · exact followsUp_tell _ (followsUp_tell _ (followsUp_tell _ (followsUp_done _)))

theorem followsUp_finish (directive : Directive) : FollowsUp (h.finish id directive) := by
  unfold finish
  split
  · exact followsUp_fail _
  · exact followsUp_tell _ (followsUp_done _)

/-- What follows a pass does not concern the store. -/
theorem followsUp_conclude (start : Rat) (r : Except Failure Directive) :
    FollowsUp (h.conclude settings id start r) := by
  cases r with
  | ok directive =>
    exact followsUp_tell _ (followsUp_bind (followsUp_time start) fun _ => followsUp_finish directive)
  | error f =>
    refine followsUp_tell _ ?_
    split
    · exact followsUp_tell _ (followsUp_bind (followsUp_time start) fun _ => followsUp_finish .done)
    · split
      · refine followsUp_tell _ (followsUp_tell _ ?_)
        exact followsUp_bind (followsUp_time start) fun _ => followsUp_done _
      · refine followsUp_bind (followsUp_fail f) fun directive => ?_
        exact followsUp_bind (followsUp_time start) fun _ => followsUp_done _

/-- A reconciliation looks first when its pass does. -/
theorem reconcile_looksFirst (settings : Settings) (hpass : Pass.LooksOnly .looking (h.converge id)) :
    LooksFirst (fun _ _ => True) .looking (h.reconcile settings id) := by
  have hopening : LooksFirst (fun phase _ => phase = .looking) .looking (h.opening id) :=
    .aside nofun fun _ => .aside nofun fun _ => .done rfl
  rw [reconcile_eq]
  refine hopening.bind ?_
  rintro _ start rfl
  exact LooksFirst.bind hpass fun phase r _ => followsUp_conclude start r phase

end Handler

/-- All handlers look first. -/
theorem handlers_look {settings : Settings} {h : Handler} (hh : h ∈ handlers settings) (id : Identity) :
    Pass.LooksOnly .looking (h.converge id) := by
  simp only [handlers, List.mem_cons, List.not_mem_nil, or_false] at hh
  rcases hh with rfl | rfl | rfl | rfl | rfl
  · exact Convergence.converge_looks settings .service id
  · exact Convergence.converge_looks settings .database id
  · exact Labelling.converge_looks id
  · exact Provisioning.converge_looks settings Kind.resource id
  · exact Provisioning.converge_looks settings Kind.provisioningJob id

end Reconciler
