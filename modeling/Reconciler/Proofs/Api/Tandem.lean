import Reconciler.Proofs.Api.Refinement
import Reconciler.Proofs.Reports.Accounting

/-! # Passes over both stores

The same pass runs over a server and over a cluster. It makes the same calls and comes to the same result, as
long as it only looks at what went wrong, and never at what that was made from.

Main definitions and statements:

* `through`: a store over a server, as a way of answering store calls;
* `Tandem`: two programs that go together, one over a server and one over its cluster, by induction on their
  questions; the calls of both are about objects that both know;
* `Program.Matched`: each run of one has a run of the other next to it;
* `Tandem.matched`: so it is with programs that go together, over every server in front of a cluster;
* `Pass.InTandem`: the same for passes, with one rule for each way a pass is built;
* `Handler.reconcile_tandem`: a reconciliation goes together when its pass does.
-/

namespace Reconciler

open ApiStore

/-- The store over a server. Its state is that of the server, and when the last call started. -/
def through {σ : Type} (methods : Methods) (settings : Settings) (retries : Nat) (server : Server σ) :
    Answering (Backstage σ × Limiter) :=
  fun s call reply s' => Program.Leads (backed server) ((perform methods settings retries call).run s.2) s.1
    (.done (reply, s'.2)) s'.1

/-! ## Programs -/

/-- Two programs that ask the same as long as they hear the same, but for what failures were made from. The
first may run over a server and the second over its cluster, which is given. What they leave behind is of no
interest. -/
inductive Tandem {α β : Type} (post : α → β → Prop) : Cluster → SafePass α → SafePass β → Prop where
  /-- Both are finished. -/
  | done {c : Cluster} {a : α} {b : β} : post a b → Tandem post c (.done a) (.done b)
  /-- Both call the store. -/
  | store {c : Cluster} {call : StoreCall} {next next'} :
      Apt c call →
      (∀ reply, Concur Eq reply (c.reported call) →
        Tandem post (c.perform call).2 (next reply) (next' (c.reported call))) →
      Tandem post c (.ask (S := passSignature) (.store call) next)
        (.ask (S := passSignature) (.store call) next')
  /-- Both leave something behind. -/
  | trace {c : Cluster} {t t' : Trace} {next next'} :
      Tandem post c (next ()) (next' ()) →
      Tandem post c (.ask (S := passSignature) (.trace t) next) (.ask (S := passSignature) (.trace t') next')
  /-- Both ask something that does not concern the store. -/
  | aside {c : Cluster} {op : PassOp} {next : op.Answer → SafePass α} {next' : op.Answer → SafePass β} :
      (∀ call, op ≠ .store call) →
      (∀ reply, facing reliable c op reply c → Tandem post c (next reply) (next' reply)) →
      Tandem post c (.ask (S := passSignature) op next) (.ask (S := passSignature) op next')

section Programs

variable {α β γ δ : Type} {post : α → β → Prop} {c : Cluster}

/-- Parts that go together, gone on with together. -/
theorem Tandem.bind {mid : γ → δ → Prop} {p : SafePass γ} {q : SafePass δ} {k : γ → SafePass α}
    {k' : δ → SafePass β} (h : Tandem mid c p q)
    (hk : ∀ c' a b, mid a b → Tandem post c' (k a) (k' b)) : Tandem post c (p >>= k) (q >>= k') := by
  induction h with
  | done hmid => exact hk _ _ _ hmid
  | store hapt _ ih => exact .store hapt ih
  | trace _ ih => exact .trace ih
  | aside hop _ ih => exact .aside hop ih

/-- What is left behind may differ. -/
theorem tandem_tell (t t' : Trace) {k : Unit → SafePass α} {k' : Unit → SafePass β}
    (hnext : Tandem post c (k ()) (k' ())) :
    Tandem post c (SafePass.trace t >>= k) (SafePass.trace t' >>= k') :=
  .trace hnext

/-- Two programs that decide alike go together if they do in either case. -/
theorem tandem_branch {b b' : Bool} {p p' : SafePass α} {q q' : SafePass β} (hb : b = b')
    (htrue : b = true → Tandem post c p q) (hfalse : b = false → Tandem post c p' q') :
    Tandem post c (if b then p else p') (if b' then q else q') := by
  subst hb
  cases b with
  | true => exact htrue rfl
  | false => exact hfalse rfl

/-- A part that makes no calls goes together with itself. -/
theorem tandem_built {holds : γ → Prop} {p : SafePass γ} {k : γ → SafePass α} {k' : γ → SafePass β}
    (h : SafePass.Ensures reliable (fun _ _ => False) (fun _ => holds) p c)
    (hk : ∀ a, holds a → Tandem post c (k a) (k' a)) : Tandem post c (p >>= k) (p >>= k') := by
  -- the induction is on the questions of the part, none of which is a call
  induction p with
  | done a => exact hk a h
  | ask op next ih =>
    obtain ⟨hmay, hnext⟩ := h
    cases op with
    | store call => cases hmay
    | trace t => exact .trace (ih () (hnext () c rfl))
    | _ => exact .aside nofun fun reply hreply => ih reply (hnext reply c hreply)

/-! ## Runs side by side -/

/-- Two programs match in two environments, seen from the second: each run of one has a run of the other next
to it, with results that are related and with the same state in the end. -/
structure Program.Matched {S : Signature} {σ τ : Type} (E : Responder S σ) (E' : Responder S τ)
    (view : σ → τ) (post : α → β → Prop) (p : Program S α) (q : Program S β) (s : σ) : Prop where
  forth : ∀ a s', Program.Leads E p s (.done a) s' →
    ∃ b, post a b ∧ Program.Leads E' q (view s) (.done b) (view s')
  back : ∀ b t, Program.Leads E' q (view s) (.done b) t →
    ∃ a s', post a b ∧ view s' = t ∧ Program.Leads E p s (.done a) s'

/-- What is asked aside is answered in the same way over every store. -/
theorem facing_aside {σ τ : Type} {answers : Answering σ} (other : Answering τ) {op : PassOp}
    (hop : ∀ call, op ≠ .store call) {reply : op.Answer} {s s' : σ} (h : facing answers s op reply s')
    (t : τ) : s' = s ∧ facing other t op reply t := by
  cases op with
  | store call => exact absurd rfl (hop call)
  | random op => exact ⟨h.2, h.1, rfl⟩
  | instant | seconds | trace => exact ⟨h, rfl⟩

variable {methods : Methods} {wording : Wording} {settings : Settings} {retries : Nat} {σ : Type}
variable {server : Server σ} {cluster : σ → Cluster} {rejected : σ → Nat}

/-- Next to each run over a server there is a run over the cluster. -/
theorem Tandem.over_server (hcomplete : methods.Complete) (hquotes : Quotes wording)
    (hrate : settings.callRate ≠ 0) (hfronts : Fronts wording retries server cluster rejected)
    {p : SafePass α} {q : SafePass β} (h : Tandem post c p q) (horderly : c.Orderly) {s : Backstage σ × Limiter}
    (hs : cluster s.1.server = c) :
    Program.Ensures (facing (through methods settings retries server)) (fun _ _ => True)
      (fun s' a => ∃ b, Program.Leads (facing reliable) q c (.done b) (cluster s'.1.server) ∧ post a b)
      p s := by
  induction h generalizing s with
  | done hpost => exact ⟨_, by rw [hs]; exact .here _ _, hpost⟩
  | @store c call next next' hapt _ ih =>
    refine ⟨trivial, ?_⟩
    intro reply s' hreply
    subst hs
    -- the reply concurs with that of the cluster, and the cluster of the server is what the call leaves
    obtain ⟨hconcur, hafter, -⟩ :=
      (perform_over_server hcomplete hquotes hrate hfronts s.2 horderly hapt).of_leads hreply
    refine (ih reply hconcur (horderly.perform call) hafter).mono (fun _ _ _ => trivial) ?_
    rintro t a ⟨b, hrun, hpost⟩
    exact ⟨b, hrun.ask ⟨rfl, rfl⟩, hpost⟩
  | trace _ ih =>
    refine ⟨trivial, ?_⟩
    rintro ⟨⟩ s' rfl
    refine (ih horderly hs).mono (fun _ _ _ => trivial) ?_
    rintro t a ⟨b, hrun, hpost⟩
    exact ⟨b, hrun.ask rfl, hpost⟩
  | @aside c op next next' hop _ ih =>
    refine ⟨trivial, ?_⟩
    intro reply s' hreply
    obtain ⟨rfl, hreply'⟩ := facing_aside reliable hop hreply c
    refine (ih reply hreply' horderly hs).mono (fun _ _ _ => trivial) ?_
    rintro t a ⟨b, hrun, hpost⟩
    exact ⟨b, hrun.ask hreply', hpost⟩

/-- Next to each run over the cluster there is a run over the server. -/
theorem Tandem.over_cluster (hcomplete : methods.Complete) (hquotes : Quotes wording)
    (hrate : settings.callRate ≠ 0) (hfronts : Fronts wording retries server cluster rejected)
    {p : SafePass α} {q : SafePass β} (h : Tandem post c p q) (horderly : c.Orderly) {s : Backstage σ × Limiter}
    (hs : cluster s.1.server = c) :
    Program.Ensures (facing reliable) (fun _ _ => True)
      (fun c' b => ∃ a s', Program.Leads (facing (through methods settings retries server)) p s (.done a) s' ∧
        cluster s'.1.server = c' ∧ post a b) q c := by
  induction h generalizing s with
  | done hpost => exact ⟨_, s, .here _ _, hs, hpost⟩
  | @store c call next next' hapt _ ih =>
    refine ⟨trivial, ?_⟩
    rintro _ _ ⟨rfl, rfl⟩
    subst hs
    -- the server comes to some answer, and every answer concurs
    obtain ⟨⟨reply, l⟩, t, hreply⟩ := Program.exists_leads_done (exists_backed hfronts.answers)
      ((perform methods settings retries call).run s.2) s.1
    obtain ⟨hconcur, hafter, -⟩ :=
      (perform_over_server hcomplete hquotes hrate hfronts s.2 horderly hapt).of_leads hreply
    refine (ih reply hconcur (horderly.perform call) (s := (t, l)) hafter).mono (fun _ _ _ => trivial) ?_
    rintro c' b ⟨a, s', hrun, hs', hpost⟩
    have hreply' : facing (through methods settings retries server) s (.store call) reply (t, l) := hreply
    exact ⟨a, s', hrun.ask hreply', hs', hpost⟩
  | trace _ ih =>
    refine ⟨trivial, ?_⟩
    rintro ⟨⟩ c' rfl
    refine (ih horderly hs).mono (fun _ _ _ => trivial) ?_
    rintro c'' b ⟨a, s', hrun, hs', hpost⟩
    exact ⟨a, s', hrun.ask rfl, hs', hpost⟩
  | @aside c op next next' hop _ ih =>
    refine ⟨trivial, ?_⟩
    intro reply c' hreply
    obtain ⟨rfl, hreply'⟩ := facing_aside (through methods settings retries server) hop hreply s
    refine (ih reply hreply horderly hs).mono (fun _ _ _ => trivial) ?_
    rintro c'' b ⟨a, s', hrun, hs', hpost⟩
    exact ⟨a, s', hrun.ask hreply', hs', hpost⟩

/-- Programs that go together match, over every server in front of the cluster. -/
theorem Tandem.matched (hcomplete : methods.Complete) (hquotes : Quotes wording)
    (hrate : settings.callRate ≠ 0) (hfronts : Fronts wording retries server cluster rejected)
    {p : SafePass α} {q : SafePass β} {s : Backstage σ × Limiter} (h : Tandem post (cluster s.1.server) p q)
    (horderly : (cluster s.1.server).Orderly) :
    Program.Matched (facing (through methods settings retries server)) (facing reliable)
      (fun s => cluster s.1.server) post p q s := by
  constructor
  · intro a s' hrun
    obtain ⟨b, hrun', hpost⟩ := (h.over_server hcomplete hquotes hrate hfronts horderly rfl).of_leads hrun
    exact ⟨b, hpost, hrun'⟩
  · intro b c' hrun
    obtain ⟨a, s', hrun', hs', hpost⟩ := (h.over_cluster hcomplete hquotes hrate hfronts horderly rfl).of_leads hrun
    exact ⟨a, s', hpost, hs', hrun'⟩

end Programs

/-! ## Calls that both know -/

section Calls

variable {c : Cluster} {a : Address} {object : Value}

theorem apt_get {kind ns name : Value} (ha : Address.Supported ⟨kind, ns, name⟩) :
    Apt c (.get kind ns name) :=
  ⟨.get ha, nofun⟩

theorem apt_create (haddr : Cluster.addressOf object = .ok a) (ha : a.Supported) :
    Apt c (.create object) :=
  ⟨.create haddr ha, nofun⟩

theorem apt_update (haddr : Cluster.addressOf object = .ok a) (ha : a.Supported) :
    Apt c (.update object) :=
  ⟨.update haddr ha, nofun⟩

theorem apt_updateStatus (haddr : Cluster.addressOf object = .ok a) (ha : a.Supported)
    (hkind : a.kind ≠ .text Kind.secret) : Apt c (.updateStatus object) :=
  ⟨.updateStatus haddr ha hkind, nofun⟩

end Calls

/-! ## Passes -/

namespace Pass

variable {α β γ δ : Type} {rel : α → β → Prop} {c : Cluster}

abbrev InTandem (rel : α → β → Prop) (c : Cluster) (p : Pass α) (q : Pass β) : Prop :=
  Tandem (Concur rel) c p.run q.run

theorem inTandem_pure {a : α} {b : β} (h : rel a b) : InTandem rel c (pure a) (pure b) :=
  .done (.ok h)

/-- Two passes that fail alike go together, whatever the failures were made from. -/
theorem inTandem_throw (f : Fault) (source source' : Option Fault) :
    InTandem rel c (throw ⟨f, source⟩ : Pass α) (throw ⟨f, source'⟩ : Pass β) :=
  .done (.error f source source')

/-- Passes that go together, followed by passes that do whatever the first ones hand on. -/
theorem inTandem_bind {mid : γ → δ → Prop} {p : Pass γ} {q : Pass δ} {k : γ → Pass α} {k' : δ → Pass β}
    (h : InTandem mid c p q) (hk : ∀ c' a b, mid a b → InTandem rel c' (k a) (k' b)) :
    InTandem rel c (p >>= k) (q >>= k') := by
  refine Tandem.bind h ?_
  rintro c' r r' (hmid | ⟨f, source, source'⟩)
  · exact hk c' _ _ hmid
  · exact .done (.error f source source')

/-- A part whose result is gone on with, whether it is a value or a failure. -/
theorem inTandem_outcome {mid : γ → δ → Prop} {p : Pass γ} {q : Pass δ} {k : Except Failure γ → Pass α}
    {k' : Except Failure δ → Pass β} (h : InTandem mid c p q)
    (hk : ∀ c' r r', Concur mid r r' → InTandem rel c' (k r) (k' r')) :
    InTandem rel c (p.outcome >>= k) (q.outcome >>= k') := by
  have houtcome : InTandem (Concur mid) c p.outcome q.outcome :=
    Tandem.bind h fun c' r r' hconcur => .done (.ok hconcur)
  exact inTandem_bind houtcome hk

theorem inTandem_liftRead {rel : α → α → Prop} (read : Except Fault α) (h : ∀ a, rel a a) :
    InTandem rel c (liftM read : Pass α) (liftM read) := by
  cases read with
  | ok a => exact .done (.ok (h a))
  | error f => exact .done (.error f none none)

/-- A reading of an object is the same on both sides. -/
theorem inTandem_read {read : Except Fault γ} {k : γ → Pass α} {k' : γ → Pass β}
    (hk : ∀ a, read = .ok a → InTandem rel c (k a) (k' a)) :
    InTandem rel c (liftM read >>= k) (liftM read >>= k') := by
  cases read with
  | ok a => exact hk a rfl
  | error f => exact .done (.error f none none)

theorem inTandem_tell {t t' : Trace} {k : Unit → Pass α} {k' : Unit → Pass β}
    (hnext : InTandem rel c (k ()) (k' ())) :
    InTandem rel c (liftM (SafePass.trace t) >>= k) (liftM (SafePass.trace t') >>= k') :=
  .trace hnext

theorem inTandem_log {kind : String} {level : Level} {metadata : Value} {r : Remark} :
    InTandem Eq c (log kind level metadata r) (log kind level metadata r) := by
  unfold log
  exact inTandem_read fun id _ => .trace (.done (.ok rfl))

/-- A note about something, gone on with. -/
theorem inTandem_note {kind : String} {level : Level} {metadata : Value} {r : Remark} {k : Unit → Pass α}
    {k' : Unit → Pass β} (hnext : InTandem rel c (k ()) (k' ())) :
    InTandem rel c (log kind level metadata r >>= k) (log kind level metadata r >>= k') := by
  unfold log
  rw [bind_assoc, bind_assoc]
  exact inTandem_read fun id _ => inTandem_tell hnext

/-- Two passes that ask for the time hear the same time. -/
theorem inTandem_now {k : Instant → Pass α} {k' : Instant → Pass β}
    (hnext : ∀ now, InTandem rel c (k now) (k' now)) :
    InTandem rel c (liftM SafePass.instant >>= k) (liftM SafePass.instant >>= k') :=
  .aside nofun fun now _ => hnext now

/-- Two passes that decide alike go together if they do in either case. -/
theorem inTandem_branch {b b' : Bool} {p p' : Pass α} {q q' : Pass β} (hb : b = b')
    (htrue : b = true → InTandem rel c p q) (hfalse : b = false → InTandem rel c p' q') :
    InTandem rel c (if b then p else p') (if b' then q else q') := by
  subst hb
  cases b with
  | true => exact htrue rfl
  | false => exact hfalse rfl

/-- What is built without calls is the same. -/
theorem inTandem_built {holds : γ → Prop} {p : Pass γ} {k : γ → Pass α} {k' : γ → Pass β}
    (h : Pass.Ensures reliable (fun _ _ => False) (fun _ r => ∀ a, r = .ok a → holds a) p c)
    (hk : ∀ a, holds a → InTandem rel c (k a) (k' a)) : InTandem rel c (p >>= k) (p >>= k') := by
  refine tandem_built h ?_
  intro r hholds
  cases r with
  | ok a => exact hk a (hholds a rfl)
  | error f => exact .done (.error f.fault _ _)

/-- A call whose failure is looked at: both see the same fault. -/
theorem inTandem_attempt {call : StoreCall} {k : Except Failure Value → Pass α}
    {k' : Except Failure Value → Pass β} (hapt : Apt c call)
    (hok : ∀ v, c.reported call = .ok v → InTandem rel (c.perform call).2 (k (.ok v)) (k' (.ok v)))
    (herror : ∀ f source source', InTandem rel (c.perform call).2 (k (.error ⟨f, source⟩))
      (k' (.error ⟨f, source'⟩))) :
    InTandem rel c ((Pass.call call).outcome >>= k) ((Pass.call call).outcome >>= k') := by
  refine .store hapt ?_
  intro reply hconcur
  -- what the cluster reports is what the second hears, and the first hears what concurs with it
  generalize hreported : c.reported call = reply' at hconcur hok ⊢
  cases hconcur with
  | ok hsame =>
    subst hsame
    exact hok _ rfl
  | error f source source' => exact herror f source source'

/-- A call that has to succeed. If it fails, so do both passes. -/
theorem inTandem_must {call : StoreCall} {k : Value → Pass α} {k' : Value → Pass β} (hapt : Apt c call)
    (hok : ∀ v, c.reported call = .ok v → InTandem rel (c.perform call).2 (k v) (k' v)) :
    InTandem rel c (Pass.call call >>= k) (Pass.call call >>= k') := by
  refine .store hapt ?_
  intro reply hconcur
  generalize hreported : c.reported call = reply' at hconcur hok ⊢
  cases hconcur with
  | ok hsame =>
    subst hsame
    exact hok _ rfl
  | error f source source' => exact .done (.error f source source')

end Pass

/-! ## Reconciliations -/

/-- Two directives that are the same, but for what a failure was made from. -/
inductive Directive.Concur : Directive → Directive → Prop where
  | same (d : Directive) : Concur d d
  | failed (f : Fault) (source source' : Option Fault) :
      Concur (.failed (some ⟨f, source⟩)) (.failed (some ⟨f, source'⟩))

namespace Handler

variable {settings : Settings} {h : Handler} {id : Identity} {c : Cluster}

theorem time_tandem (start start' : Rat) :
    Tandem Eq c (h.time settings start) (h.time settings start') :=
  .aside nofun fun _ _ => .trace (.done rfl)

theorem fail_tandem (f : Fault) (source source' : Option Fault) :
    Tandem Directive.Concur c (h.fail id ⟨f, source⟩) (h.fail id ⟨f, source'⟩) := by
  unfold Handler.fail
  -- what is logged differs, and then both count
  refine tandem_branch rfl (fun _ => ?_) fun _ => ?_
  · exact tandem_tell _ _ (tandem_tell _ _ (tandem_tell _ _ (.done (.failed f source source'))))
  · exact tandem_tell _ _ (tandem_tell _ _ (tandem_tell _ _ (.done (.failed f source source'))))

theorem finish_tandem {d d' : Directive} (hd : d.Concur d') :
    Tandem Directive.Concur c (h.finish id d) (h.finish id d') := by
  cases hd with
  | same =>
    unfold Handler.finish
    split
    · next f => exact fail_tandem f.fault _ _
    · exact tandem_tell _ _ (.done (.same _))
  | failed f source source' => exact fail_tandem f source source'

/-- What follows a pass depends on what went wrong in it only. -/
theorem conclude_tandem (start start' : Rat) {r r' : Except Failure Directive}
    (hr : Reconciler.Concur Directive.Concur r r') :
    Tandem Directive.Concur c (h.conclude settings id start r) (h.conclude settings id start' r') := by
  -- however long each of them took, both are timed and finished alike
  have htime_finish : ∀ {c d d'}, Directive.Concur d d' → Tandem Directive.Concur c
      (do h.time settings start; h.finish id d) (do h.time settings start'; h.finish id d') :=
    fun hd => (time_tandem start start').bind fun _ _ _ _ => finish_tandem hd
  cases hr with
  | ok hd => exact tandem_tell _ _ (htime_finish hd)
  | error f source source' =>
    refine tandem_tell _ _ ?_
    refine tandem_branch rfl (fun _ => ?_) fun _ => tandem_branch rfl (fun _ => ?_) fun _ => ?_
    · -- the resource is gone
      exact tandem_tell _ _ (htime_finish (.same .done))
    · -- a conflict, so the pass is made again
      refine tandem_tell _ _ (tandem_tell _ _ ?_)
      exact (time_tandem start start').bind fun _ _ _ _ => .done (.same _)
    · refine (fail_tandem f source source').bind ?_
      intro c' d d' hd
      exact (time_tandem start start').bind fun _ _ _ _ => .done hd

/-- A reconciliation goes together when its pass does. -/
theorem reconcile_tandem (settings : Settings)
    (hpass : Pass.InTandem Directive.Concur c (h.converge id) (h.converge id)) :
    Tandem Directive.Concur c (h.reconcile settings id) (h.reconcile settings id) := by
  rw [Handler.reconcile_eq]
  refine .aside nofun fun start _ => ?_
  refine tandem_tell _ _ ?_
  refine Tandem.bind hpass ?_
  intro c' r r' hr
  exact conclude_tandem start start hr

end Handler

end Reconciler
