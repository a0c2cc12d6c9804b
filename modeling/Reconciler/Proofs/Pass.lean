import Reconciler.Handler.Reconcile
import Reconciler.Proofs.Program
import Mathlib.Data.List.Perm.Subperm

/-! # Reasoning about passes

A pass asks five kinds of questions, and only its store calls matter to the cluster. So an environment of
a pass is given by the way store calls are answered; the time, random characters and what is left
behind may be answered in any way the asked component can, and change nothing.

Main definitions and statements:

* `RandomOp.Lawful`: what a source of randomness may answer;
* `facing`: the environment of a pass with a way of answering store calls;
* `Pass.Ensures`, `SafePass.Ensures`: what a pass does in such an environment, with one rule for each way
  a pass is built;
* `Handler.reconcile_ensures`: reconciling a resource makes the store calls of its pass, and comes to the
  directive that `Handler.directiveOf` reads off the result.
-/

namespace Reconciler

/-- What a source of randomness may answer: a draw that is not refused has as many characters as asked
for, at distinct positions of the pool; shuffling only moves characters. -/
def RandomOp.Lawful : (op : RandomOp) → op.Answer → Prop
  | .source, _ => True
  | .sample pool count, (reply : Except Fault (List Char)) =>
    if RandomOp.refuses pool count then reply = .error RandomOp.refusal
    else ∃ chars : List Char, reply = .ok chars ∧ chars.length = count ∧ chars.Subperm pool
  | .shuffle chars, (reply : List Char) => reply.Perm chars

/-- A draw may be answered with the beginning of the pool, when that is long enough. -/
theorem RandomOp.lawful_take (pool : List Char) (count : Int) :
    (RandomOp.sample pool count).Lawful
      (if RandomOp.refuses pool count then Except.error RandomOp.refusal
        else Except.ok (pool.take count.toNat) : Except Fault (List Char)) := by
  unfold Lawful
  by_cases hrefused : RandomOp.refuses pool count = true
  · simp [hrefused]
  · have hfits : 0 ≤ count ∧ count ≤ pool.length := by
      simpa [RandomOp.refuses] using hrefused
    simp only [if_neg hrefused]
    refine ⟨_, rfl, ?_, (List.take_sublist _ _).subperm⟩
    simp
    omega

/-- A way of answering store calls: the state before, the call, the answer, and the state after. -/
abbrev Answering (σ : Type) : Type :=
  σ → StoreCall → Except Failure Value → σ → Prop

/-- The environment of a pass whose store calls are answered in a given way. -/
def facing {σ : Type} (answers : Answering σ) : Responder passSignature σ
  | s, .store call, reply, s' => answers s call reply s'
  | s, .random op, reply, s' => op.Lawful reply ∧ s' = s
  | s, .instant, _, s' => s' = s
  | s, .seconds, _, s' => s' = s
  | s, .trace _, _, s' => s' = s

variable {σ α β : Type} {answers : Answering σ} {may may' : σ → StoreCall → Prop}

/-- The store calls a pass may make, as a condition on all its questions. -/
def storeOnly (may : σ → StoreCall → Prop) (s : σ) : PassOp → Prop
  | .store call => may s call
  | _ => True

namespace SafePass

variable {post post' : σ → α → Prop}

/-- Whatever is answered, a pass that cannot fail only makes store calls it may, and its result meets a
condition. -/
def Ensures (answers : Answering σ) (may : σ → StoreCall → Prop) (post : σ → α → Prop)
    (p : SafePass α) (s : σ) : Prop :=
  Program.Ensures (facing answers) (storeOnly may) post p s

theorem ensures_pure (a : α) (s : σ) : Ensures answers may post (pure a : SafePass α) s ↔ post s a :=
  Iff.rfl

/-- A sequence is asked for in two parts: what comes first ensures what is asked of the rest. -/
theorem ensures_bind {post : σ → β → Prop} (p : SafePass α) (k : α → SafePass β) (s : σ) :
    Ensures answers may post (p >>= k) s ↔
      Ensures answers may (fun s' a => Ensures answers may post (k a) s') p s :=
  Program.ensures_bind p k s

theorem ensures_trace {post : σ → Unit → Prop} (t : Trace) (s : σ) :
    Ensures answers may post (trace t) s ↔ post s () := by
  constructor
  · intro h
    exact h.2 () s rfl
  · intro h
    refine ⟨trivial, ?_⟩
    rintro ⟨⟩ s' rfl
    exact h

theorem ensures_count {post : σ → Unit → Prop} (c : Counter) (s : σ) :
    Ensures answers may post (count c) s ↔ post s () :=
  ensures_trace _ s

theorem ensures_log {post : σ → Unit → Prop} (kind : String) (level : Level) (id : Identity)
    (r : Remark) (s : σ) :
    Ensures answers may post (log kind level id r) s ↔ post s () :=
  ensures_trace _ s

/-- The time may be anything. -/
theorem ensures_instant {post : σ → Instant → Prop} (s : σ) :
    Ensures answers may post instant s ↔ ∀ now, post s now := by
  constructor
  · intro h now
    exact h.2 now s rfl
  · intro h
    refine ⟨trivial, ?_⟩
    rintro now s' rfl
    exact h now

theorem ensures_seconds {post : σ → Rat → Prop} (s : σ) :
    Ensures answers may post seconds s ↔ ∀ now, post s now := by
  constructor
  · intro h now
    exact h.2 now s rfl
  · intro h
    refine ⟨trivial, ?_⟩
    rintro now s' rfl
    exact h now

theorem Ensures.mono {p : SafePass α} {s : σ} (h : Ensures answers may post p s)
    (hmay : ∀ s c, may s c → may' s c) (hpost : ∀ s a, post s a → post' s a) :
    Ensures answers may' post' p s := by
  refine Program.Ensures.mono h ?_ hpost
  intro s op hop
  cases op with
  | store call => exact hmay s call hop
  | _ => trivial

/-- What every permitted store call keeps holds at every point of a run. -/
theorem Ensures.invariant {I : σ → Prop} {p q : SafePass α} {s t : σ}
    (hp : Ensures answers may post p s) (hrun : Program.Leads (facing answers) p s q t) (hs : I s)
    (hstep : ∀ s call reply s', I s → may s call → answers s call reply s' → I s') : I t := by
  refine hrun.invariant hp hs ?_
  intro s op answer s' hold hmay hanswer
  -- a store call is the only question after which the state may be another one
  cases op with
  | store call => exact hstep s call answer s' hold hmay hanswer
  | random op =>
    obtain rfl : s' = s := hanswer.2
    exact hold
  | instant | seconds | trace =>
    obtain rfl : s' = s := hanswer
    exact hold

theorem ensures_congr {p : SafePass α} {s : σ} (hpost : ∀ s a, post s a ↔ post' s a) :
    Ensures answers may post p s ↔ Ensures answers may post' p s := by
  constructor
  · intro h
    exact h.mono (fun _ _ hc => hc) fun s' a => (hpost s' a).mp
  · intro h
    exact h.mono (fun _ _ hc => hc) fun s' a => (hpost s' a).mpr

end SafePass

namespace Pass

variable {post post' : σ → Except Failure α → Prop}

/-- Whatever is answered, a pass only makes store calls it may, and its result, a value or a failure,
meets a condition. -/
def Ensures (answers : Answering σ) (may : σ → StoreCall → Prop)
    (post : σ → Except Failure α → Prop) (p : Pass α) (s : σ) : Prop :=
  SafePass.Ensures answers may post p.run s

/-- What is asked of the result of the first part of a sequence: a value is gone on with, a failure is
the failure of the sequence. -/
def andThen (answers : Answering σ) (may : σ → StoreCall → Prop)
    (post : σ → Except Failure β → Prop) (k : α → Pass β) (s : σ) : Except Failure α → Prop
  | .ok a => Ensures answers may post (k a) s
  | .error f => post s (.error f)

theorem ensures_pure (a : α) (s : σ) :
    Ensures answers may post (pure a : Pass α) s ↔ post s (.ok a) :=
  Iff.rfl

/-- A sequence is asked for in two parts, and a failure of the first part skips the second. -/
theorem ensures_bind {post : σ → Except Failure β → Prop} (p : Pass α) (k : α → Pass β) (s : σ) :
    Ensures answers may post (p >>= k) s ↔
      Ensures answers may (andThen answers may post k) p s := by
  refine (SafePass.ensures_bind _ _ s).trans (SafePass.ensures_congr ?_)
  -- a failure ends the sequence, a value goes on with it
  rintro s' (f | a)
  · rfl
  · rfl

/-- A read ensures what its value or its failure meets. -/
theorem ensures_lift (read : Except Fault α) (s : σ) :
    Ensures answers may post (lift read) s ↔ post s (read.mapError fun f => ⟨f, none⟩) := by
  cases read with
  | ok a => rfl
  | error f => rfl

theorem ensures_liftRead (read : Except Fault α) (s : σ) :
    Ensures answers may post (liftM read : Pass α) s ↔ post s (read.mapError fun f => ⟨f, none⟩) :=
  ensures_lift read s

theorem ensures_liftSafe (p : SafePass α) (s : σ) :
    Ensures answers may post (liftM p : Pass α) s ↔
      SafePass.Ensures answers may (fun s' a => post s' (.ok a)) p s :=
  SafePass.ensures_bind p _ s

/-- A call has to be permitted, and may be answered in any way in which the store answers. -/
theorem ensures_call {post : σ → Except Failure Value → Prop} (c : StoreCall) (s : σ) :
    Ensures answers may post (call c) s ↔
      may s c ∧ ∀ reply s', answers s c reply s' → post s' reply :=
  Iff.rfl

/-- A pass whose failures are looked at does not fail. -/
theorem ensures_outcome {post : σ → Except Failure (Except Failure α) → Prop} (p : Pass α) (s : σ) :
    Ensures answers may post (outcome p) s ↔
      Ensures answers may (fun s' r => post s' (.ok r)) p s :=
  SafePass.ensures_bind p _ s

/-- An entry in a log needs metadata in which the object can be found. -/
theorem ensures_log {post : σ → Except Failure Unit → Prop} (kind : String) (level : Level)
    (metadata : Value) (r : Remark) (s : σ) :
    Ensures answers may post (log kind level metadata r) s ↔
      post s ((loggedIdentity metadata).mapError (fun f => ⟨f, none⟩) |>.map fun _ => ()) := by
  rw [log, ensures_bind, ensures_lift]
  cases loggedIdentity metadata with
  | ok id => exact (ensures_liftSafe _ s).trans (SafePass.ensures_trace _ s)
  | error f => rfl

theorem Ensures.mono {p : Pass α} {s : σ} (h : Ensures answers may post p s)
    (hmay : ∀ s c, may s c → may' s c) (hpost : ∀ s r, post s r → post' s r) :
    Ensures answers may' post' p s :=
  SafePass.Ensures.mono h hmay hpost

/-! ### Steps of a pass

The rules that go through a pass line by line: what comes first, and what is to be shown of the rest. -/

/-- A reading that has to succeed for the pass to go on. -/
theorem ensures_read {post : σ → Except Failure β → Prop} {read : Except Fault α} {k : α → Pass β}
    {s : σ} (hok : ∀ a, read = .ok a → Ensures answers may post (k a) s)
    (herror : ∀ f, read = .error f → post s (.error ⟨f, none⟩)) :
    Ensures answers may post (liftM read >>= k) s := by
  rw [ensures_bind, ensures_liftRead]
  cases read with
  | ok a => exact hok a rfl
  | error f => exact herror f rfl

/-- A read whose value is known. -/
theorem ensures_value {post : σ → Except Failure β → Prop} {read : Except Fault α} {k : α → Pass β}
    {s : σ} {a : α} (h : read = .ok a) (hnext : Ensures answers may post (k a) s) :
    Ensures answers may post (liftM read >>= k) s := by
  rw [ensures_bind, ensures_liftRead, h]
  exact hnext

/-- A call that is looked at whatever comes of it. -/
theorem ensures_attempt {post : σ → Except Failure β → Prop} {c : StoreCall}
    {k : Except Failure Value → Pass β} {s : σ} (hmay : may s c)
    (hnext : ∀ reply s', answers s c reply s' → Ensures answers may post (k reply) s') :
    Ensures answers may post ((call c).outcome >>= k) s := by
  rw [ensures_bind, ensures_outcome, ensures_call]
  exact ⟨hmay, hnext⟩

/-- A call that has to succeed for the pass to go on. -/
theorem ensures_must {post : σ → Except Failure β → Prop} {c : StoreCall} {k : Value → Pass β}
    {s : σ} (hmay : may s c)
    (hok : ∀ v s', answers s c (.ok v) s' → Ensures answers may post (k v) s')
    (herror : ∀ f s', answers s c (.error f) s' → post s' (.error f)) :
    Ensures answers may post (call c >>= k) s := by
  rw [ensures_bind, ensures_call]
  refine ⟨hmay, ?_⟩
  rintro (f | v) s' hanswer
  · exact herror f s' hanswer
  · exact hok v s' hanswer

theorem ensures_tell {post : σ → Except Failure β → Prop} {t : Trace} {k : Unit → Pass β} {s : σ}
    (hnext : Ensures answers may post (k ()) s) :
    Ensures answers may post (liftM (SafePass.trace t) >>= k) s := by
  rw [ensures_bind, ensures_liftSafe, SafePass.ensures_trace]
  exact hnext

/-- An entry in a log with what follows it. It fails if the object cannot be named. -/
theorem ensures_note {post : σ → Except Failure β → Prop} {kind : String} {level : Level}
    {metadata : Value} {r : Remark} {k : Unit → Pass β} {s : σ}
    (hnext : Ensures answers may post (k ()) s)
    (herror : ∀ f, loggedIdentity metadata = .error f → post s (.error ⟨f, none⟩)) :
    Ensures answers may post (log kind level metadata r >>= k) s := by
  rw [ensures_bind, ensures_log]
  cases h : loggedIdentity metadata with
  | ok id => exact hnext
  | error f => exact herror f h

theorem ensures_now {post : σ → Except Failure β → Prop} {k : Instant → Pass β} {s : σ}
    (hnext : ∀ now, Ensures answers may post (k now) s) :
    Ensures answers may post (liftM SafePass.instant >>= k) s := by
  rw [ensures_bind, ensures_liftSafe, SafePass.ensures_instant]
  exact hnext

end Pass

/-! ## Reconciling -/

namespace Handler

/-- The directive that a reconciliation comes to when its pass has a result. -/
def directiveOf (h : Handler) (id : Identity) : Except Failure Directive → Directive
  | .ok directive => directive
  | .error f =>
    if h.missesItself id f then .done
    else if f.belongsTo .conflict then .requeueNow
    else .failed (some f)

/-- Timing a pass asks nothing of the store. -/
theorem time_ensures {post : σ → Unit → Prop} (settings : Settings) (h : Handler) (start : Rat)
    (s : σ) : SafePass.Ensures answers may post (h.time settings start) s ↔ post s () := by
  simp only [time, SafePass.ensures_bind, SafePass.ensures_seconds, SafePass.ensures_trace]
  exact ⟨fun hpost => hpost 0, fun hpost _ => hpost⟩

/-- Nor does reporting a failure, which is the directive. -/
theorem fail_ensures {post : σ → Directive → Prop} (h : Handler) (id : Identity) (f : Failure)
    (s : σ) :
    SafePass.Ensures answers may post (h.fail id f) s ↔ post s (.failed (some f)) := by
  unfold fail
  split
  · simp only [SafePass.ensures_bind, SafePass.ensures_log, SafePass.ensures_count,
      SafePass.ensures_pure]
  · simp only [SafePass.ensures_bind, SafePass.ensures_log, SafePass.ensures_count,
      SafePass.ensures_pure]

/-- Nor does counting the directive, which stays what it is. -/
theorem finish_ensures {post : σ → Directive → Prop} (h : Handler) (id : Identity)
    (directive : Directive) (s : σ) :
    SafePass.Ensures answers may post (h.finish id directive) s ↔ post s directive := by
  unfold finish
  split
  · exact fail_ensures h id _ s
  · simp only [SafePass.ensures_bind, SafePass.ensures_count, SafePass.ensures_pure]

/-- Reconciling makes the store calls of the pass, and reads its directive off the result. -/
theorem reconcile_ensures {post : σ → Directive → Prop} (settings : Settings) (h : Handler)
    (id : Identity) (s : σ) :
    SafePass.Ensures answers may post (h.reconcile settings id) s ↔
      Pass.Ensures answers may (fun s' r => post s' (h.directiveOf id r)) (h.converge id) s := by
  simp only [reconcile, SafePass.ensures_bind, SafePass.ensures_seconds, SafePass.ensures_trace]
  -- the time at which the pass starts does not matter to what it does
  refine Iff.trans (b := ∀ _ : Rat, Pass.Ensures answers may
    (fun s' r => post s' (h.directiveOf id r)) (h.converge id) s) ?_ (forall_const Rat)
  refine forall_congr' fun start => SafePass.ensures_congr ?_
  -- a failure is sorted by its class: the resource is gone, a conflict, or anything else
  rintro s' (f | directive)
  · simp only [SafePass.ensures_bind, SafePass.ensures_trace, directiveOf]
    split
    · simp only [SafePass.ensures_bind, SafePass.ensures_log, time_ensures, finish_ensures]
    · split
      · simp only [SafePass.ensures_bind, SafePass.ensures_log, SafePass.ensures_count,
          time_ensures, SafePass.ensures_pure]
      · simp only [SafePass.ensures_bind, fail_ensures, time_ensures, SafePass.ensures_pure]
  · simp only [SafePass.ensures_bind, SafePass.ensures_trace, time_ensures, finish_ensures,
      directiveOf]

end Handler

end Reconciler
