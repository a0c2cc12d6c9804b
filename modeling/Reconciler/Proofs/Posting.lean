import Reconciler.Proofs.Reliable

/-! # The events of passes that nothing gets in the way of

The environment of a pass may keep a list of the events it posts. What a pass does when nothing gets in its
way is then shown together with its events, line by line and by the same rules as without them.

* `posting`: an environment that keeps events;
* `Posts`: a pass succeeds, and its events and its result meet a condition;
* `posts_iff_comes`: who does not look at the events sees a pass that nothing gets in the way of;
* `Posts.reconcile`: reconciling posts no events of its own.
-/

namespace Reconciler

open Cluster

def PassOp.events : PassOp → List ClusterEvent
  | .trace (.event e) => [e]
  | _ => []

/-- An environment in which store calls are answered in a given way, and that keeps the events. -/
def posting {σ : Type} (answers : Answering σ) : Responder passSignature (σ × List ClusterEvent) :=
  fun s op reply s' => facing answers s.1 op reply s'.1 ∧ s'.2 = s.2 ++ op.events

/-- What is asked of a pass against a store that does not fail: that it succeeds, and that the events so far
and its result meet a condition. -/
abbrev Posts {α : Type} (post : Cluster → List ClusterEvent → α → Prop) (p : Pass α) (c : Cluster)
    (events : List ClusterEvent) : Prop :=
  Program.Ensures (posting reliable) (fun _ _ => True)
    (fun s r => ∃ a, r = .ok a ∧ post s.1 s.2 a) p.run (c, events)

variable {α β : Type} {post post' : Cluster → List ClusterEvent → α → Prop} {c c' : Cluster}
variable {events : List ClusterEvent} {v : Value}

/-- Who does not look at the events does not notice that they are kept. -/
theorem Program.ensures_posting {σ : Type} {answers : Answering σ} {post : σ → α → Prop}
    {p : SafePass α} {s : σ × List ClusterEvent} :
    Program.Ensures (posting answers) (fun _ _ => True) (fun s a => post s.1 a) p s ↔
      Program.Ensures (facing answers) (fun _ _ => True) post p s.1 := by
  induction p generalizing s with
  | done a => rfl
  | ask op next ih =>
    constructor
    · rintro ⟨-, hnext⟩
      -- the events that are kept are determined by the question
      refine ⟨trivial, fun answer s' hanswer => ?_⟩
      exact (ih answer).mp (hnext answer (s', s.2 ++ op.events) ⟨hanswer, rfl⟩)
    · rintro ⟨-, hnext⟩
      exact ⟨trivial, fun answer s' hanswer => (ih answer).mpr (hnext answer s'.1 hanswer.1)⟩

/-- Without its events, the pass is one that nothing gets in the way of. -/
theorem posts_iff_comes {post : Cluster → α → Prop} {p : Pass α} (events : List ClusterEvent) :
    Posts (fun c' _ a => post c' a) p c events ↔ Comes post p c := by
  have hposting := @Program.ensures_posting _ _ reliable (fun c' r => ∃ a, r = Except.ok a ∧ post c' a)
    p.run (c, events)
  refine hposting.trans ⟨fun h => ?_, fun h => ?_⟩
  · refine Program.Ensures.mono h ?_ fun _ _ hpost => hpost
    intro _ op _
    cases op <;> trivial
  · exact Program.Ensures.mono h (fun _ _ _ => trivial) fun _ _ hpost => hpost

theorem Posts.mono {p : Pass α} (h : Posts post p c events)
    (hpost : ∀ c' events' a, post c' events' a → post' c' events' a) : Posts post' p c events := by
  refine Program.Ensures.mono h (fun _ _ _ => trivial) ?_
  rintro ⟨c', events'⟩ r ⟨a, rfl, ha⟩
  exact ⟨a, rfl, hpost c' events' a ha⟩

/-! ## Rules -/

/-- A question that is put aside: it changes nothing, and posts nothing. -/
theorem Program.ensures_aside {σ : Type} {answers : Answering σ}
    {post : σ × List ClusterEvent → α → Prop} {op : PassOp} {next : op.Answer → SafePass α} {s : σ}
    (hsame : ∀ reply s', facing answers s op reply s' → s' = s) (hnone : op.events = [])
    (hnext : ∀ reply, Program.Ensures (posting answers) (fun _ _ => True) post (next reply)
      (s, events)) :
    Program.Ensures (posting answers) (fun _ _ => True) post
      (.ask (S := passSignature) op next) (s, events) := by
  refine ⟨trivial, ?_⟩
  rintro reply ⟨s', events'⟩ ⟨hafter, hevents⟩
  obtain rfl : s' = s := hsame reply s' hafter
  have hkept : events' = events ++ op.events := hevents
  rw [hnone, List.append_nil] at hkept
  subst hkept
  exact hnext reply

/-- A call that is not refused: the object is handed on. -/
theorem Program.ensures_performed {call : StoreCall} {next : Except Failure Value → SafePass α}
    {post : Cluster × List ClusterEvent → α → Prop} (h : c.perform call = (.ok v, c'))
    (hnext : Program.Ensures (posting reliable) (fun _ _ => True) post (next (.ok v)) (c', events)) :
    Program.Ensures (posting reliable) (fun _ _ => True) post
      (.ask (S := passSignature) (.store call) next) (c, events) := by
  have hreported : c.reported call = .ok v := reported_eq_ok.mpr (by rw [h])
  refine ⟨trivial, ?_⟩
  rintro reply ⟨c'', events'⟩ ⟨⟨rfl, hafter⟩, hevents⟩
  obtain rfl : c'' = c' := hafter.trans (by rw [h])
  obtain rfl : events' = events := hevents.trans (List.append_nil events)
  rw [hreported]
  exact hnext

theorem posts_pure {a : α} (h : post c events a) : Posts post (pure a) c events :=
  ⟨a, rfl, h⟩

/-- One pass after another: the second goes on with the events of the first. -/
theorem posts_bind {post : Cluster → List ClusterEvent → β → Prop} {p : Pass α} {k : α → Pass β}
    (h : Posts (fun c' events' a => Posts post (k a) c' events') p c events) :
    Posts post (p >>= k) c events := by
  refine (Program.ensures_bind _ _ _).mpr (Program.Ensures.mono h (fun _ _ _ => trivial) ?_)
  rintro ⟨c', events'⟩ r ⟨a, rfl, ha⟩
  exact ha

theorem posts_value {post : Cluster → List ClusterEvent → β → Prop} {read : Except Fault α}
    {k : α → Pass β} {a : α} (h : read = .ok a) (hnext : Posts post (k a) c events) :
    Posts post (liftM read >>= k) c events := by
  subst h
  exact posts_bind (posts_pure hnext)

/-- A call posts no event. -/
theorem posts_call {call : StoreCall} {k : Value → Pass β}
    {post : Cluster → List ClusterEvent → β → Prop} (h : c.perform call = (.ok v, c'))
    (hnext : Posts post (k v) c' events) : Posts post (Pass.call call >>= k) c events :=
  Program.ensures_performed h hnext

/-- A call of a pass that would go on if it were refused. -/
theorem posts_answered {call : StoreCall} {k : Except Failure Value → Pass β}
    {post : Cluster → List ClusterEvent → β → Prop} (h : c.perform call = (.ok v, c'))
    (hnext : Posts post (k (.ok v)) c' events) :
    Posts post ((Pass.call call).outcome >>= k) c events :=
  Program.ensures_performed h hnext

theorem posts_count {n : Counter} {k : Unit → Pass β}
    {post : Cluster → List ClusterEvent → β → Prop} (hnext : Posts post (k ()) c events) :
    Posts post (liftM (SafePass.count n) >>= k) c events :=
  Program.ensures_aside (fun _ _ hafter => hafter) rfl fun _ => hnext

/-- An event is posted. -/
theorem posts_post {e : ClusterEvent} {k : Unit → Pass β}
    {post : Cluster → List ClusterEvent → β → Prop} (hnext : Posts post (k ()) c (events ++ [e])) :
    Posts post (liftM (SafePass.post e) >>= k) c events := by
  refine ⟨trivial, ?_⟩
  rintro ⟨⟩ ⟨c', events'⟩ ⟨hafter, rfl⟩
  obtain rfl : c' = c := hafter
  exact hnext

/-- A note about a resource with a name does not fail. -/
theorem posts_log {kind key : String} {level : Level} {metadata : Value} {r : Remark}
    {post : Cluster → List ClusterEvent → Unit → Prop} (h : metadata.field? key = some v)
    (hpost : post c events ()) : Posts post (Pass.log kind level metadata r) c events := by
  rcases loggedIdentity_of_field? h with ⟨id, hid⟩
  unfold Pass.log
  rw [hid]
  exact Program.ensures_aside (fun _ _ hafter => hafter) rfl fun _ => ⟨(), rfl, hpost⟩

/-- Nor does an entry in a log, of metadata that can be named there. -/
theorem posts_note {kind key : String} {level : Level} {metadata : Value} {r : Remark}
    {k : Unit → Pass β} {post : Cluster → List ClusterEvent → β → Prop}
    (h : metadata.field? key = some v) (hnext : Posts post (k ()) c events) :
    Posts post (Pass.log kind level metadata r >>= k) c events :=
  posts_bind (posts_log h hnext)

/-! ## Reconciling -/

/-- A reconciliation of a pass that does not fail posts the events of the pass, and comes to its
directive. -/
theorem Posts.reconcile {post : Cluster → List ClusterEvent → Directive → Prop} {h : Handler}
    {id : Identity} (settings : Settings)
    (hposts : Posts (fun c' events' d => (∀ f, d ≠ .failed (some f)) ∧ post c' events' d)
      (h.converge id) c events) :
    Program.Ensures (posting reliable) (fun _ _ => True) (fun s d => post s.1 s.2 d)
      (h.reconcile settings id) (c, events) := by
  refine Program.ensures_aside (fun _ _ hafter => hafter) rfl fun start => ?_
  refine Program.ensures_aside (fun _ _ hafter => hafter) rfl fun _ => ?_
  refine (Program.ensures_bind (h.converge id).run _ (c, events)).mpr ?_
  refine Program.Ensures.mono hposts (fun _ _ _ => trivial) ?_
  rintro ⟨c', events'⟩ r ⟨d, rfl, hok, hpost⟩
  -- the span is closed, and the time of the pass and its directive are counted
  refine Program.ensures_aside (fun _ _ hafter => hafter) rfl fun _ => ?_
  refine Program.ensures_aside (fun _ _ hafter => hafter) rfl fun now => ?_
  refine Program.ensures_aside (fun _ _ hafter => hafter) rfl fun _ => ?_
  cases d with
  | failed error =>
    cases error with
    | none => exact Program.ensures_aside (fun _ _ hafter => hafter) rfl fun _ => hpost
    | some f => exact absurd rfl (hok f)
  | _ => exact Program.ensures_aside (fun _ _ hafter => hafter) rfl fun _ => hpost

end Reconciler
