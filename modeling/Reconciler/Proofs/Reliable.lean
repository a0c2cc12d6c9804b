import Reconciler.Proofs.Interleaving

/-! # Passes that nothing gets in the way of

Against a store that only fails when a call is refused, and with nobody else at work, the answers to all
calls are known from the cluster. So a pass can be gone through line by line, with one rule for each
call: what it answers with, and what the cluster is by then.

* `Comes`: a pass succeeds, and its result meets a condition;
* `comes_call`, `comes_answered`, `comes_refused`: the rules for calls;
* `Comes.reconcile`: a pass that succeeds is reconciled with its own directive.
-/

namespace Reconciler

open Cluster

variable {α : Type} {post post' : Cluster → α → Prop} {c c' : Cluster} {v : Value}

/-- What is asked of a pass against a store that does not fail: that it succeeds, and that its result
meets a condition. -/
abbrev Comes (post : Cluster → α → Prop) (p : Pass α) (c : Cluster) : Prop :=
  Pass.Ensures reliable (fun _ _ => True) (fun c' r => ∃ a, r = .ok a ∧ post c' a) p c

theorem Comes.mono {p : Pass α} (h : Comes post p c) (hpost : ∀ c' a, post c' a → post' c' a) :
    Comes post' p c := by
  refine Pass.Ensures.mono h (fun _ _ _ => trivial) ?_
  rintro c' r ⟨a, rfl, ha⟩
  exact ⟨a, rfl, hpost c' a ha⟩

theorem comes_pure {a : α} (h : post c a) : Comes post (pure a) c :=
  ⟨a, rfl, h⟩

/-- A sequence succeeds when its first part does, and the second after it. -/
theorem comes_bind {β : Type} {post : Cluster → β → Prop} {p : Pass α} {k : α → Pass β}
    (h : Comes (fun c' a => Comes post (k a) c') p c) : Comes post (p >>= k) c := by
  rw [Comes, Pass.ensures_bind]
  refine Pass.Ensures.mono h (fun _ _ _ => trivial) ?_
  rintro c' r ⟨a, rfl, ha⟩
  exact ha

/-- A part that succeeds is gone on with, also by a pass that would go on without it. -/
theorem comes_outcome {β : Type} {post : Cluster → β → Prop} {p : Pass α}
    {k : Except Failure α → Pass β} (h : Comes (fun c' a => Comes post (k (.ok a)) c') p c) :
    Comes post (p.outcome >>= k) c := by
  rw [Comes, Pass.ensures_bind, Pass.ensures_outcome]
  refine Pass.Ensures.mono h (fun _ _ _ => trivial) ?_
  rintro c' r ⟨a, rfl, ha⟩
  exact ha

/-! ## Calls -/

/-- A pass that makes one call comes to the answer. -/
theorem comes_perform {post : Cluster → Value → Prop} {call : StoreCall}
    (h : c.perform call = (.ok v, c')) (hpost : post c' v) : Comes post (Pass.call call) c := by
  have hreported : c.reported call = .ok v := reported_eq_ok.mpr (by rw [h])
  refine (Pass.ensures_call _ _).mpr ⟨trivial, ?_⟩
  rintro reply c'' ⟨rfl, rfl⟩
  rw [hreported, h]
  exact ⟨v, rfl, hpost⟩

/-- A call that is not refused. -/
theorem comes_call {call : StoreCall} {k : Value → Pass α} (h : c.perform call = (.ok v, c'))
    (hnext : Comes post (k v) c') : Comes post (Pass.call call >>= k) c :=
  comes_bind (comes_perform h hnext)

/-- A call that is not refused, by a pass that would go on without it. -/
theorem comes_answered {call : StoreCall} {k : Except Failure Value → Pass α}
    (h : c.perform call = (.ok v, c')) (hnext : Comes post (k (.ok v)) c') :
    Comes post ((Pass.call call).outcome >>= k) c :=
  comes_outcome (comes_perform h hnext)

/-- A call that is refused, by a pass that goes on without it. -/
theorem comes_refused {call : StoreCall} {k : Except Failure Value → Pass α} {f : Fault}
    (h : c.perform call = (.error f, c')) (hnext : Comes post (k (.error ⟨f, none⟩)) c') :
    Comes post ((Pass.call call).outcome >>= k) c := by
  have hreported : c.reported call = .error ⟨f, none⟩ := by
    rw [Cluster.reported, h]
    rfl
  refine Pass.ensures_attempt trivial ?_
  rintro reply c'' ⟨rfl, rfl⟩
  rw [hreported, h]
  exact hnext

/-! ## Notes -/

/-- Metadata that has a field at all can be named in a log. -/
theorem loggedIdentity_of_field? {metadata : Value} {key : String} (h : metadata.field? key = some v) :
    ∃ id, loggedIdentity metadata = .ok id := by
  simp only [loggedIdentity, Value.fieldOr_eq_getD h, bind, Except.bind]
  exact ⟨_, rfl⟩

/-- A note about a resource with a name does not fail. -/
theorem comes_note {kind key : String} {level : Level} {metadata : Value} {r : Remark}
    {k : Unit → Pass α} (h : metadata.field? key = some v) (hnext : Comes post (k ()) c) :
    Comes post (Pass.log kind level metadata r >>= k) c := by
  rcases loggedIdentity_of_field? h with ⟨id, hid⟩
  refine Pass.ensures_note hnext ?_
  intro f hf
  rw [hid] at hf
  cases hf

/-! ## Reconciling -/

/-- The directive of a pass that succeeds is that of its reconciliation. -/
theorem Comes.reconcile {post : Cluster → Directive → Prop} {h : Handler} {id : Identity}
    (settings : Settings) (hcomes : Comes post (h.converge id) c) :
    SafePass.Ensures reliable (fun _ _ => True) post (h.reconcile settings id) c := by
  refine (Handler.reconcile_ensures settings h id c).mpr ?_
  refine Pass.Ensures.mono hcomes (fun _ _ _ => trivial) ?_
  rintro c' r ⟨d, rfl, hd⟩
  exact hd

end Reconciler
