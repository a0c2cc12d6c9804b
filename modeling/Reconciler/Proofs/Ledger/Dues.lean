import Reconciler.Proofs.Ownership.Writes
import Reconciler.Proofs.Reports.Accounting

/-! # What passes owe to the counters

Some counters are about the store: objects that were created, Services that were updated or were to be,
requests that entered a stage. What the store did for a pass, the pass owes to these counters, and it pays
when it counts. A pass is carried along with both, so that it can be asked whether it counted what it owes.

Main definitions and statements:

* `due`: what an answer of the store is to be counted as;
* `Tally`: what a pass heard, counted and owes so far;
* `tallying`: an environment that keeps the tally, and fetches objects from where they are asked for;
* `Settles`: a part of a pass that leaves the tally even, however it is answered, with one rule for each way a
  pass is built;
* `reckons_reconcile`: what is around a pass leaves the tally as even as the pass did.
-/

namespace Reconciler

/-- The counters that go up with something left behind. -/
def Trace.counts : Trace → List Counter
  | count c => [c]
  | _ => []

namespace Ledger

open Cluster Provisioning

/-! ## Dues -/

/-- The kind an object says it is of. -/
def kindOf (object : Value) : Option String :=
  match object.field? "kind" with
  | some (.text kind) => some kind
  | _ => none

/-- The kind of an object is the one it says itself. -/
theorem kindOf_eq_some {object : Value} {kind : String} : kindOf object = some kind ↔ OfKind kind object := by
  unfold kindOf OfKind
  split
  · next heq => simp [heq]
  · next hnot =>
    refine ⟨nofun, fun hkind => ?_⟩
    exact absurd hkind (hnot kind)

/-- The count for a request that is stored in a stage in which no copy of it was. -/
def entering (kind : String) (past : History) (object : Value) : List Counter :=
  match addressOf object, stageOf object with
  | .ok a, .ok stage =>
    if (past.reads a).any fun copy => (stageOf copy).toOption = some stage then []
    else [.transitions kind stage.name]
  | _, _ => []

/-- What is counted of a call only if it succeeded. -/
def onSuccess (counts : List Counter) : Except Failure Value → List Counter
  | .ok _ => counts
  | .error _ => []

/-- What a call of a pass over a resource of a kind, and its answer, are to be counted as: a creation that
succeeded, an update of a Service as a drift and again if it succeeded, and a stage that was entered. -/
def due (kind : String) (past : History) : StoreCall → Except Failure Value → List Counter
  | .create object, reply =>
    onSuccess ((kindOf object).toList.map (.childOperations · "create" "success")) reply
  | .update object, reply =>
    if kindOf object = some Kind.service then
      .drifts kind Kind.service :: onSuccess [.childOperations Kind.service "update" "success"] reply
    else []
  | .updateStatus object, reply => onSuccess (entering kind past object) reply
  | .get _ _ _, _ | .annotate _ _ _ _, _ => []

/-- The counters that are about the store. -/
def watched : Counter → Bool
  | .childOperations _ _ result => result == "success"
  | .drifts _ _ | .transitions _ _ => true
  | _ => false

/-- What a pass heard from the store, what it counted, and what it owes. -/
structure Tally where
  heard : History := []
  counted : List Counter := []
  owed : List Counter := []

namespace Tally

def hearing (kind : String) (t : Tally) (call : StoreCall) (reply : Except Failure Value) : Tally :=
  { t with heard := t.heard ++ [(call, reply)], owed := t.owed ++ due kind t.heard call reply }

def counting (t : Tally) (counts : List Counter) : Tally :=
  { t with counted := t.counted ++ counts }

end Tally

/-! ## Surroundings -/

/-- An answer of a store whose objects are where they say they are, and whose Services can be changed. -/
def Fits : StoreCall → Except Failure Value → Prop
  | .get kind ns name, .ok object =>
    addressOf object = .ok ⟨kind, ns, name⟩ ∧ (kind = .text Kind.service → SpecShaped object)
  | _, _ => True

/-- The environment that keeps the tally of a pass over a resource of a kind. -/
def tallying (kind : String) : Responder passSignature Tally
  | t, .store call, reply, t' => Fits call reply ∧ t' = t.hearing kind call reply
  | t, .trace left, _, t' => t' = t.counting left.counts
  | t, .instant, _, t' | t, .seconds, _, t' | t, .random _, _, t' => t' = t

/-- A call of a pass: it creates and updates objects that are no requests, and stores the progress of a
request in the only copy it has of it. -/
inductive Proper (kind : String) (past : History) : StoreCall → Prop where
  | get (k ns name : Value) : Proper kind past (.get k ns name)
  | create {k : String} {object : Value} :
      IsChild k object → k ∉ requestKinds → Proper kind past (.create object)
  | update {k : String} {object : Value} {a : Address} :
      IsChild k object → k ∉ requestKinds → addressOf object = .ok a → Proper kind past (.update object)
  | progress {a : Address} {copy object : Value} :
      kind ∈ requestKinds → a.kind = .text kind → past.reads a = [copy] →
      SameBut progressParts copy object → Proper kind past (.updateStatus object)

/-- However a pass is answered, it makes its calls properly, and its tally and its result meet a
condition. -/
abbrev Reckons {α : Type} (kind : String) (post : Tally → α → Prop) (p : SafePass α) (t : Tally) : Prop :=
  Program.Ensures (tallying kind) (storeOnly fun t => Proper kind t.heard) post p t

/-! ## Settling -/

/-- What a pass remembers of what it heard. Its writes add nothing to it. -/
structure Memory where
  holds : History → Prop
  kept : ∀ {past : History} {call : StoreCall} (reply : Except Failure Value),
    call.writes = true → holds past → holds (past ++ [(call, reply)])

namespace Memory

/-- Nothing is remembered. -/
def none : Memory := ⟨fun _ => True, fun _ _ _ => trivial⟩

/-- These objects were fetched from an address. -/
def copies (a : Address) (objects : List Value) : Memory :=
  ⟨fun past => past.reads a = objects, fun _ hwrites hread =>
    (History.reads_append_write hwrites).trans hread⟩

end Memory

/-- Of the counters that are about the store those were counted that are owed, but for counts that were made
ahead, and counts that are owing. -/
structure Square (memory : Memory) (ahead owing : List Counter) (t : Tally) : Prop where
  remembered : memory.holds t.heard
  even : ∀ c, watched c = true → t.counted.count c + owing.count c = t.owed.count c + ahead.count c

/-- A part of a pass that counts what is owing, and what it owes itself. -/
def Settles {α : Type} (kind : String) (memory : Memory) (p : SafePass α)
    (ahead owing : List Counter := []) : Prop :=
  ∀ t, Square memory ahead owing t → Reckons kind (fun t' _ => Square memory [] [] t') p t

section Rules

variable {kind : String} {memory : Memory} {t : Tally} {ahead owing : List Counter} {c : Counter}
variable {call : StoreCall} {α β : Type}

/-- What is remembered can be forgotten. -/
theorem Square.forget (ht : Square memory ahead owing t) : Square .none ahead owing t :=
  ⟨trivial, ht.even⟩

/-- Counters that are not about the store may go up at any time. -/
theorem Square.counting (ht : Square memory ahead owing t) {counts : List Counter}
    (hcounts : ∀ c ∈ counts, watched c = false) : Square memory ahead owing (t.counting counts) := by
  refine ⟨ht.remembered, fun c hc => ?_⟩
  have hnot : c ∉ counts := fun hmem => by simp [hcounts c hmem] at hc
  rw [Tally.counting, List.count_append, List.count_eq_zero_of_not_mem hnot]
  exact ht.even c hc

/-- An answer is owed for, and what was counted ahead is taken off. -/
theorem Square.hearing {reply : Except Failure Value} (ht : Square memory ahead [] t)
    (hkept : memory.holds (t.heard ++ [(call, reply)]))
    (hdue : due kind t.heard call reply = ahead ++ owing) :
    Square memory [] owing (t.hearing kind call reply) := by
  refine ⟨hkept, fun c hc => ?_⟩
  have heven := ht.even c hc
  simp only [Tally.hearing, hdue, List.count_append, List.count_nil] at heven ⊢
  omega

theorem settles_pure (a : α) : Settles kind memory (pure a : SafePass α) := fun _ ht => ht

/-- One part after another: what the first leaves owing, the second may not. -/
theorem settles_bind {p : SafePass α} {k : α → SafePass β} (hp : Settles kind memory p ahead owing)
    (hk : ∀ a, Settles kind memory (k a)) : Settles kind memory (p >>= k) ahead owing := by
  intro t ht
  refine (Program.ensures_bind p k t).mpr ?_
  exact (hp t ht).mono (fun _ _ hmay => hmay) fun t' a ht' => hk a t' ht'

theorem settles_seconds : Settles kind memory SafePass.seconds := by
  intro t ht
  refine ⟨trivial, ?_⟩
  rintro now _ rfl
  exact ht

theorem settles_instant : Settles kind memory SafePass.instant := by
  intro t ht
  refine ⟨trivial, ?_⟩
  rintro now _ rfl
  exact ht

/-- What is left behind may count what is not about the store. -/
theorem settles_trace {left : Trace} (hcounts : ∀ c ∈ left.counts, watched c = false) :
    Settles kind memory (SafePass.trace left) := by
  intro t ht
  refine ⟨trivial, ?_⟩
  rintro ⟨⟩ _ rfl
  exact ht.counting hcounts

/-! ### Passes that may fail -/

theorem settles_throw (f : Failure) : Settles kind memory (throw f : Pass α).run := fun _ ht => ht

/-- A part that may fail comes before another: a failure skips what comes after it. -/
theorem settles_andThen {p : Pass α} {k : α → Pass β} (hp : Settles kind memory p.run ahead owing)
    (hk : ∀ a, Settles kind memory (k a).run) : Settles kind memory (p >>= k).run ahead owing := by
  refine settles_bind hp ?_
  -- a failure ends the sequence, a value goes on with it
  rintro (f | a)
  · exact settles_pure _
  · exact hk a

theorem settles_safely {p : SafePass α} {k : α → Pass β} (hp : Settles kind memory p)
    (hk : ∀ a, Settles kind memory (k a).run) : Settles kind memory (liftM p >>= k : Pass β).run :=
  settles_andThen (settles_bind hp fun _ => settles_pure _) hk

theorem settles_outcome {p : Pass α} {k : Except Failure α → Pass β} (hp : Settles kind memory p.run)
    (hk : ∀ r, Settles kind memory (k r).run) : Settles kind memory (p.outcome >>= k).run :=
  settles_andThen (settles_bind hp fun _ => settles_pure _) hk

theorem settles_lift (read : Except Fault α) : Settles kind memory (Pass.lift read).run := by
  cases read with
  | ok a => exact settles_pure _
  | error f => exact settles_pure _

/-- A reading counts nothing. -/
theorem settles_read {read : Except Fault α} {k : α → Pass β}
    (hnext : ∀ a, read = .ok a → Settles kind memory (k a).run) :
    Settles kind memory (liftM read >>= k : Pass β).run := by
  cases read with
  | ok a => exact hnext a rfl
  | error f => exact settles_throw _

/-- What is left behind, and is not about the store. -/
theorem settles_tell {left : Trace} {k : Unit → Pass β} (hnext : Settles kind memory (k ()).run)
    (hcounts : ∀ c ∈ left.counts, watched c = false := by simp [Trace.counts, watched]) :
    Settles kind memory (liftM (SafePass.trace left) >>= k : Pass β).run :=
  settles_safely (settles_trace hcounts) fun _ => hnext

/-- A remark about a resource that is known not to fail. -/
theorem settles_remark {level : Level} {about : String} {metadata : Value} {r : Remark} {k : Unit → Pass β}
    {id : Value × Value × Value} (hid : loggedIdentity metadata = .ok id)
    (hnext : Settles kind memory (k ()).run ahead) :
    Settles kind memory (Pass.log about level metadata r >>= k).run ahead := by
  intro t ht
  unfold Pass.log
  rw [hid]
  refine ⟨trivial, ?_⟩
  rintro ⟨⟩ _ rfl
  exact hnext _ (ht.counting nofun)

/-- An entry in a log counts nothing. -/
theorem settles_log {level : Level} {about : String} {metadata : Value} {r : Remark} :
    Settles kind memory (Pass.log about level metadata r).run := by
  unfold Pass.log
  refine settles_andThen (settles_lift _) ?_
  rintro ⟨name, ns, uid⟩
  exact settles_bind (settles_trace nofun) fun _ => settles_pure _

theorem settles_note {level : Level} {about : String} {metadata : Value} {r : Remark} {k : Unit → Pass β}
    (hnext : Settles kind memory (k ()).run) :
    Settles kind memory (Pass.log about level metadata r >>= k).run :=
  settles_andThen settles_log fun _ => hnext

/-- Drawing random characters counts nothing. -/
theorem settles_draw (d : Draw α) : Settles kind memory (Pass.draw d).run := by
  have hdrawn : ∀ {γ : Type} (p : Program randomSignature γ),
      Settles kind memory (p.run (m := SafePass) fun op => .query (S := passSignature) (.random op)) := by
    -- the induction is on the questions to the source, none of which is a call
    intro γ p
    induction p with
    | done a => exact settles_pure a
    | ask op next ih =>
      intro t ht
      refine ⟨trivial, ?_⟩
      rintro reply t' rfl
      exact ih reply t' ht
  refine settles_bind (hdrawn d.run) ?_
  rintro (f | a)
  · exact settles_pure _
  · exact settles_pure _

/-! ### Counting -/

/-- A count that is owing is made. -/
theorem settles_pay {k : Unit → Pass β} (hnext : Settles kind memory (k ()).run) :
    Settles kind memory (liftM (SafePass.count c) >>= k : Pass β).run [] [c] := by
  intro t ht
  refine ⟨trivial, ?_⟩
  rintro ⟨⟩ _ rfl
  refine hnext _ ⟨ht.remembered, fun d hd => ?_⟩
  simpa [Tally.counting, Trace.counts] using ht.even d hd

/-- A count is made ahead. -/
theorem settles_advance {k : Unit → Pass β} (hnext : Settles kind memory (k ()).run [c]) :
    Settles kind memory (liftM (SafePass.count c) >>= k : Pass β).run := by
  intro t ht
  refine ⟨trivial, ?_⟩
  rintro ⟨⟩ _ rfl
  refine hnext _ ⟨ht.remembered, fun d hd => ?_⟩
  simpa [Tally.counting, Trace.counts] using ht.even d hd

/-! ### Calls -/

/-- A pass that fails when a call of it fails goes on from the result of the call. -/
theorem call_bind (call : StoreCall) (next : Value → Pass β) :
    Pass.call call >>= next = (Pass.call call).outcome >>= fun reply => liftM reply >>= next :=
  rfl

/-- A fetch, of an object that is where it was asked for. -/
theorem settles_fetch {k : String} {ns name : Value} {next : Except Failure Value → Pass β}
    (hkept : ∀ past reply, memory.holds past →
      memory.holds (past ++ [(.get (.text k) ns name, reply)]))
    (herror : ∀ f, Settles kind memory (next (.error f)).run)
    (hok : ∀ object, addressOf object = .ok ⟨.text k, ns, name⟩ →
      (k = Kind.service → SpecShaped object) → Settles kind memory (next (.ok object)).run) :
    Settles kind memory ((Pass.get k ns name).outcome >>= next).run := by
  intro t ht
  refine ⟨.get _ _ _, ?_⟩
  rintro (f | object) _ ⟨hfits, rfl⟩
  · exact herror f _ (ht.hearing (hkept _ _ ht.remembered) rfl)
  · exact hok object hfits.1 (fun hk => hfits.2 (by rw [hk])) _ (ht.hearing (hkept _ _ ht.remembered) rfl)

/-- A fetch of which a failure is the failure of the pass. -/
theorem settles_get {k : String} {ns name : Value} {next : Value → Pass β}
    (hkept : ∀ past reply, memory.holds past →
      memory.holds (past ++ [(.get (.text k) ns name, reply)]))
    (hok : ∀ object, addressOf object = .ok ⟨.text k, ns, name⟩ →
      (k = Kind.service → SpecShaped object) → Settles kind memory (next object).run) :
    Settles kind memory (Pass.get k ns name >>= next).run := by
  rw [Pass.get, call_bind]
  exact settles_fetch hkept settles_throw hok

/-- A write, of which a failure is paid for, and a success is paid for afterwards. -/
theorem settles_write {next : Except Failure Value → Pass β} (owing : List Counter)
    (hwrites : call.writes = true)
    (hproper : ∀ past, memory.holds past → Proper kind past call)
    (hfailed : ∀ past f, due kind past call (.error f) = ahead)
    (hdone : ∀ past v, memory.holds past → due kind past call (.ok v) = ahead ++ owing)
    (herror : ∀ f, Settles kind memory (next (.error f)).run)
    (hok : ∀ v, Settles kind memory (next (.ok v)).run [] owing) :
    Settles kind memory ((Pass.call call).outcome >>= next).run ahead := by
  intro t ht
  refine ⟨hproper _ ht.remembered, ?_⟩
  rintro (f | v) _ ⟨-, rfl⟩
  · have hdue := (hfailed t.heard f).trans (List.append_nil ahead).symm
    exact herror f _ (ht.hearing (memory.kept _ hwrites ht.remembered) hdue)
  · exact hok v _ (ht.hearing (memory.kept _ hwrites ht.remembered) (hdone _ v ht.remembered))

/-- A write of which a failure is the failure of the pass. -/
theorem settles_must {next : Value → Pass β} (owing : List Counter) (hwrites : call.writes = true)
    (hproper : ∀ past, memory.holds past → Proper kind past call)
    (hfailed : ∀ past f, due kind past call (.error f) = [])
    (hdone : ∀ past v, memory.holds past → due kind past call (.ok v) = owing)
    (hok : ∀ v, Settles kind memory (next v).run [] owing) :
    Settles kind memory (Pass.call call >>= next).run := by
  rw [call_bind]
  exact settles_write owing hwrites hproper hfailed hdone settles_throw hok

end Rules

/-! ## Reconciling -/

section Reconciling

variable {kind : String} {memory : Memory} {settings : Settings} {h : Handler} {id : Identity}

/-- A counter that is not about the store may go up at any time. -/
theorem settles_count {c : Counter} (hc : watched c = false) :
    Settles kind memory (SafePass.count c) :=
  settles_trace (by simpa [Trace.counts] using hc)

theorem settles_time (start : Rat) : Settles kind memory (h.time settings start) :=
  settles_bind settles_seconds fun _ => settles_trace nofun

/-- Reporting a failure counts nothing that is about the store. -/
theorem settles_fail (f : Failure) : Settles kind memory (h.fail id f) := by
  unfold Handler.fail
  split
  · refine settles_bind (settles_trace nofun) fun _ => ?_
    exact settles_bind (settles_count rfl) fun _ => settles_bind (settles_count rfl) fun _ => settles_pure _
  · refine settles_bind (settles_trace nofun) fun _ => ?_
    exact settles_bind (settles_count rfl) fun _ => settles_bind (settles_count rfl) fun _ => settles_pure _

/-- Counting a directive counts nothing that is about the store. -/
theorem settles_finish (d : Directive) : Settles kind memory (h.finish id d) := by
  unfold Handler.finish
  split
  · exact settles_fail _
  · exact settles_bind (settles_count rfl) fun _ => settles_pure _

/-- What follows a pass counts nothing that is about the store. -/
theorem settles_conclude (start : Rat) (r : Except Failure Directive) :
    Settles kind memory (h.conclude settings id start r) := by
  cases r with
  | ok d =>
    refine settles_bind (settles_trace nofun) fun _ => ?_
    exact settles_bind (settles_time _) fun _ => settles_finish d
  | error f =>
    refine settles_bind (settles_trace nofun) fun _ => ?_
    split
    · refine settles_bind (settles_trace nofun) fun _ => ?_
      exact settles_bind (settles_time _) fun _ => settles_finish _
    · split
      · refine settles_bind (settles_trace nofun) fun _ => ?_
        -- a conflict is counted, but not as one of the store
        refine settles_bind (settles_count rfl) fun _ => ?_
        exact settles_bind (settles_time _) fun _ => settles_pure _
      · refine settles_bind (settles_fail f) fun _ => ?_
        exact settles_bind (settles_time _) fun _ => settles_pure _

/-- A reconciliation counts what its pass owes, if the pass does. -/
theorem reckons_reconcile (settings : Settings) {t : Tally}
    (hpass : ∀ t, Square memory [] [] t →
      Reckons kind (fun t' _ => Square .none [] [] t') (h.converge id).run t)
    (ht : Square memory [] [] t) :
    Reckons kind (fun t' _ => Square .none [] [] t') (h.reconcile settings id) t := by
  have hopening : Settles kind memory (h.opening id) :=
    settles_bind settles_seconds fun _ => settles_bind (settles_trace nofun) fun _ => settles_pure _
  rw [Handler.reconcile_eq]
  refine (Program.ensures_bind _ _ t).mpr ((hopening t ht).mono (fun _ _ hmay => hmay) ?_)
  intro t' start ht'
  refine (Program.ensures_bind _ _ t').mpr ((hpass t' ht').mono (fun _ _ hmay => hmay) ?_)
  exact fun t'' r ht'' => settles_conclude start r t'' ht''

end Reconciling

end Ledger

end Reconciler
