import Reconciler.Api.Store
import Reconciler.Proofs.Program
import Reconciler.Proofs.Value
import Mathlib.Tactic.SplitIfs

/-! # Attempts at a store call

A store call is tried again only while the API server says that it is throttling. So the outcomes of the
attempts, in the order in which they come, decide everything about a call: how many attempts it takes,
how long it waits between them, what its result is, and what is counted.

Main definitions and statements:

* `Outcome`, `follows`: what may come of an attempt, and an API server that follows a script of outcomes
  while the clock shows any time at all;
* `retried`: how often a call is tried again;
* `meaning`, `Decided`: what the last outcome makes of a call;
* `ensures_attempts`: what the attempts leave in the log, by induction over the retries that are left;
* `ensures_meaning`: so a whole call comes to what its last outcome means;
* `perform_follows_script`: a store call, over every script;
* `called_at_rate_zero`: the one rate at which nothing is called.
-/

namespace Reconciler

/-- A broken connection is a fault of another component. -/
theorem Fault.eq_plain_of_disconnected {f : Fault} (h : f.disconnected = true) :
    ∃ cls message, f = .plain cls message := by
  cases f with
  | plain cls message => exact ⟨cls, message, rfl⟩
  | _ => cases h

namespace ApiStore

/-! ## Scripts -/

/-- What may come of an attempt. -/
inductive Outcome where
  /-- The server answers with an object. -/
  | object (v : Value)
  /-- The server refuses the call, with the text that the client makes of it. -/
  | refused (status reason body : Value) (text : String)
  /-- The connection breaks. -/
  | lost (f : Fault) (h : f.disconnected = true)

namespace Outcome

def answer : Outcome → Except Failure Value
  | object v => .ok v
  | refused status reason body text => .error ⟨.refusal status reason body text, none⟩
  | lost f _ => .error ⟨f, none⟩

def throttling : Outcome → Bool
  | refused status _ _ text => Fault.throttling status text
  | _ => false

/-- The store takes an answer for throttling exactly when its outcome is one. -/
theorem throttled_answer (outcome : Outcome) : throttled outcome.answer = outcome.throttling := by
  cases outcome with
  | object v => rfl
  | refused status reason body text => rfl
  | lost f h =>
    obtain ⟨cls, message, rfl⟩ := Fault.eq_plain_of_disconnected h
    rfl

end Outcome

/-- How far a run has come: the number of outcomes used up, and everything asked. -/
structure Progress where
  used : Nat
  log : List ApiOp

/-- An API server that follows a script of outcomes. The clock may show any time. -/
def follows (script : Nat → Outcome) : Responder apiSignature Progress
  | s, .call c, answer, s' => answer = (script s.used).answer ∧ s' = ⟨s.used + 1, s.log ++ [.call c]⟩
  | s, .seconds, _, s' => s' = ⟨s.used, s.log ++ [.seconds]⟩
  | s, .sleep d, _, s' => s' = ⟨s.used, s.log ++ [.sleep d]⟩
  | s, .trace t, _, s' => s' = ⟨s.used, s.log ++ [.trace t]⟩

/-- The server always answers. -/
theorem exists_follows (script : Nat → Outcome) (s : Progress) (op : ApiOp) :
    ∃ answer s', follows script s op answer s' := by
  cases op with
  | call c => exact ⟨(script s.used).answer, _, rfl, rfl⟩
  | seconds => exact ⟨(0 : Rat), _, rfl⟩
  | sleep d => exact ⟨(), _, rfl⟩
  | trace t => exact ⟨(), _, rfl⟩

/-! ## Rules -/

section Rules

variable {script : Nat → Outcome} {α β : Type} {l : Limiter} {s : Progress}

/-- Whatever the clock shows, a part of a store call ends in a result, a limiter and a log that meet a
condition. -/
def Attempt.Ensures (script : Nat → Outcome) (post : α → Limiter → Progress → Prop) (p : Attempt α)
    (l : Limiter) (s : Progress) : Prop :=
  Program.Ensures (follows script) (fun _ _ => True) (fun s r => post r.1 r.2 s) (p.run l) s

namespace Attempt

theorem ensures_pure {post : α → Limiter → Progress → Prop} (a : α) :
    Ensures script post (pure a) l s ↔ post a l s :=
  Iff.rfl

/-- One part of a store call after another: what the first ends in, the second starts from. -/
theorem ensures_bind {post : β → Limiter → Progress → Prop} (p : Attempt α) (k : α → Attempt β) :
    Ensures script post (p >>= k) l s ↔
      Ensures script (fun a l' s' => Ensures script post (k a) l' s') p l s :=
  Program.ensures_bind (p.run l) (fun r => (k r.1).run r.2) s

theorem Ensures.mono {post post' : α → Limiter → Progress → Prop} {p : Attempt α}
    (h : Ensures script post p l s) (hpost : ∀ a l' s', post a l' s' → post' a l' s') :
    Ensures script post' p l s :=
  Program.Ensures.mono h (fun _ _ => id) fun s' r => hpost r.1 r.2 s'

theorem ensures_seconds {post : Rat → Limiter → Progress → Prop} :
    Ensures script post (ask .seconds) l s ↔ ∀ now, post now l ⟨s.used, s.log ++ [.seconds]⟩ := by
  constructor
  · intro h now
    exact h.2 now _ rfl
  · intro h
    refine ⟨trivial, ?_⟩
    rintro now s' rfl
    exact h now

theorem ensures_sleep {post : Unit → Limiter → Progress → Prop} (d : Rat) :
    Ensures script post (ask (.sleep d)) l s ↔ post () l ⟨s.used, s.log ++ [.sleep d]⟩ := by
  constructor
  · intro h
    exact h.2 () _ rfl
  · intro h
    refine ⟨trivial, ?_⟩
    rintro ⟨⟩ s' rfl
    exact h

theorem ensures_trace {post : Unit → Limiter → Progress → Prop} (t : Trace) :
    Ensures script post (ask (.trace t)) l s ↔ post () l ⟨s.used, s.log ++ [.trace t]⟩ := by
  constructor
  · intro h
    exact h.2 () _ rfl
  · intro h
    refine ⟨trivial, ?_⟩
    rintro ⟨⟩ s' rfl
    exact h

end Attempt

end Rules

/-! ## What is left in the log -/

/-- What the limiter asks before a call may start. -/
def IsTurn (asked : List ApiOp) : Prop :=
  asked = [.seconds, .seconds] ∨ ∃ d, asked = [.seconds, .sleep d, .seconds]

def counted (o : Operation) (label : String) : ApiOp :=
  .trace (.count (.apiCalls o.metric label))

/-- What is asked from the attempt with number `i` on, when so many others follow it: each attempt waits
for its turn, and each but the last is counted as throttled and followed by a wait of `2 ^ i` seconds. -/
inductive Tried (o : Operation) (label : String) : (i more : Nat) → List ApiOp → Prop where
  | last {turn : List ApiOp} (i : Nat) :
      IsTurn turn → Tried o label i 0 (turn ++ [.call o.call, counted o label])
  | again {turn rest : List ApiOp} {i more : Nat} :
      IsTurn turn → Tried o label (i + 1) more rest →
      Tried o label i (more + 1)
        (turn ++ [.call o.call, counted o "throttled", .sleep (2 ^ i : Rat)] ++ rest)

/-- How often a call is tried again: once for each outcome at the beginning that says that the server is
throttling, up to a limit. -/
def retried (script : Nat → Outcome) (retries : Nat) : Nat :=
  (((List.range retries).map script).takeWhile Outcome.throttling).length

/-- What the last outcome makes of a call: how the attempt is counted, and the result. -/
inductive Decided (c : StoreCall) (o : Operation) : Outcome → String → Except Failure Value → Prop where
  | object (v : Value) : Decided c o (.object v) "success" (.ok v)
  | missing (status reason body : Value) (text : String) :
      status.same (.integer 404) →
      Decided c o (.refused status reason body text) "not_found"
        (.error ⟨.notFound o.address.kind o.address.ns o.address.name,
          some (.refusal status reason body text)⟩)
  | taken (status reason body : Value) (text : String) (object : Value) (message : String) :
      status.same (.integer 409) → c = .create object →
      Decided c o (.refused status reason body text) "conflict"
        (.error ⟨.alreadyExists message, some (.refusal status reason body text)⟩)
  | stale (status reason body : Value) (text message : String) :
      status.same (.integer 409) → (∀ object, c ≠ .create object) →
      Decided c o (.refused status reason body text) "conflict"
        (.error ⟨.conflict message, some (.refusal status reason body text)⟩)
  | refused (status reason body : Value) (text message : String) :
      status.same (.integer 404) = false → status.same (.integer 409) = false →
      Decided c o (.refused status reason body text) "error"
        (.error ⟨.store message status, some (.refusal status reason body text)⟩)
  | lost (f : Fault) (h : f.disconnected = true) (message : String) :
      Decided c o (.lost f h) "error" (.error ⟨.store message .null, some f⟩)

/-- How the last attempt is counted, and the result: a function of its outcome. -/
def meaning (o : Operation) : Outcome → String × Except Failure Value
  | .object v => ("success", .ok v)
  | .refused status reason body text =>
    let meant := o.refused (.refusal status reason body text) status
    (meant.1, .error ⟨meant.2, some (.refusal status reason body text)⟩)
  | .lost f _ => ("error", .error ⟨o.failed f .null, some f⟩)

/-- The code gives the last outcome the meaning that it has. Only a creation has a name that can be taken. -/
theorem decided_meaning {c : StoreCall} {o : Operation}
    (hname : o.name = "create" ↔ ∃ object, c = .create object) (outcome : Outcome) :
    Decided c o outcome (meaning o outcome).1 (meaning o outcome).2 := by
  cases outcome with
  | object v => exact .object v
  | refused status reason body text =>
    -- the cases of the code, in its order
    simp only [meaning, Operation.refused]
    split_ifs with hmissing htaken hcreate
    · exact .missing status reason body text hmissing
    · obtain ⟨object, rfl⟩ := hname.mp hcreate
      exact .taken status reason body text object _ htaken rfl
    · -- any other operation with this status lost a race
      refine .stale status reason body text _ htaken ?_
      intro object hc
      exact hcreate (hname.mpr ⟨object, hc⟩)
    · have hother : status.same (.integer 404) = false := Bool.eq_false_iff.mpr hmissing
      exact .refused status reason body text _ hother (Bool.eq_false_iff.mpr htaken)
  | lost f hf => exact .lost f hf _

section Attempts

variable {settings : Settings} {script : Nat → Outcome} {o : Operation} {l : Limiter} {s : Progress}

open Attempt

/-- The limiter asks for the time, perhaps waits, and asks again for the start of the call. -/
theorem ensures_awaitTurn {a : Arithmetic} {rate : Rat} (hrate : rate ≠ 0)
    {post : Except Fault Unit → Limiter → Progress → Prop}
    (h : ∀ turn l', IsTurn turn → post (.ok ()) l' ⟨s.used, s.log ++ turn⟩) :
    Attempt.Ensures script post (Limiter.awaitTurn (m := ApiProgram) a rate) l s := by
  unfold Limiter.awaitTurn
  apply (ensures_bind _ _).mpr
  apply ensures_seconds.mpr
  intro now
  simp only [if_neg hrate]
  apply (ensures_bind _ _).mpr
  show Attempt.Ensures script post _ l _
  -- the time that is remembered as the start is read after the wait, not before it
  cases l.wait? a (a.div 1 rate) now with
  | some d =>
    apply (ensures_bind _ _).mpr
    apply (ensures_sleep d).mpr
    apply (ensures_bind _ _).mpr
    apply ensures_seconds.mpr
    intro start
    have hturn := h [.seconds, .sleep d, .seconds] ⟨start⟩ (Or.inr ⟨d, rfl⟩)
    show post (.ok ()) ⟨start⟩ _
    simpa using hturn
  | none =>
    apply (ensures_bind _ _).mpr
    apply ensures_seconds.mpr
    intro start
    have hturn := h [.seconds, .seconds] ⟨start⟩ (Or.inl rfl)
    show post (.ok ()) ⟨start⟩ _
    simpa using hturn

/-- An attempt waits for its turn and uses up one outcome. -/
theorem ensures_attempt (hrate : settings.callRate ≠ 0)
    {post : Except Failure Value → Limiter → Progress → Prop}
    (h : ∀ turn l', IsTurn turn →
      post (script s.used).answer l' ⟨s.used + 1, s.log ++ turn ++ [.call o.call]⟩) :
    Attempt.Ensures script post (attempt settings o) l s := by
  unfold attempt Limiter.spaced
  apply (ensures_bind _ _).mpr
  apply ensures_awaitTurn hrate
  intro turn l' hturn
  refine ⟨trivial, ?_⟩
  rintro answer s' ⟨rfl, rfl⟩
  exact h turn l' hturn

/-- What the last outcome means is counted once. -/
theorem ensures_conclude (outcome : Outcome) {post : Except Failure Value → Limiter → Progress → Prop}
    (h : post (meaning o outcome).2 l ⟨s.used, s.log ++ [counted o (meaning o outcome).1]⟩) :
    Attempt.Ensures script post (conclude o outcome.answer) l s := by
  cases outcome with
  | object v =>
    apply (ensures_bind _ _).mpr
    apply (ensures_trace _).mpr
    exact h
  | refused status reason body text =>
    apply (ensures_bind _ _).mpr
    apply (ensures_trace _).mpr
    exact h
  | lost f hf =>
    -- a broken connection is a plain fault, so the match on refusals passes it over
    obtain ⟨cls, message, rfl⟩ := Fault.eq_plain_of_disconnected hf
    simp only [Outcome.answer, conclude, hf, if_true]
    apply (ensures_bind _ _).mpr
    apply (ensures_trace _).mpr
    exact h

/-- The number of further attempts, from any place of the script on. -/
def retriedFrom (script : Nat → Outcome) (i retries : Nat) : Nat :=
  (((List.range' i retries).map script).takeWhile Outcome.throttling).length

/-- What the attempts leave in the log, and what decides them. The induction is on the retries that are
left; the number of attempts made is the number of outcomes used up. -/
theorem ensures_attempts (hrate : settings.callRate ≠ 0) (retries : Nat) :
    ∀ (l : Limiter) (i : Nat) (log : List ApiOp),
    Attempt.Ensures script (fun r _ s' => ∃ asked,
        r = (meaning o (script (i + retriedFrom script i retries))).2 ∧
        Tried o (meaning o (script (i + retriedFrom script i retries))).1 i
          (retriedFrom script i retries) asked ∧
        s' = ⟨i + retriedFrom script i retries + 1, log ++ asked⟩)
      (attempts settings o i retries) l ⟨i, log⟩ := by
  induction retries with
  | zero =>
    intro l i log
    apply (ensures_bind _ _).mpr
    apply ensures_attempt hrate
    intro turn l' hturn
    apply ensures_conclude
    refine ⟨_, rfl, .last i hturn, ?_⟩
    simp [retriedFrom]
  | succ retries ih =>
    intro l i log
    apply (ensures_bind _ _).mpr
    apply ensures_attempt hrate
    intro turn l' hturn
    rw [Outcome.throttled_answer]
    have hrange : List.range' i (retries + 1) = i :: List.range' (i + 1) retries := rfl
    by_cases hthrottling : (script i).throttling
    case pos =>
      -- the outcome here is used up, and the rest of the attempts starts at the next place of the script
      have hmore : retriedFrom script i (retries + 1) = retriedFrom script (i + 1) retries + 1 := by
        simp [retriedFrom, hrange, hthrottling]
      have hlast : i + 1 + retriedFrom script (i + 1) retries =
          i + (retriedFrom script (i + 1) retries + 1) := by omega
      have hpower : ((powerOfTwo i : Nat) : Rat) = 2 ^ i := by simp [powerOfTwo]
      rw [if_pos hthrottling, hmore]
      apply (ensures_bind _ _).mpr
      apply (ensures_trace _).mpr
      apply (ensures_bind _ _).mpr
      apply (ensures_sleep _).mpr
      refine (ih l' (i + 1) _).mono ?_
      rintro r l'' s' ⟨asked, hmeant, htried, rfl⟩
      rw [hlast] at hmeant htried ⊢
      refine ⟨_, hmeant, .again hturn htried, ?_⟩
      simp [counted, hpower]
    case neg =>
      -- this is the last attempt, with retries left over
      have hnone : retriedFrom script i (retries + 1) = 0 := by
        simp [retriedFrom, hrange, hthrottling]
      rw [if_neg hthrottling, hnone]
      apply ensures_conclude
      refine ⟨_, rfl, .last i hturn, ?_⟩
      simp

/-- At a rate of zero the limiter fails before anything is called. -/
theorem ensures_attempt_at_rate_zero (hrate : settings.callRate = 0)
    {post : Except Failure Value → Limiter → Progress → Prop}
    (h : post (.error (Fault.divisionByZero : Failure)) l ⟨s.used, s.log ++ [.seconds]⟩) :
    Attempt.Ensures script post (attempt settings o) l s := by
  unfold attempt Limiter.spaced Limiter.awaitTurn
  apply (ensures_bind _ _).mpr
  apply (ensures_bind _ _).mpr
  apply ensures_seconds.mpr
  intro now
  rw [if_pos hrate]
  exact h

/-- At a rate of zero the limiter fails before the first attempt, which is neither counted nor made again. -/
theorem ensures_attempts_at_rate_zero (hrate : settings.callRate = 0) (retries : Nat)
    {post : Except Failure Value → Limiter → Progress → Prop}
    (h : post (.error (Fault.divisionByZero : Failure)) l ⟨s.used, s.log ++ [.seconds]⟩) :
    Attempt.Ensures script post (attempts settings o 0 retries) l s := by
  cases retries with
  | zero => exact (ensures_bind _ _).mpr (ensures_attempt_at_rate_zero hrate h)
  | succ retries => exact (ensures_bind _ _).mpr (ensures_attempt_at_rate_zero hrate h)

end Attempts

/-! ## Counting -/

section Counting

def calls (log : List ApiOp) : List ApiCall :=
  log.filterMap fun
    | .call c => some c
    | _ => none

/-- The counted attempts in a log: under which operation, and with which label. -/
def labels (log : List ApiOp) : List (String × String) :=
  log.filterMap fun
    | .trace (.count (.apiCalls operation label)) => some (operation, label)
    | _ => none

def timed (log : List ApiOp) : List String :=
  log.filterMap fun
    | .trace (.observe (.apiCalls operation) _) => some operation
    | _ => none

variable {o : Operation} {label : String} {i more : Nat} {asked : List ApiOp}

/-- Every attempt makes the same call, and there is one more than are tried again. -/
theorem Tried.calls_eq (h : Tried o label i more asked) :
    calls asked = List.replicate (more + 1) o.call := by
  induction h with
  | last i hturn =>
    rcases hturn with rfl | ⟨d, rfl⟩ <;> rfl
  | again hturn hrest ih =>
    rw [List.replicate_succ, ← ih]
    rcases hturn with rfl | ⟨d, rfl⟩ <;> rfl

/-- Every attempt is counted once, all but the last as throttled. -/
theorem Tried.labels_eq (h : Tried o label i more asked) :
    labels asked = List.replicate more (o.metric, "throttled") ++ [(o.metric, label)] := by
  induction h with
  | last i hturn =>
    rcases hturn with rfl | ⟨d, rfl⟩ <;> rfl
  | again hturn hrest ih =>
    rw [List.replicate_succ, List.cons_append, ← ih]
    rcases hturn with rfl | ⟨d, rfl⟩ <;> rfl

/-- The attempts are not timed one by one. -/
theorem Tried.timed_eq (h : Tried o label i more asked) : timed asked = [] := by
  induction h with
  | last i hturn =>
    rcases hturn with rfl | ⟨d, rfl⟩ <;> rfl
  | again hturn hrest ih =>
    rw [← ih]
    rcases hturn with rfl | ⟨d, rfl⟩ <;> rfl

end Counting

/-! ## Store calls -/

/-- The address of the object that a store call is about. -/
def addressed : StoreCall → Except Fault Address
  | .get kind ns name | .annotate kind ns name _ => .ok ⟨kind, ns, name⟩
  | .create object | .update object | .updateStatus object => addressOf object

/-- A kind is only served as the table of the store says. -/
theorem served_of_ofKind {kind : Value} {k : String} {served : Served}
    (h : Served.ofKind kind = .ok (k, served)) : (k, served) ∈ Served.kinds := by
  cases kind with
  | text name =>
    simp only [Served.ofKind, Served.ofKind.unsupported] at h
    split at h
    case h_1 found hfound =>
      obtain ⟨before, after, hsplit, -⟩ := List.lookup_eq_some_iff.mp hfound
      cases h
      simp [hsplit]
    case h_2 => cases h
  | _ =>
    simp only [Served.ofKind, Served.ofKind.unsupported] at h
    split at h <;> cases h

/-- What the operation of a store call says of it: its name, the object it is about, and how the kind of
that object is served. -/
theorem of_operation {c : StoreCall} {o : Operation} (h : operation c = .ok o) :
    o.name = c.operation ∧ addressed c = .ok o.address ∧ (o.kind, o.call.served) ∈ Served.kinds ∧
      (o.call.verb = .replaceStatus → c.operation = "update_status") := by
  -- three of the operations are about an object that says itself which one it is
  have hobject : ∀ {name verb object}, onObject name verb object = .ok o →
      o.name = name ∧ addressOf object = .ok o.address ∧ (o.kind, o.call.served) ∈ Served.kinds ∧
        o.call.verb = verb := by
    intro name verb object honObject
    simp only [onObject, bind_eq_ok, pure_eq_ok] at honObject
    obtain ⟨a, haddress, ⟨k, served⟩, hserved, rfl⟩ := honObject
    exact ⟨rfl, haddress, served_of_ofKind hserved, rfl⟩
  cases c with
  | get kind ns name | annotate kind ns name annotations =>
    simp only [operation, bind_eq_ok, pure_eq_ok] at h
    obtain ⟨⟨k, served⟩, hserved, rfl⟩ := h
    exact ⟨rfl, rfl, served_of_ofKind hserved, by simp [StoreCall.operation]⟩
  | create object | update object | updateStatus object =>
    obtain ⟨hname, haddress, hserved, hverb⟩ := hobject h
    refine ⟨hname, haddress, hserved, ?_⟩
    simp [hverb, StoreCall.operation]

/-- A store call, when it is known what to call. -/
theorem perform_eq {c : StoreCall} {o : Operation} (h : operation c = .ok o) (methods : Methods)
    (settings : Settings) (retries : Nat) :
    perform methods settings retries c =
      if methods.offer o.call then called settings retries o
      else return .error (Fault.noAttribute : Failure) := by
  simp only [perform, h]

/-- What a whole call leaves in the log: the start, the attempts, and the time it took. Its result is what the
last outcome means. -/
theorem ensures_meaning {settings : Settings} (hrate : settings.callRate ≠ 0) {o : Operation}
    (retries : Nat) (script : Nat → Outcome) (l : Limiter) :
    Attempt.Ensures script (fun r _ s => ∃ asked d,
        r = (meaning o (script (retried script retries))).2 ∧
        Tried o (meaning o (script (retried script retries))).1 0 (retried script retries) asked ∧
        s = ⟨retried script retries + 1,
          .seconds :: asked ++ [.seconds, .trace (.observe (.apiCalls o.metric) d)]⟩)
      (called settings retries o) l ⟨0, []⟩ := by
  have hfrom : retriedFrom script 0 retries = retried script retries := by
    simp [retriedFrom, retried, List.range_eq_range']
  apply (Attempt.ensures_bind _ _).mpr
  apply Attempt.ensures_seconds.mpr
  intro start
  apply (Attempt.ensures_bind _ _).mpr
  -- between the two looks at the clock there are the attempts, from the first outcome of the script
  refine (ensures_attempts hrate retries l 0 _).mono ?_
  rintro r l' s ⟨asked, hmeant, htried, rfl⟩
  rw [Nat.zero_add, hfrom] at hmeant htried
  apply (Attempt.ensures_bind _ _).mpr
  apply Attempt.ensures_seconds.mpr
  intro now
  apply (Attempt.ensures_bind _ _).mpr
  apply (Attempt.ensures_trace _).mpr
  refine ⟨asked, settings.arithmetic.sub now start, hmeant, htried, ?_⟩
  simp [hfrom]

/-- A store call decides and tries as the script says, with the meaning of its last outcome spelled out. -/
theorem ensures_called {settings : Settings} (hrate : settings.callRate ≠ 0) {c : StoreCall}
    {o : Operation} (hcreate : o.name = "create" ↔ ∃ object, c = .create object) (retries : Nat)
    (script : Nat → Outcome) (l : Limiter) :
    Attempt.Ensures script (fun r _ s => ∃ label asked d,
        Decided c o (script (retried script retries)) label r ∧
        Tried o label 0 (retried script retries) asked ∧
        s = ⟨retried script retries + 1,
          .seconds :: asked ++ [.seconds, .trace (.observe (.apiCalls o.metric) d)]⟩)
      (called settings retries o) l ⟨0, []⟩ := by
  refine (ensures_meaning hrate retries script l).mono ?_
  rintro r l' s ⟨asked, d, rfl, htried, hs⟩
  exact ⟨_, asked, d, decided_meaning hcreate _, htried, hs⟩

/-- A rate of zero allows no call: nothing is called or counted, and the result is the fault of the limiter.
The call is timed all the same. -/
theorem called_at_rate_zero {settings : Settings} (hrate : settings.callRate = 0) (o : Operation)
    (retries : Nat) (script : Nat → Outcome) (l : Limiter) :
    Attempt.Ensures script (fun r _ s => r = .error (Fault.divisionByZero : Failure) ∧
        calls s.log = [] ∧ labels s.log = [] ∧ timed s.log = [o.metric])
      (called settings retries o) l ⟨0, []⟩ := by
  apply (Attempt.ensures_bind _ _).mpr
  apply Attempt.ensures_seconds.mpr
  intro start
  apply (Attempt.ensures_bind _ _).mpr
  apply ensures_attempts_at_rate_zero hrate
  apply (Attempt.ensures_bind _ _).mpr
  apply Attempt.ensures_seconds.mpr
  intro now
  apply (Attempt.ensures_bind _ _).mpr
  apply (Attempt.ensures_trace _).mpr
  exact ⟨rfl, rfl, rfl, rfl⟩

/-- Over every script of outcomes, and at any rate but zero, at which `called_at_rate_zero` says that nothing
is called: a store call of a supported kind is carried out as `called` says, wherever the client has a method
for it, and `called`

* comes to an end;
* makes one attempt more than it is throttled, up to the limit of retries, and uses up one outcome for
  each attempt;
* waits 1, 2, 4, … seconds between the attempts, apart from what the limiter waits before each;
* is decided by the last of these outcomes alone;
* counts each attempt once, all but the last as throttled;
* is timed once. -/
theorem perform_follows_script (methods : Methods) (settings : Settings) (hrate : settings.callRate ≠ 0) (c : StoreCall)
    (o : Operation) (ho : operation c = .ok o) (retries : Nat) (script : Nat → Outcome)
    (l : Limiter) :
    (perform methods settings retries c =
      if methods.offer o.call then called settings retries o
      else return .error (Fault.noAttribute : Failure)) ∧
    addressed c = .ok o.address ∧
    (∃ r l' s, Program.Leads (follows script) ((called settings retries o).run l) ⟨0, []⟩
      (.done (r, l')) s) ∧
    ∀ r l' s, Program.Leads (follows script) ((called settings retries o).run l) ⟨0, []⟩
      (.done (r, l')) s →
      ∃ label asked d,
        Decided c o (script (retried script retries)) label r ∧
        s.used = retried script retries + 1 ∧
        s.log = .seconds :: asked ++ [.seconds, .trace (.observe (.apiCalls o.metric) d)] ∧
        Tried o label 0 (retried script retries) asked ∧
        calls s.log = List.replicate (retried script retries + 1) o.call ∧
        labels s.log = List.replicate (retried script retries) (o.metric, "throttled") ++
          [(o.metric, label)] ∧
        timed s.log = [o.metric] := by
  obtain ⟨hname, haddress, -, -⟩ := of_operation ho
  -- the operation is called "create" for creations alone
  have hcreate : o.name = "create" ↔ ∃ object, c = .create object := by
    rw [hname]
    cases c <;> simp [StoreCall.operation]
  refine ⟨perform_eq ho methods settings retries, haddress, ?_, ?_⟩
  · obtain ⟨⟨r, l'⟩, s, hrun⟩ := Program.exists_leads_done (exists_follows script)
      ((called settings retries o).run l) ⟨0, []⟩
    exact ⟨r, l', s, hrun⟩
  · intro r l' s hrun
    obtain ⟨label, asked, d, hdecided, htried, rfl⟩ :=
      Program.Ensures.of_leads (ensures_called hrate hcreate retries script l) hrun
    refine ⟨label, asked, d, hdecided, rfl, rfl, htried, ?_, ?_, ?_⟩
    · simpa [calls] using htried.calls_eq
    · simpa [labels] using htried.labels_eq
    · simpa [timed] using htried.timed_eq

/-- A server that throttles twice and then answers. -/
def throttlesTwice (n : Nat) : Outcome :=
  if n < 2 then .refused (.integer 429) .null .null "(429)" else .object (.object [])

def credentialRead : Operation :=
  ⟨"get", "Secret", ⟨.text "Secret", .text "default", .text "db"⟩,
    ⟨.read, .builtin "core" "secret", .text "default", .text "db", .null⟩⟩

/-- The read takes three attempts and returns the answer. -/
theorem throttled_read_answers :
    ∃ l' s, Program.Leads (follows throttlesTwice)
        ((called {} defaultRetries credentialRead).run .fresh) ⟨0, []⟩
        (.done (.ok (.object []), l')) s ∧
      s.used = 3 ∧ labels s.log =
        [("get_secret", "throttled"), ("get_secret", "throttled"), ("get_secret", "success")] := by
  have hread := perform_follows_script (fun _ _ => true) {} (by decide)
    (.get (.text "Secret") (.text "default") (.text "db")) credentialRead rfl defaultRetries
    throttlesTwice .fresh
  obtain ⟨-, -, ⟨r, l', s, hrun⟩, hall⟩ := hread
  obtain ⟨label, asked, d, hdecided, hused, -, -, -, hlabels, -⟩ := hall r l' s hrun
  -- two outcomes of the script are throttling, so the third decides
  have hretried : retried throttlesTwice defaultRetries = 2 := by decide +kernel
  have hmetric : credentialRead.metric = "get_secret" := by decide +kernel
  rw [hretried] at hdecided hused hlabels
  rw [hmetric] at hlabels
  cases hdecided
  exact ⟨l', s, hrun, hused, hlabels⟩

end ApiStore

end Reconciler
