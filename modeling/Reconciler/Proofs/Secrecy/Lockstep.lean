import Reconciler.Proofs.Pass
import Reconciler.Proofs.Reports.Course
import Reconciler.Proofs.Secrecy.Veil

/-! # Programs in lockstep

Two programs go in lockstep when they ask the same questions, up to the passwords of the Secrets they
create, as long as they get the same answers, up to passwords. What they draw at random may differ. So
nothing that they leave behind may depend on it, and their results are related.

Main definitions and statements:

* `Lockstep`: two programs in lockstep, by induction on their questions;
* `Pass.InStep`: the same for passes, with one rule for each way a pass is built;
* `Circumstances`: what happens to a series of passes, whatever they draw;
* `Lockstep.courses`: the courses of two programs in lockstep.
-/

namespace Reconciler

/-! ## Calls -/

namespace StoreCall

/-- A call without the password of the Secret that it creates, if it creates one. -/
def veiled : StoreCall → StoreCall
  | create object =>
    create (if object.field? "kind" = some (.text Kind.secret) then object.veiled else object)
  | call => call

/-- A call that fetches from where there are no Secrets. -/
def Open : StoreCall → Prop
  | get kind _ _ => kind ≠ .text Kind.secret
  | _ => False

end StoreCall

/-- The calls that passes of services and databases make: two calls differ in the password of the Secret
they create at most. -/
inductive Counterparts : StoreCall → StoreCall → Prop where
  | fetch (kind ns name : Value) : Counterparts (.get kind ns name) (.get kind ns name)
  | create (object : Value) : Counterparts (.create object) (.create object)
  | secret {object object' : Value} :
      object.field? "kind" = some (.text Kind.secret) → object.veiled = object'.veiled →
      Counterparts (.create object) (.create object')
  | update (object : Value) : Counterparts (.update object) (.update object)

/-! ## Programs -/

/-- The questions that are the same in both programs, and so are their answers: about the time, and what is
left behind. -/
def PassOp.Common : PassOp → Prop
  | .store _ | .random _ => False
  | _ => True

/-- Two programs that ask the same, up to passwords, as long as they hear the same, up to passwords. -/
inductive Lockstep {α β : Type} (post : α → β → Prop) : SafePass α → SafePass β → Prop where
  /-- Both are finished. -/
  | done {a : α} {b : β} : post a b → Lockstep post (.done a) (.done b)
  /-- Both ask the same question. -/
  | common {op : PassOp} {next : op.Answer → SafePass α} {next' : op.Answer → SafePass β} :
      op.Common → (∀ reply, Lockstep post (next reply) (next' reply)) →
      Lockstep post (.ask (S := passSignature) op next) (.ask (S := passSignature) op next')
  /-- Both call the store. -/
  | store {call call' : StoreCall} {next next'} :
      Counterparts call call' →
      (∀ reply reply', Alike reply reply' → (call.Open → reply = reply') →
        Lockstep post (next reply) (next' reply')) →
      Lockstep post (.ask (S := passSignature) (.store call) next)
        (.ask (S := passSignature) (.store call') next')
  /-- Both draw at random, each for itself. -/
  | random {op op' : RandomOp} {next next'} :
      (∀ reply reply', op.Lawful reply → op'.Lawful reply' →
        Lockstep post (next reply) (next' reply')) →
      Lockstep post (.ask (S := passSignature) (.random op) next)
        (.ask (S := passSignature) (.random op') next')

/-- A part that is in lockstep, gone on with in lockstep. -/
theorem Lockstep.bind {α β γ δ : Type} {mid : α → β → Prop} {post : γ → δ → Prop} {p : SafePass α}
    {p' : SafePass β} {k : α → SafePass γ} {k' : β → SafePass δ} (h : Lockstep mid p p')
    (hk : ∀ a b, mid a b → Lockstep post (k a) (k' b)) : Lockstep post (p >>= k) (p' >>= k') := by
  induction h with
  | done hmid => exact hk _ _ hmid
  | common hop _ ih => exact .common hop ih
  | store hcall _ ih => exact .store hcall ih
  | random _ ih => exact .random ih

theorem lockstep_tell {α β : Type} {post : α → β → Prop} (t : Trace) {k : Unit → SafePass α}
    {k' : Unit → SafePass β} (hnext : Lockstep post (k ()) (k' ())) :
    Lockstep post (SafePass.trace t >>= k) (SafePass.trace t >>= k') :=
  .common trivial fun _ => hnext

/-! ## Passes -/

/-- Two ends of a pass: both values, that are related, or the same failure. -/
inductive SameEnd {α β : Type} (rel : α → β → Prop) : Except Failure α → Except Failure β → Prop where
  | ok {a : α} {b : β} : rel a b → SameEnd rel (.ok a) (.ok b)
  | error (f : Failure) : SameEnd rel (.error f) (.error f)

theorem SameEnd.refl {α : Type} (r : Except Failure α) : SameEnd Eq r r := by
  cases r with
  | ok a => exact .ok rfl
  | error f => exact .error f

/-- Two ends that are the same in value are the same. -/
theorem SameEnd.eq {α : Type} {r r' : Except Failure α} (h : SameEnd Eq r r') : r = r' := by
  cases h with
  | ok hsame => exact congrArg Except.ok hsame
  | error f => rfl

namespace Pass

variable {α β γ δ : Type} {rel : α → β → Prop}

abbrev InStep (rel : α → β → Prop) (p : Pass α) (p' : Pass β) : Prop :=
  Lockstep (SameEnd rel) p.run p'.run

theorem inStep_pure {a : α} {b : β} (h : rel a b) : InStep rel (pure a) (pure b) :=
  .done (.ok h)

theorem inStep_throw (f : Failure) : InStep rel (throw f : Pass α) (throw f : Pass β) :=
  .done (.error f)

/-- Passes in step, followed by passes that are in step for whatever the first ones hand on. -/
theorem inStep_bind {mid : γ → δ → Prop} {p : Pass γ} {p' : Pass δ} {k : γ → Pass α} {k' : δ → Pass β}
    (h : InStep mid p p') (hk : ∀ c d, mid c d → InStep rel (k c) (k' d)) :
    InStep rel (p >>= k) (p' >>= k') := by
  refine Lockstep.bind h ?_
  rintro r r' (hmid | f)
  · exact hk _ _ hmid
  · exact .done (.error f)

theorem inStep_liftRead (read : Except Fault α) : InStep Eq (liftM read : Pass α) (liftM read) := by
  cases read with
  | ok a => exact .done (.ok rfl)
  | error f => exact .done (.error _)

/-- A reading of what both know is the same. -/
theorem inStep_read {read : Except Fault γ} {k : γ → Pass α} {k' : γ → Pass β}
    (hk : ∀ c, read = .ok c → InStep rel (k c) (k' c)) :
    InStep rel (liftM read >>= k) (liftM read >>= k') := by
  cases read with
  | ok c => exact hk c rfl
  | error f => exact .done (.error _)

theorem inStep_tell (t : Trace) {k : Unit → Pass α} {k' : Unit → Pass β}
    (hnext : InStep rel (k ()) (k' ())) :
    InStep rel (liftM (SafePass.trace t) >>= k) (liftM (SafePass.trace t) >>= k') :=
  .common trivial fun _ => hnext

theorem inStep_note {kind : String} {level : Level} {metadata : Value} {r : Remark} {k : Unit → Pass α}
    {k' : Unit → Pass β} (hnext : InStep rel (k ()) (k' ())) :
    InStep rel (log kind level metadata r >>= k) (log kind level metadata r >>= k') := by
  have hlog : InStep Eq (log kind level metadata r) (log kind level metadata r) := by
    unfold log
    exact inStep_read fun _ _ => .common trivial fun _ => .done (.ok rfl)
  exact inStep_bind hlog fun _ _ _ => hnext

/-- Both make a call, and go on with replies that differ in a password at most. -/
theorem inStep_attempt {call call' : StoreCall} (hcall : Counterparts call call')
    {k : Except Failure Value → Pass α} {k' : Except Failure Value → Pass β}
    (hnext : ∀ reply reply', Alike reply reply' → (call.Open → reply = reply') →
      InStep rel (k reply) (k' reply')) :
    InStep rel ((Pass.call call).outcome >>= k) ((Pass.call call').outcome >>= k') :=
  .store hcall hnext

/-- What is fetched from where there are no Secrets is the same. -/
theorem inStep_fetch {kind : String} (hkind : kind ≠ Kind.secret) (ns name : Value) {k : Value → Pass α}
    {k' : Value → Pass β} (hnext : ∀ v, InStep rel (k v) (k' v)) :
    InStep rel (Pass.get kind ns name >>= k) (Pass.get kind ns name >>= k') := by
  refine .store (.fetch _ _ _) (fun reply reply' _ hsame => ?_)
  obtain rfl := hsame fun hsecret => hkind (Value.text.inj hsecret)
  cases reply with
  | ok v => exact hnext v
  | error f => exact .done (.error f)

end Pass

/-! ## Circumstances -/

/-- What becomes of a call to the store. -/
inductive Fate where
  /-- It is answered. -/
  | served
  /-- It fails and has no effect. -/
  | lost (f : Failure)
  /-- It takes effect, but what is heard is a failure. -/
  | unheard (f : Failure)

/-- The reply to a call with some fate, and the cluster after it. -/
def Fate.outcome (c : Cluster) (call : StoreCall) : Fate → Except Failure Value × Cluster
  | served => (c.reported call, (c.perform call).2)
  | lost f => (.error f, c)
  | unheard f => (.error f, (c.perform call).2)

/-- What happens during a series of passes, whatever they draw: the fates of calls and the times, by the
number of questions asked before. -/
structure Circumstances where
  fate : Nat → StoreCall → Fate
  seconds : Nat → Rat
  instant : Nat → Instant

/-- Circumstances in which the fate of a call does not depend on the password that is sent with it. -/
def Circumstances.Blind (circumstances : Circumstances) : Prop :=
  ∀ n call call', call.veiled = call'.veiled → circumstances.fate n call = circumstances.fate n call'

/-- What a source of randomness answers, by the number of questions asked before. -/
abbrev Source : Type := Nat → (op : RandomOp) → op.Answer

/-- A source that only answers what it may. -/
def Source.Lawful (source : Source) : Prop :=
  ∀ n (op : RandomOp), op.Lawful (source n op)

/-- The cluster, and how many questions were asked. -/
structure Scene where
  cluster : Cluster
  asked : Nat

/-- The surroundings of passes in some circumstances, with a source of randomness. -/
def Circumstances.facing (circumstances : Circumstances) (source : Source) : Surroundings Scene
  | .store call => fun s =>
    let outcome := (circumstances.fate s.asked call).outcome s.cluster call
    (outcome.1, ⟨outcome.2, s.asked + 1⟩)
  | .seconds => fun s => (circumstances.seconds s.asked, ⟨s.cluster, s.asked + 1⟩)
  | .instant => fun s => (circumstances.instant s.asked, ⟨s.cluster, s.asked + 1⟩)
  | .random op => fun s => (source s.asked op, ⟨s.cluster, s.asked + 1⟩)
  | .trace _ => fun s => ((), ⟨s.cluster, s.asked + 1⟩)

/-! ## Runs side by side -/

/-- Scenes of two runs that differ in the passwords of Secrets created after the first `n` writes. -/
structure Abreast (n : Nat) (s s' : Scene) : Prop where
  asked : s.asked = s'.asked
  since : n ≤ s.cluster.journal.length
  twins : Twins (s.cluster.secretsSince n) s.cluster s'.cluster

/-- Courses of two runs that differ in passwords only: what they leave behind is the same, and so are the
calls but for the passwords in them. -/
structure Parallel {α β : Type} (post : α → β → Prop) (n : Nat) (run : Course Scene α)
    (run' : Course Scene β) : Prop where
  result : post run.result run'.result
  left : run.left = run'.left
  calls : run.heard.map (·.1.veiled) = run'.heard.map (·.1.veiled)
  state : Abreast n run.state run'.state

/-- What differs between two calls is behind the veil. -/
theorem Counterparts.veiled {call call' : StoreCall} (h : Counterparts call call') :
    call.veiled = call'.veiled := by
  cases h with
  | @secret object object' hkind hveiled =>
    have hkind' : object'.field? "kind" = some (.text Kind.secret) := by
      rw [← Value.require_eq_ok, ← Value.require_veiled (by decide), ← hveiled,
        Value.require_veiled (by decide), Value.require_eq_ok, hkind]
    simp only [StoreCall.veiled, hkind, hkind', if_true, hveiled]
  | _ => rfl

/-- The journal only grows. -/
theorem exists_journal_perform (c : Cluster) {call call' : StoreCall} (hcall : Counterparts call call') :
    ∃ more, (c.perform call).2.journal = c.journal ++ more := by
  -- a creation adds itself, or nothing when it is refused
  have hcreate : ∀ object, ∃ more, (c.create object).2.journal = c.journal ++ more := by
    intro object
    rcases Cluster.create_cases c object with ⟨f, hf⟩ | ⟨a, stored, -, -, -, -, -, hdone⟩
    · exact ⟨[], by rw [hf, List.append_nil]⟩
    · exact ⟨[⟨"create", a⟩], by rw [hdone]; rfl⟩
  cases hcall with
  | fetch kind ns name => exact ⟨[], by rw [Cluster.perform, Cluster.get_snd, List.append_nil]⟩
  | create object => exact hcreate object
  | secret _ _ => exact hcreate _
  | update object =>
    rcases Cluster.update_cases c object with
      ⟨f, hf⟩ | ⟨a, stored, status, base, replaced, -, -, -, -, -, hdone⟩
    · exact ⟨[], by rw [Cluster.perform, hf, List.append_nil]⟩
    · exact ⟨[⟨"update", a⟩], by rw [Cluster.perform, hdone]; rfl⟩

/-- A Secret that is created is created where a Secret may be. -/
theorem kind_of_created {c : Cluster} {object : Value} {a : Address}
    (hkind : object.field? "kind" = some (.text Kind.secret))
    (hjournal : (c.create object).2.journal = c.journal ++ [⟨"create", a⟩]) :
    a.kind = .text Kind.secret := by
  rcases Cluster.create_cases c object with ⟨f, hf⟩ | ⟨b, stored, haddr, -, -, -, -, hdone⟩
  · rw [hf] at hjournal
    simp at hjournal
  · rw [hdone] at hjournal
    have hsame : b = a := by simpa using hjournal
    obtain ⟨-, -, hbkind, -, -⟩ := Cluster.addressOf_eq_ok.mp haddr
    rw [← hsame]
    exact Option.some.inj (hbkind.symm.trans hkind)

/-- Twins answer counterparts alike, and the same when no Secret is fetched. They are twins afterwards, up
to the Secrets created by then. -/
theorem Twins.perform {n : Nat} {c c' : Cluster} {call call' : StoreCall}
    (h : Twins (c.secretsSince n) c c') (hn : n ≤ c.journal.length) (hcall : Counterparts call call') :
    Alike (c.perform call).1 (c'.perform call').1 ∧
      (call.Open → (c.perform call).1 = (c'.perform call').1) ∧
      Twins ((c.perform call).2.secretsSince n) (c.perform call).2 (c'.perform call').2 := by
  obtain ⟨more, hmore⟩ := exists_journal_perform c hcall
  have hsub := secretsSince_subset (n := n) hmore
  cases hcall with
  | fetch kind ns name =>
    obtain ⟨halike, hsame⟩ := h.get ⟨kind, ns, name⟩
    refine ⟨halike, fun hopen => hsame ?_, ?_⟩
    · -- a fetch that is open asks for no Secret, so the reply is the same and not only alike
      intro hsecret
      exact hopen (mem_secretsSince.mp hsecret).2
    · simpa only [Cluster.perform, Cluster.get_snd] using h
  | create object =>
    obtain ⟨halike, htwins⟩ := h.create rfl hsub fun _ _ => .inl rfl
    exact ⟨halike, False.elim, htwins⟩
  | secret hkind hveiled =>
    obtain ⟨halike, htwins⟩ := h.create hveiled hsub fun a hjournal =>
      .inr (mem_secretsSince_created hn hjournal (kind_of_created hkind hjournal))
    exact ⟨halike, False.elim, htwins⟩
  | update object =>
    obtain ⟨hsame, htwins⟩ := h.update object
    exact ⟨congrArg _ hsame, False.elim, htwins.mono hsub⟩

/-- Twins stay twins after calls that meet with the same fate, when the fate does not depend on passwords. -/
theorem Twins.outcome {n : Nat} {c c' : Cluster} {call call' : StoreCall}
    (h : Twins (c.secretsSince n) c c') (hn : n ≤ c.journal.length) (hcall : Counterparts call call')
    {fate fate' : Fate} (hfate : fate = fate') :
    Alike (fate.outcome c call).1 (fate'.outcome c' call').1 ∧
      (call.Open → (fate.outcome c call).1 = (fate'.outcome c' call').1) ∧
      n ≤ (fate.outcome c call).2.journal.length ∧
      Twins ((fate.outcome c call).2.secretsSince n) (fate.outcome c call).2 (fate'.outcome c' call').2 := by
  subst hfate
  obtain ⟨halike, hsame, htwins⟩ := h.perform hn hcall
  obtain ⟨more, hmore⟩ := exists_journal_perform c hcall
  -- the journal does not get shorter, so the Secrets that count stay those created since
  have hn' : n ≤ (c.perform call).2.journal.length := by
    rw [hmore, List.length_append]
    exact Nat.le_add_right_of_le hn
  cases fate with
  | served =>
    refine ⟨?_, fun hopen => ?_, hn', htwins⟩
    · rcases alike_iff.mp halike with ⟨f, hf, hf'⟩ | ⟨v, v', hv, hv', hveiled⟩
      · simp only [Fate.outcome, Cluster.reported, hf, hf']
        rfl
      · simp only [Fate.outcome, Cluster.reported, hv, hv']
        exact congrArg Except.ok hveiled
    · simp only [Fate.outcome, Cluster.reported, hsame hopen]
  | lost f => exact ⟨rfl, fun _ => rfl, hn, h⟩
  | unheard f => exact ⟨rfl, fun _ => rfl, hn', htwins⟩

section Courses

variable {α β : Type} {post : α → β → Prop} {circumstances : Circumstances} {source source' : Source}
variable {n : Nat} {s s' : Scene}

/-- A question of both, gone on with side by side. -/
theorem Parallel.andThen {γ δ : Type} {first : Course Scene γ} {first' : Course Scene δ}
    {rest : Course Scene α} {rest' : Course Scene β} (hleft : first.left = first'.left)
    (hcalls : first.heard.map (·.1.veiled) = first'.heard.map (·.1.veiled))
    (hrest : Parallel post n rest rest') : Parallel post n (first.andThen rest) (first'.andThen rest') := by
  refine ⟨hrest.result, ?_, ?_, hrest.state⟩
  · rw [Course.left_andThen, Course.left_andThen, hleft, hrest.left]
  · rw [Course.heard_andThen, Course.heard_andThen, List.map_append, List.map_append, hcalls, hrest.calls]

/-- Programs in lockstep, in the same circumstances and with any sources of randomness, run side by side. -/
theorem Lockstep.courses {p : SafePass α} {p' : SafePass β} (h : Lockstep post p p')
    (hblind : circumstances.Blind) (hlawful : source.Lawful) (hlawful' : source'.Lawful)
    (hs : Abreast n s s') :
    Parallel post n (p.course (circumstances.facing source) s)
      (p'.course (circumstances.facing source') s') := by
  -- the induction is on the questions; both scenes count them, so both get the same fate and the same time
  induction h generalizing s s' with
  | done hpost => exact ⟨hpost, rfl, rfl, hs⟩
  | @common op next next' hop _ ih =>
    obtain ⟨c, asked⟩ := s
    obtain ⟨c', asked'⟩ := s'
    obtain rfl : asked = asked' := hs.asked
    have hnext : Abreast n ⟨c, asked + 1⟩ ⟨c', asked + 1⟩ := ⟨rfl, hs.since, hs.twins⟩
    cases op with
    | store call => cases hop
    | random op => cases hop
    | seconds => exact .andThen rfl rfl (ih (circumstances.seconds asked) hnext)
    | instant => exact .andThen rfl rfl (ih (circumstances.instant asked) hnext)
    | trace t => exact .andThen rfl rfl (ih () hnext)
  | @store call call' next next' hcall _ ih =>
    obtain ⟨c, asked⟩ := s
    obtain ⟨c', asked'⟩ := s'
    obtain rfl : asked = asked' := hs.asked
    obtain ⟨halike, hsame, hsince, htwins⟩ :=
      hs.twins.outcome hs.since hcall (hblind asked call call' hcall.veiled)
    -- what is heard of the calls differs behind the veil only
    have hcalls : [call.veiled] = [call'.veiled] := congrArg (fun c => [c]) hcall.veiled
    exact .andThen rfl hcalls (ih _ _ halike hsame ⟨rfl, hsince, htwins⟩)
  | @random op op' next next' _ ih =>
    have hnext : Abreast n ⟨s.cluster, s.asked + 1⟩ ⟨s'.cluster, s'.asked + 1⟩ :=
      ⟨congrArg (· + 1) hs.asked, hs.since, hs.twins⟩
    exact .andThen rfl rfl (ih _ _ (hlawful s.asked op) (hlawful' s'.asked op') hnext)

end Courses

end Reconciler
