import Reconciler.Proofs.Api.Attempts
import Mathlib.Algebra.Order.Field.Rat
import Mathlib.Tactic.Linarith
import Mathlib.Tactic.Positivity
import Mathlib.Tactic.Ring

/-! # Spacing of calls

The limiter reads the clock when a call arrives, waits for what is missing since the start it remembers,
reads the clock again and remembers that. Every attempt at a store call passes through it, between waits
and readings of the store itself.

So what is known of the calls is what is known of the readings in front of them. On any clock at all, a
call waits until an interval has passed since the start before it; if the clock has stepped back
behind that start, this is longer than an interval. On a clock that only moves forward, and that a wait
moves by exactly its length, the calls start where they should.

Main definitions and statements:

* `Turn`, `turns`: the calls in a log of readings and waits;
* `wandering`, `ticking`: a clock that shows anything, and one that moves forward;
* `Calls`: the runs of limited calls and of store calls, one after another;
* `Keeps`: what the attempts at a store call keep if one limited call does;
* `waits_at_most_interval_iff`: a wait is longer than an interval exactly when the clock stepped back
  behind the start before;
* `starts_spaced`: on a clock that moves forward, a call starts when it arrives or an interval after the
  start before, whichever is later.
-/

namespace Reconciler

namespace Spacing

/-! ## Clocks -/

/-- What happens on the way to calls: the clock is read, time is waited for, a call starts. -/
inductive Tick where
  | read (now : Rat)
  | slept (seconds : Rat)
  | called
deriving DecidableEq

/-- A limited call: the reading when it arrived, how long it was made to wait, and the reading when it
started. -/
structure Turn where
  arrival : Rat
  waited : Rat
  start : Rat
deriving DecidableEq

/-- The limited calls in a log, the latest first. -/
def turns : List Tick → List Turn
  | .called :: .read start :: .read arrival :: earlier => ⟨arrival, 0, start⟩ :: turns earlier
  | .called :: .read start :: .slept d :: .read arrival :: earlier =>
    ⟨arrival, d, start⟩ :: turns earlier
  | _ :: earlier => turns earlier
  | [] => []

@[simp]
theorem turns_read (now : Rat) (log : List Tick) : turns (.read now :: log) = turns log := by
  rw [turns]
  · intro _ _ _ h
    cases h
  · intro _ _ _ _ h
    cases h

@[simp]
theorem turns_slept (d : Rat) (log : List Tick) : turns (.slept d :: log) = turns log := by
  rw [turns]
  · intro _ _ _ h
    cases h
  · intro _ _ _ _ h
    cases h

/-- The start of the latest call; the beginning of time when there is none. -/
def lastStart (earlier : List Turn) : Rat :=
  (earlier.head?.map Turn.start).getD 0

/-- A clock that may show anything at any time. -/
def wandering : Responder apiSignature (List Tick)
  | log, .seconds, (now : Rat), log' => log' = .read now :: log
  | log, .sleep d, _, log' => log' = .slept d :: log
  | log, .call _, _, log' => log' = .called :: log
  | log, .trace _, _, log' => log' = log

/-- A clock with what it shows, what was read and waited for, and what it showed when calls started. -/
structure Watch where
  now : Rat
  log : List Tick
  started : List Rat

def Watch.Later (w w' : Watch) : Prop :=
  w.now ≤ w'.now ∧ w'.log = w.log ∧ w'.started = w.started

/-- A clock that never steps back. A wait moves it by exactly its length, a call and what is left behind
take any time, and a reading takes none. -/
def ticking : Responder apiSignature Watch
  | w, .seconds, (now : Rat), w' => now = w.now ∧ w' = ⟨w.now, .read w.now :: w.log, w.started⟩
  | w, .sleep d, _, w' => w' = ⟨w.now + d, .slept d :: w.log, w.started⟩
  | w, .call _, _, w' => w.now ≤ w'.now ∧ w'.log = .called :: w.log ∧ w'.started = w.now :: w.started
  | w, .trace _, _, w' => w.Later w'

/-- In an environment with a clock, a log is kept of what happens. -/
def Logs {σ : Type} (E : Responder apiSignature σ) (log : σ → List Tick) : Prop :=
  ∀ s op answer s', E s op answer s' → wandering (log s) op answer (log s')

theorem logs_wandering : Logs wandering id :=
  fun _ _ _ _ h => h

/-- A clock that moves forward logs what a clock that wanders would. -/
theorem logs_ticking : Logs ticking Watch.log := by
  intro w op answer w' h
  cases op with
  -- calls and traces may take time, which the log does not show
  | seconds =>
    obtain ⟨rfl, rfl⟩ := h
    rfl
  | sleep d =>
    obtain rfl := h
    rfl
  | call c => exact h.2.1
  | trace t => exact h.2.1

theorem exists_ticking (w : Watch) (op : ApiOp) : ∃ answer w', ticking w op answer w' := by
  cases op with
  | seconds => exact ⟨w.now, _, rfl, rfl⟩
  | sleep d => exact ⟨(), _, rfl⟩
  | call c =>
    exact ⟨(.ok .null : Except Failure Value), ⟨w.now, .called :: w.log, w.now :: w.started⟩,
      le_refl _, rfl, rfl⟩
  | trace t => exact ⟨(), w, le_refl _, rfl, rfl⟩

/-! ## Calls -/

/-- A call to the API server when it may start. -/
def limited (a : Arithmetic) (rate : Rat) (c : ApiCall) : ApiStore.Attempt (Except Failure Value) :=
  Limiter.spaced a rate (.query (S := apiSignature) (.call c) : ApiProgram (Except Failure Value))

/-- One call after another, from a limiter that has seen none: calls of any kind, and store calls with
all their attempts. In between the environment may go on by itself. -/
inductive Calls {σ : Type} (E : Responder apiSignature σ) (idle : σ → σ → Prop) (a : Arithmetic)
    (rate : Rat) (first : σ) : Limiter → σ → Prop
  | none : Calls E idle a rate first .fresh first
  | idle {l : Limiter} {s s' : σ} : Calls E idle a rate first l s → idle s s' →
      Calls E idle a rate first l s'
  | call {l l' : Limiter} {s s' : σ} {r : Except Failure Value} (c : ApiCall) :
      Calls E idle a rate first l s →
      Program.Leads E ((limited a rate c).run l) s (.done (r, l')) s' →
      Calls E idle a rate first l' s'
  | store {l l' : Limiter} {s s' : σ} {r : Except Failure Value} (methods : Methods)
      (settings : Settings) (retries : Nat) (c : StoreCall) : settings.arithmetic = a → settings.callRate = rate →
      Calls E idle a rate first l s →
      Program.Leads E ((ApiStore.perform methods settings retries c).run l) s (.done (r, l')) s' →
      Calls E idle a rate first l' s'

section Keeps

variable {σ α β : Type} {E : Responder apiSignature σ} {I : Limiter → σ → Prop} {idle : σ → σ → Prop}
variable {a : Arithmetic} {rate : Rat} {first : σ} {l : Limiter} {s : σ}

/-- What holds of the limiter and the environment before a part of a store call holds after it. -/
def Keeps (E : Responder apiSignature σ) (I : Limiter → σ → Prop) (p : ApiStore.Attempt α) : Prop :=
  ∀ l s, I l s → (p.run l).Ensures E (fun _ _ => True) (fun s' r => I r.2 s') s

theorem keeps_pure (x : α) : Keeps E I (pure x) :=
  fun _ _ h => h

/-- What one part of a store call keeps and the next keeps, both together keep. -/
theorem keeps_bind {p : ApiStore.Attempt α} {k : α → ApiStore.Attempt β} (hp : Keeps E I p)
    (hk : ∀ x, Keeps E I (k x)) : Keeps E I (p >>= k) := by
  intro l s h
  refine (Program.ensures_bind (p.run l) (fun r => (k r.1).run r.2) s).mpr ?_
  exact (hp l s h).mono (fun _ _ => id) fun s' r hr => hk r.1 r.2 s' hr

/-- What a question that is no call to the API server leaves as it is. -/
def Unmoved (E : Responder apiSignature σ) (I : Limiter → σ → Prop) : Prop :=
  ∀ l s op answer s', (∀ c, op ≠ .call c) → E s op answer s' → I l s → I l s'

theorem keeps_ask (hother : Unmoved E I) {op : ApiOp} (hop : ∀ c, op ≠ .call c) :
    Keeps E I (ApiStore.ask op) := by
  intro l s h
  refine ⟨trivial, ?_⟩
  intro answer s' hE
  exact hother l s op answer s' hop hE h

theorem keeps_count (hother : Unmoved E I) (o : ApiStore.Operation) (label : String) :
    Keeps E I (ApiStore.count o label) :=
  keeps_ask hother fun _ => nofun

theorem keeps_conclude (hother : Unmoved E I) (o : ApiStore.Operation)
    (answer : Except Failure Value) : Keeps E I (ApiStore.conclude o answer) := by
  unfold ApiStore.conclude
  split
  · exact keeps_bind (keeps_count hother o _) fun _ => keeps_pure _
  · split
    · exact keeps_bind (keeps_count hother o _) fun _ => keeps_pure _
    · split
      · exact keeps_bind (keeps_count hother o _) fun _ => keeps_pure _
      · exact keeps_pure _

/-- What every limited call keeps, the attempts at a store call keep. The induction is on the retries
that are left. -/
theorem keeps_attempts (hother : Unmoved E I) {settings : Settings}
    (hlimited : ∀ c, Keeps E I (limited settings.arithmetic settings.callRate c))
    (o : ApiStore.Operation) (retries : Nat) :
    ∀ made, Keeps E I (ApiStore.attempts settings o made retries) := by
  induction retries with
  | zero =>
    intro made
    exact keeps_bind (hlimited o.call) fun answer => keeps_conclude hother o answer
  | succ retries ih =>
    intro made
    refine keeps_bind (hlimited o.call) fun answer => ?_
    split
    case isTrue =>
      -- a further attempt counts, sleeps and asks again, and only asking moves the limiter
      refine keeps_bind (keeps_count hother o _) fun _ => ?_
      exact keeps_bind (keeps_ask hother fun _ => nofun) fun _ => ih (made + 1)
    case isFalse => exact keeps_conclude hother o answer

/-- What every limited call keeps, a store call keeps. -/
theorem keeps_perform (hother : Unmoved E I) (methods : Methods) {settings : Settings}
    (hlimited : ∀ c, Keeps E I (limited settings.arithmetic settings.callRate c)) (retries : Nat)
    (c : StoreCall) : Keeps E I (ApiStore.perform methods settings retries c) := by
  unfold ApiStore.perform
  split
  · exact keeps_pure _
  · split
    · -- the store reads the clock for itself before and after the attempts
      refine keeps_bind (keeps_ask hother fun _ => nofun) fun start => ?_
      refine keeps_bind (keeps_attempts hother hlimited _ retries 0) fun result => ?_
      refine keeps_bind (keeps_ask hother fun _ => nofun) fun now => ?_
      exact keeps_bind (keeps_ask hother fun _ => nofun) fun _ => keeps_pure _
    · exact keeps_pure _

/-- What holds at first and is kept by every limited call holds all along. -/
theorem Calls.invariant (hfirst : I .fresh first)
    (hidle : ∀ l s s', idle s s' → I l s → I l s') (hother : Unmoved E I)
    (hlimited : ∀ c, Keeps E I (limited a rate c)) (hcalls : Calls E idle a rate first l s) :
    I l s := by
  -- the induction is on the calls; a store call is a row of limited calls with other questions between them
  induction hcalls with
  | none => exact hfirst
  | idle _ hi ih => exact hidle _ _ _ hi ih
  | call c _ hrun ih => exact (hlimited c _ _ ih).of_leads hrun
  | store methods settings retries c ha hrate _ hrun ih =>
    subst ha hrate
    exact (keeps_perform hother methods hlimited retries c _ _ ih).of_leads hrun

end Keeps

/-! ## One limited call -/

section Limited

variable {σ : Type} {E : Responder apiSignature σ} {a : Arithmetic} {rate : Rat} {l : Limiter} {s : σ}

/-- The end of a limited call: the reading that is remembered, and the call. -/
def begun (c : ApiCall) : ApiProgram (Except Failure Value × Limiter) :=
  .ask (S := apiSignature) .seconds fun (start : Rat) =>
    .ask (S := apiSignature) (.call c) fun r => .done (r, ⟨start⟩)

/-- All that a limited call asks: a reading on its arrival, perhaps a wait, and its end. -/
theorem limited_eq (hrate : rate ≠ 0) (c : ApiCall) :
    (limited a rate c).run l = .ask (S := apiSignature) .seconds fun (arrival : Rat) =>
      match l.wait? a (a.div 1 rate) arrival with
      | some d => .ask (S := apiSignature) (.sleep d) fun _ => begun c
      | none => begun c := by
  show Program.ask _ _ = _
  congr 1
  funext (arrival : Rat)
  simp only [if_neg hrate]
  have hget : ∀ k : Limiter → ApiStore.Attempt (Except Fault Unit), (get >>= k).run l = (k l).run l :=
    fun _ => rfl
  show Program.bind ((get >>= _ : ApiStore.Attempt (Except Fault Unit)).run l) _ = _
  rw [hget]
  -- the wait depends on what the limiter remembers and on the arrival alone
  cases l.wait? a (a.div 1 rate) arrival with
  | some d => rfl
  | none => rfl

/-- How an environment goes on when there may be something to wait for. -/
def Waits (E : Responder apiSignature σ) : Option Rat → σ → σ → Prop
  | some d, s, s' => E s (.sleep d) () s'
  | none, s, s' => s' = s

/-- What a limited call comes to, by the answers it gets. -/
theorem ensures_limited (hrate : rate ≠ 0) (c : ApiCall)
    {post : σ → Except Failure Value × Limiter → Prop}
    (h : ∀ (arrival start : Rat) r s₁ s₂ s₃ s₄, E s .seconds arrival s₁ →
      Waits E (l.wait? a (a.div 1 rate) arrival) s₁ s₂ → E s₂ .seconds start s₃ →
      E s₃ (.call c) r s₄ → post s₄ (r, ⟨start⟩)) :
    ((limited a rate c).run l).Ensures E (fun _ _ => True) post s := by
  rw [limited_eq hrate c]
  refine ⟨trivial, ?_⟩
  intro (arrival : Rat) s₁ harrival
  -- the end of the call is the same, with and without a wait
  have hbegun : ∀ s₂, Waits E (l.wait? a (a.div 1 rate) arrival) s₁ s₂ →
      (begun c).Ensures E (fun _ _ => True) post s₂ := by
    intro s₂ hwaits
    refine ⟨trivial, fun (start : Rat) s₃ hstart => ⟨trivial, fun r s₄ hcall => ?_⟩⟩
    exact h arrival start r s₁ s₂ s₃ s₄ harrival hwaits hstart hcall
  cases hwait : l.wait? a (a.div 1 rate) arrival with
  | some d =>
    simp only [hwait] at hbegun ⊢
    exact ⟨trivial, fun _ s₂ hslept => hbegun s₂ hslept⟩
  | none =>
    simp only [hwait] at hbegun ⊢
    exact hbegun s₁ rfl

/-- A limited call is the latest of the calls in the log when it is done. -/
theorem turns_limited {c : ApiCall} {wait? : Option Rat} {arrival start : Rat}
    {r : Except Failure Value} {log log₁ log₂ log₃ log₄ : List Tick}
    (harrival : wandering log .seconds arrival log₁) (hwaits : Waits wandering wait? log₁ log₂)
    (hstart : wandering log₂ .seconds start log₃) (hcall : wandering log₃ (.call c) r log₄) :
    turns log₄ = ⟨arrival, wait?.getD 0, start⟩ :: turns log := by
  obtain rfl := hcall
  obtain rfl := hstart
  obtain rfl := harrival
  cases wait? with
  | some d =>
    obtain rfl := hwaits
    rfl
  | none =>
    obtain rfl := hwaits
    rfl

end Limited

/-! ## Waits -/

section Waiting

variable {σ : Type} {E : Responder apiSignature σ} {idle : σ → σ → Prop} {log : σ → List Tick}
variable {a : Arithmetic} {rate : Rat} {l : Limiter} {s first : σ}
variable {later earlier : List Turn} {t : Turn}

/-- What a call has to wait for when it arrives. -/
def missing (a : Arithmetic) (rate : Rat) (earlier : List Turn) (arrival : Rat) : Rat :=
  ((⟨lastStart earlier⟩ : Limiter).wait? a (a.div 1 rate) arrival).getD 0

/-- Without rounding, it is the time until an interval has passed since the start before. -/
theorem missing_exact (rate : Rat) (earlier : List Turn) (arrival : Rat) :
    missing .exact rate earlier arrival = max 0 (lastStart earlier + 1 / rate - arrival) := by
  have hwait : (⟨lastStart earlier⟩ : Limiter).wait? .exact (Arithmetic.exact.div 1 rate) arrival =
      if arrival - lastStart earlier < 1 / rate then some (1 / rate - (arrival - lastStart earlier))
      else none := rfl
  rw [missing, hwait]
  by_cases hearly : arrival - lastStart earlier < 1 / rate
  case pos =>
    rw [if_pos hearly, Option.getD_some, max_eq_right (by linarith)]
    linarith
  case neg => rw [if_neg hearly, Option.getD_none, max_eq_left (by linarith)]

/-- Every call waited for what was missing. -/
def Patient (a : Arithmetic) (rate : Rat) : List Turn → Prop
  | [] => True
  | t :: earlier => t.waited = missing a rate earlier t.arrival ∧ Patient a rate earlier

/-- Every call of a patient log waited for what was missing, wherever it stands in the log. -/
theorem Patient.waited (h : Patient a rate (later ++ t :: earlier)) :
    t.waited = missing a rate earlier t.arrival := by
  induction later with
  | nil => exact h.1
  | cons _ later ih => exact ih h.2

/-- The limiter remembers the start of the latest call, and every call waited for what was missing. -/
def Remembers (a : Arithmetic) (rate : Rat) (log : σ → List Tick) (l : Limiter) (s : σ) : Prop :=
  l.lastStart = lastStart (turns (log s)) ∧ Patient a rate (turns (log s))

theorem Waits.project (hlog : Logs E log) {wait? : Option Rat} {s s' : σ} (h : Waits E wait? s s') :
    Waits wandering wait? (log s) (log s') := by
  cases wait? with
  | some d => exact hlog _ _ _ _ h
  | none => exact congrArg log h

/-- A question that is no call to the API server adds no limited call to the log. -/
theorem turns_unmoved {log log' : List Tick} {op : ApiOp} {answer : op.Answer}
    (hop : ∀ c, op ≠ .call c) (h : wandering log op answer log') : turns log' = turns log := by
  cases op with
  | call c => exact absurd rfl (hop c)
  | seconds =>
    obtain rfl := h
    exact turns_read _ _
  | sleep d =>
    obtain rfl := h
    exact turns_slept _ _
  | trace t =>
    obtain rfl := h
    rfl

/-- A limited call adds itself to a log of patient calls, and is remembered as the latest. -/
theorem keeps_remembers (hrate : rate ≠ 0) (hlog : Logs E log) (c : ApiCall) :
    Keeps E (Remembers a rate log) (limited a rate c) := by
  rintro ⟨last⟩ s ⟨hlast, hpatient⟩
  simp only at hlast
  -- what the limiter remembers is the start of the latest call in the log
  subst hlast
  apply ensures_limited hrate c
  intro arrival start r s₁ s₂ s₃ s₄ harrival hwaits hstart hcall
  have hturns := turns_limited (hlog _ _ _ _ harrival) (hwaits.project hlog) (hlog _ _ _ _ hstart)
    (hlog _ _ _ _ hcall)
  simp only [Remembers, hturns]
  exact ⟨rfl, rfl, hpatient⟩

/-- A limiter remembers the start of the latest call all along a run of calls. -/
theorem Calls.remembers (hrate : rate ≠ 0) (hlog : Logs E log)
    (hidle : ∀ s s', idle s s' → log s' = log s) (hfirst : log first = [])
    (hcalls : Calls E idle a rate first l s) : Remembers a rate log l s := by
  refine hcalls.invariant ?_ ?_ ?_ (keeps_remembers hrate hlog)
  · simp only [Remembers, hfirst]
    exact ⟨rfl, trivial⟩
  · intro l s s' hi h
    simpa only [Remembers, hidle s s' hi] using h
  · intro l s op answer s' hop hE h
    simpa only [Remembers, turns_unmoved hop (hlog _ _ _ _ hE)] using h

/-- Without rounding, every call of a run waited until an interval had passed since the start before. -/
theorem Calls.waited (hrate : rate ≠ 0) (hlog : Logs E log)
    (hidle : ∀ s s', idle s s' → log s' = log s) (hfirst : log first = [])
    (hcalls : Calls E idle .exact rate first l s)
    (ht : turns (log s) = later ++ t :: earlier) :
    t.waited = max 0 (lastStart earlier + 1 / rate - t.arrival) := by
  obtain ⟨-, hpatient⟩ := hcalls.remembers hrate hlog hidle hfirst
  rw [ht] at hpatient
  rw [hpatient.waited, missing_exact]

end Waiting

/-- The rate limiter never makes a call wait for longer than an interval. -/
def NeverStalls : Prop :=
  ∀ (rate : Rat) (l : Limiter) (log : List Tick), 0 < rate →
    Calls wandering (fun log log' => log' = log) .exact rate [] l log →
    ∀ t ∈ turns log, t.waited ≤ 1 / rate

/-- On any clock, a call waits until an interval has passed since the start before it. So it waits for
longer than an interval exactly when the clock has stepped back behind that start; until the first call,
that start is the beginning of time. -/
theorem waits_at_most_interval_iff {rate : Rat} (hrate : 0 < rate) {l : Limiter} {log : List Tick}
    (hcalls : Calls wandering (fun log log' => log' = log) .exact rate [] l log)
    {later earlier : List Turn} {t : Turn} (ht : turns log = later ++ t :: earlier) :
    t.waited = max 0 (lastStart earlier + 1 / rate - t.arrival) ∧
      (t.waited ≤ 1 / rate ↔ lastStart earlier ≤ t.arrival) := by
  have hwaited := hcalls.waited hrate.ne' logs_wandering (fun _ _ h => h) rfl ht
  have hinterval : 0 < 1 / rate := by positivity
  refine ⟨hwaited, ?_⟩
  rw [hwaited, max_le_iff]
  -- a wait of at most an interval and an arrival that is not before the start before are the same inequality
  constructor
  · rintro ⟨-, hle⟩
    linarith
  · intro hle
    exact ⟨hinterval.le, by linarith⟩

/-- A limited call on a clock that shows two times. -/
theorem leads_limited {a : Arithmetic} {rate : Rat} (hrate : rate ≠ 0) (c : ApiCall) {l : Limiter}
    (log : List Tick) {arrival : Rat} {wait? : Option Rat}
    (hwait : l.wait? a (a.div 1 rate) arrival = wait?) (start : Rat) (r : Except Failure Value) :
    Program.Leads wandering ((limited a rate c).run l) log (.done (r, ⟨start⟩))
      (.called :: .read start :: (wait?.toList.map .slept ++ .read arrival :: log)) := by
  subst hwait
  rw [limited_eq hrate c]
  have hread : ∀ log now, wandering log .seconds now (.read now :: log) := fun _ _ => rfl
  have hcalled : ∀ log, wandering log (.call c) r (.called :: log) := fun _ => rfl
  have hslept : ∀ log d, wandering log (.sleep d) () (.slept d :: log) := fun _ _ => rfl
  have hbegun : ∀ log, Program.Leads wandering (begun c) log (.done (r, ⟨start⟩))
      (.called :: .read start :: log) :=
    fun _ => .ask (hread _ start) (.ask (hcalled _) (.here _ _))
  refine .ask (hread _ arrival) ?_
  cases l.wait? a (a.div 1 rate) arrival with
  | some d => exact .ask (hslept _ d) (hbegun _)
  | none => exact hbegun _

/-- Ten calls a second: one starts at once, and the clock shows another time when the next arrives. -/
theorem two_calls {arrival d : Rat}
    (hwait : (⟨1700000000⟩ : Limiter).wait? .exact (Arithmetic.exact.div 1 10) arrival = some d)
    (start : Rat) :
    Calls wandering (fun log log' => log' = log) .exact 10 [] ⟨start⟩
      [.called, .read start, .slept d, .read arrival,
        .called, .read 1700000000, .read 1700000000] := by
  have hrate : (10 : Rat) ≠ 0 := by norm_num
  -- no call was made before, so there is nothing to wait for
  have hfirst : Limiter.fresh.wait? .exact (Arithmetic.exact.div 1 10) 1700000000 = none := by
    decide +kernel
  apply Calls.call ApiStore.credentialRead.call
  · exact .call ApiStore.credentialRead.call .none
      (leads_limited hrate _ _ hfirst 1700000000 (.ok .null))
  · exact leads_limited hrate _ _ hwait start (.ok .null)

/-- There is a run of two calls of which the second comes half an interval after the first. It waits for the
other half, and so no call of this run waits for longer than an interval. -/
theorem next_call_waits_half_interval :
    ∃ l log, Calls wandering (fun log log' => log' = log) .exact 10 [] l log ∧
      turns log = [⟨1700000000 + 1 / 20, 1 / 20, 1700000000 + 1 / 10⟩, ⟨1700000000, 0, 1700000000⟩] ∧
      ∀ t ∈ turns log, t.waited ≤ 1 / 10 := by
  have hwait : (⟨1700000000⟩ : Limiter).wait? .exact (Arithmetic.exact.div 1 10) (1700000000 + 1 / 20) =
      some (1 / 20) := by
    decide +kernel
  have hcalls := two_calls hwait (1700000000 + 1 / 10)
  have hturns : turns [.called, .read (1700000000 + 1 / 10), .slept (1 / 20), .read (1700000000 + 1 / 20),
        .called, .read 1700000000, .read 1700000000] =
      [⟨1700000000 + 1 / 20, 1 / 20, 1700000000 + 1 / 10⟩, ⟨1700000000, 0, 1700000000⟩] :=
    rfl
  refine ⟨_, _, hcalls, hturns, ?_⟩
  rw [hturns]
  intro t ht
  rcases List.mem_pair.mp ht with rfl | rfl
  · -- the clock has not stepped back behind the first call
    have hiff := (waits_at_most_interval_iff (by norm_num) hcalls (show turns _ = [] ++ _ :: _ from hturns)).2
    refine hiff.mpr ?_
    norm_num [lastStart]
  · -- there was no call before the first
    have hiff := (waits_at_most_interval_iff (by norm_num) hcalls (show turns _ = [_] ++ _ :: _ from hturns)).2
    refine hiff.mpr ?_
    norm_num [lastStart]

/-- When the clock has been set back by an hour in between, the next call waits for that hour. -/
theorem not_neverStalls : ¬ NeverStalls := by
  intro h
  have hwait : (⟨1700000000⟩ : Limiter).wait? .exact (Arithmetic.exact.div 1 10) (1700000000 - 3600) =
      some (3600 + 1 / 10) := by
    decide +kernel
  have hcalls := two_calls hwait (1700000000 + 1 / 10)
  have hwaited := h 10 _ _ (by norm_num) hcalls _ List.mem_cons_self
  norm_num at hwaited

/-! ## Starts -/

/-- The clock showed what was read when calls started, and waits moved it by their length. -/
def Punctual (w : Watch) : Prop :=
  w.started = (turns w.log).map Turn.start ∧ ∀ t ∈ turns w.log, t.start = t.arrival + t.waited

/-- What a clock that moves forward shows in the course of a limited call. -/
theorem ticks_limited {c : ApiCall} {wait? : Option Rat} {arrival start : Rat}
    {r : Except Failure Value} {w w₁ w₂ w₃ w₄ : Watch} (harrival : ticking w .seconds arrival w₁)
    (hwaits : Waits ticking wait? w₁ w₂) (hstart : ticking w₂ .seconds start w₃)
    (hcall : ticking w₃ (.call c) r w₄) :
    arrival = w.now ∧ start = w.now + wait?.getD 0 ∧ w₄.started = start :: w.started := by
  obtain ⟨rfl, rfl⟩ := harrival
  obtain ⟨-, -, hstarted⟩ := hcall
  cases wait? with
  | some d =>
    obtain rfl := hwaits
    obtain ⟨rfl, rfl⟩ := hstart
    exact ⟨rfl, rfl, hstarted⟩
  | none =>
    obtain rfl := hwaits
    obtain ⟨rfl, rfl⟩ := hstart
    exact ⟨rfl, (add_zero _).symm, hstarted⟩

/-- A limited call adds itself to the calls, and arrives at the time at which it is made. -/
theorem limited_adds_turn {a : Arithmetic} {rate : Rat} (hrate : rate ≠ 0) (c : ApiCall) (l : Limiter)
    (w : Watch) :
    ((limited a rate c).run l).Ensures ticking (fun _ _ => True)
      (fun w' _ => ∃ t : Turn, turns w'.log = t :: turns w.log ∧ w'.started = t.start :: w.started ∧
        t.arrival = w.now ∧ t.start = t.arrival + t.waited) w := by
  apply ensures_limited hrate c
  intro arrival start r w₁ w₂ w₃ w₄ harrival hwaits hstart hcall
  have hturns := turns_limited (logs_ticking _ _ _ _ harrival) (hwaits.project logs_ticking)
    (logs_ticking _ _ _ _ hstart) (logs_ticking _ _ _ _ hcall)
  obtain ⟨rfl, rfl, hstarted⟩ := ticks_limited harrival hwaits hstart hcall
  exact ⟨_, hturns, hstarted, rfl, rfl⟩

/-- A limited call starts when it is said to, and its wait is what passed since its arrival. -/
theorem keeps_punctual {a : Arithmetic} {rate : Rat} (hrate : rate ≠ 0) (c : ApiCall) :
    Keeps ticking (fun _ => Punctual) (limited a rate c) := by
  rintro l w ⟨hstarted, hwaited⟩
  refine (limited_adds_turn hrate c l w).mono (fun _ _ => id) ?_
  rintro w' - ⟨t, hturns, hstarts, -, hstart⟩
  refine ⟨by rw [hturns, hstarts, hstarted, List.map_cons], ?_⟩
  rw [hturns]
  exact List.forall_mem_cons.mpr ⟨hstart, hwaited⟩

/-- Every call of a run is punctual. In between, nothing moves the calls in the log. -/
theorem Calls.punctual {a : Arithmetic} {rate : Rat} (hrate : rate ≠ 0) {now : Rat} {l : Limiter}
    {w : Watch} (hcalls : Calls ticking Watch.Later a rate ⟨now, [], []⟩ l w) : Punctual w := by
  refine hcalls.invariant (I := fun _ => Punctual) ?_ ?_ ?_ (keeps_punctual hrate)
  · exact ⟨rfl, nofun⟩
  · rintro - w w' ⟨-, hlog, hstarted⟩ h
    simpa only [Punctual, hlog, hstarted] using h
  · intro _ w op answer w' hop hE h
    have hturns := turns_unmoved hop (logs_ticking _ _ _ _ hE)
    have hstarted : w'.started = w.started := by
      cases op with
      | call c => exact absurd rfl (hop c)
      | seconds =>
        obtain ⟨-, rfl⟩ := hE
        rfl
      | sleep d =>
        obtain rfl := hE
        rfl
      | trace t => exact hE.2.2
    simpa only [Punctual, hturns, hstarted] using h

/-- On a clock that never steps back, every call starts when it arrives or an interval after the start
of the call before, whichever is later. So no two starts are closer than an interval, and a call that
arrives late enough does not wait. -/
theorem starts_spaced {rate : Rat} (hrate : 0 < rate) {now : Rat} {l : Limiter} {w : Watch}
    (hcalls : Calls ticking Watch.Later .exact rate ⟨now, [], []⟩ l w) :
    w.started = (turns w.log).map Turn.start ∧
    (∀ later t earlier, turns w.log = later ++ t :: earlier →
      t.start = max t.arrival (lastStart earlier + 1 / rate)) ∧
    (∀ later t t' earlier, turns w.log = later ++ t' :: t :: earlier →
      1 / rate ≤ t'.start - t.start ∧ (t.start + 1 / rate ≤ t'.arrival → t'.start = t'.arrival)) ∧
    ∀ c, (∃ r l' w', Program.Leads ticking ((limited .exact rate c).run l) w (.done (r, l')) w') ∧
      ∀ r l' w', Program.Leads ticking ((limited .exact rate c).run l) w (.done (r, l')) w' →
        ∃ t, turns w'.log = t :: turns w.log ∧ t.arrival = w.now := by
  obtain ⟨hstarted, hexact⟩ := hcalls.punctual hrate.ne'
  have hstart : ∀ later t earlier, turns w.log = later ++ t :: earlier →
      t.start = max t.arrival (lastStart earlier + 1 / rate) := by
    intro later t earlier ht
    have hwaited := hcalls.waited hrate.ne' logs_ticking (fun _ _ h => h.2.1) rfl ht
    -- the start is the arrival and the wait, and the wait is what was missing
    rw [hexact t (by simp [ht]), hwaited, ← max_add_add_left]
    congr 1 <;> ring
  refine ⟨hstarted, hstart, ?_, ?_⟩
  · intro later t t' earlier ht
    -- the call before is the latest of the earlier ones
    have hnext : t'.start = max t'.arrival (t.start + 1 / rate) := hstart later t' (t :: earlier) ht
    constructor
    · have hle := le_max_right t'.arrival (t.start + 1 / rate)
      linarith
    · intro hlate
      rw [hnext, max_eq_left hlate]
  · intro c
    constructor
    · obtain ⟨⟨r, l'⟩, w', hrun⟩ :=
        Program.exists_leads_done exists_ticking ((limited .exact rate c).run l) w
      exact ⟨r, l', w', hrun⟩
    · intro r l' w' hrun
      obtain ⟨t, hturns, -, harrival, -⟩ := (limited_adds_turn hrate.ne' c l w).of_leads hrun
      exact ⟨t, hturns, harrival⟩

def busyServer : (op : ApiOp) → StateM Watch op.Answer
  | .seconds => fun w => (w.now, ⟨w.now, .read w.now :: w.log, w.started⟩)
  | .sleep d => fun w => ((), ⟨w.now + d, .slept d :: w.log, w.started⟩)
  | .call _ => fun w => ((ApiStore.throttlesTwice w.started.length).answer,
      ⟨w.now + 1 / 4, .called :: w.log, w.now :: w.started⟩)
  | .trace _ => fun w => ((), w)

theorem ticking_busyServer (w : Watch) (op : ApiOp) :
    ticking w op (busyServer op w).1 (busyServer op w).2 := by
  cases op with
  | seconds => exact ⟨rfl, rfl⟩
  | sleep d => exact rfl
  | call c =>
    refine ⟨?_, rfl, rfl⟩
    show w.now ≤ w.now + 1 / 4
    linarith
  | trace t => exact ⟨le_refl _, rfl, rfl⟩

/-- A call every two seconds. A read is throttled twice, and another call follows at once: the first
retry comes too early and waits, the second comes late enough and does not, and the other call waits
again. -/
theorem throttled_read_spaced :
    ∃ l w, Calls ticking Watch.Later .exact (1 / 2) ⟨100, [], []⟩ l w ∧
      w.started = [106 + 1 / 4, 104 + 1 / 4, 102, 100] ∧
      ∀ later t t' earlier, turns w.log = later ++ t' :: t :: earlier →
        1 / (1 / 2) ≤ t'.start - t.start ∧
          (t.start + 1 / (1 / 2) ≤ t'.arrival → t'.start = t'.arrival) := by
  have hnone : Calls ticking Watch.Later .exact (1 / 2) ⟨100, [], []⟩ .fresh ⟨100, [], []⟩ := .none
  -- the read with both its retries is one store call
  have hread := hnone.store (fun _ _ => true) { arithmetic := .exact, callRate := 1 / 2 } ApiStore.defaultRetries
    (.get (.text "Secret") (.text "default") (.text "db")) rfl rfl
    (Program.leads_run ticking_busyServer _ _)
  have hcalls := hread.call ApiStore.credentialRead.call (Program.leads_run ticking_busyServer _ _)
  obtain ⟨-, -, hspaced, -⟩ := starts_spaced (by norm_num) hcalls
  exact ⟨_, _, hcalls, by decide +kernel, hspaced⟩

end Spacing

end Reconciler
