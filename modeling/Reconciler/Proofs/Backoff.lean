import Reconciler.Scheduling
import Mathlib.Algebra.Order.Field.Rat
import Mathlib.Algebra.Order.Ring.Pow
import Mathlib.Tactic.Linarith
import Mathlib.Tactic.Positivity

/-! # Delays between calls

A pass ends in a directive, and the framework is told to call again at once, after a delay that the pass
chose, or after a delay that grows with the number of failures in a row. Delays are exact rationals here.

Main statements:

* `backoff_eq`, `backoff_error`: the delay after a failed pass, below 1024 retries and from there on;
* `delays_bounded`: below 1024 retries every directive is told with its delay, and the delay after a
  failed pass lies between the capped power of two and a tenth more;
* `not_delaysBounded`: after 1024 failures in a row the framework is told of a fault instead.
-/

namespace Reconciler

/-- A number of retries below `2 ^ 10` is far from the end of the range of double precision. -/
theorem Binary64.infinite_ofFraction_eq_false {n : Nat} (h : n < 1024) :
    (ofFraction false n 1).infinite = false := by
  have hlog : Nat.log2 n < 10 := by
    rcases Nat.eq_zero_or_pos n with hzero | hpos
    · subst hzero
      decide
    · exact (Nat.log2_lt hpos.ne').mpr h
  have hexponent : binaryExponent n 1 ≤ 9 := by
    have hone : Nat.log2 1 = 0 := by decide
    simp only [binaryExponent, hone]
    split <;> omega
  simp only [ofFraction]
  split
  · decide
  · -- the exponent is negative, so neither rounding up nor the end of the range matters
    simp only [infinite]
    split_ifs <;> simp_all <;> omega

namespace Settings

/-- The delay before chance is added: the least delay, doubled with every retry up to the longest. -/
def cappedDelay (settings : Settings) (n : Nat) : Rat :=
  min (settings.minRetryDelay * 2 ^ n) settings.maxRetryDelay

variable {settings : Settings}

/-- There is always something to wait for. -/
theorem cappedDelay_pos (hmin : 0 < settings.minRetryDelay) (hmax : 0 < settings.maxRetryDelay)
    (n : Nat) : 0 < settings.cappedDelay n := by
  have hpower : (0 : Rat) < 2 ^ n := by positivity
  exact lt_min (mul_pos hmin hpower) hmax

/-- More failures never make the delay shorter. -/
theorem cappedDelay_mono (hmin : 0 < settings.minRetryDelay) {n m : Nat} (h : n ≤ m) :
    settings.cappedDelay n ≤ settings.cappedDelay m := by
  have hpower : (2 : Rat) ^ n ≤ 2 ^ m := pow_le_pow_right₀ one_le_two h
  exact min_le_min_right _ (mul_le_mul_of_nonneg_left hpower hmin.le)

/-- The delay is capped. -/
theorem cappedDelay_le (n : Nat) : settings.cappedDelay n ≤ settings.maxRetryDelay :=
  min_le_right _ _

end Settings

/-! ## The delay after a failed pass -/

section Exact

variable {settings : Settings} (hexact : settings.arithmetic = .exact)

include hexact in
/-- Below 1024 retries chance adds up to a tenth to the capped delay. -/
theorem backoff_eq {n : Nat} (h : n < 1024) (jitter : Rat) :
    backoff settings n jitter =
      .ok (settings.cappedDelay n + settings.cappedDelay n * (1 / 10) * jitter) := by
  have hpower : ((powerOfTwo n : Nat) : Rat) = 2 ^ n := by simp [powerOfTwo]
  have hcapped : (if settings.minRetryDelay * 2 ^ n ≤ settings.maxRetryDelay
      then settings.minRetryDelay * 2 ^ n else settings.maxRetryDelay) =
      settings.cappedDelay n := (min_def _ _).symm
  simp only [backoff, Int.toNat_natCast, Binary64.infinite_ofFraction_eq_false h,
    Bool.false_eq_true, if_false, Nat.not_le.mpr h, hexact, Arithmetic.mul, Arithmetic.add,
    Arithmetic.exact, id_eq, hpower, hcapped]

variable (settings) in
/-- From 1024 retries on the power of two is out of range before it is capped. -/
theorem backoff_error {n : Nat} (h : 1024 ≤ n) (jitter : Rat) :
    ∃ f, backoff settings n jitter = .error f := by
  simp only [backoff, Int.toNat_natCast, if_pos h]
  split
  · exact ⟨.tooLarge, rfl⟩
  · exact ⟨.overflow, rfl⟩

def Verdict.delay? : Verdict → Option Rat
  | again _ delay _ => some delay
  | _ => none

/-- What the framework is told after each directive when a pass has failed `n` times in a row. -/
structure Schedules (settings : Settings) (jitter : Rat) (n : Nat) : Prop where
  finished_iff : ∀ directive, apply settings directive n jitter = .finished ↔ directive = .done
  now : ∃ message, apply settings .requeueNow n jitter = .again message 0 none
  later : ∀ delay, ∃ message,
    apply settings (.requeueAfter delay) n jitter = .again message delay none
  failed : ∀ error, ∃ message delay source,
    apply settings (.failed error) n jitter = .again message delay (some source) ∧
      settings.cappedDelay n ≤ delay ∧ delay ≤ 11 / 10 * settings.cappedDelay n

variable (hmin : 0 < settings.minRetryDelay) (hmax : 0 < settings.maxRetryDelay)
variable {jitter : Rat} (hjitter : 0 ≤ jitter) (hone : jitter ≤ 1)

include hexact in
/-- A failed pass is told with its fault and with the delay of `backoff_eq`. -/
theorem apply_failed {n : Nat} (h : n < 1024) (error : Option Failure) (jitter : Rat) :
    ∃ message source, apply settings (.failed error) n jitter =
      .again message (settings.cappedDelay n + settings.cappedDelay n * (1 / 10) * jitter)
        (some source) := by
  simp only [apply, backoff_eq hexact h]
  exact ⟨_, _, rfl⟩

include hexact hmin hmax hjitter hone in
/-- Below 1024 retries every directive is turned into what it says. -/
theorem schedules_of_lt {n : Nat} (h : n < 1024) : Schedules settings jitter n := by
  have hcapped := Settings.cappedDelay_pos hmin hmax n
  constructor
  case finished_iff =>
    intro directive
    cases directive with
    | failed error =>
      obtain ⟨message, source, happly⟩ := apply_failed hexact h error jitter
      simp [happly]
    | _ => simp [apply]
  case now => exact ⟨_, rfl⟩
  case later => exact fun delay => ⟨_, rfl⟩
  case failed =>
    intro error
    obtain ⟨message, source, happly⟩ := apply_failed hexact h error jitter
    refine ⟨message, _, source, happly, ?_, ?_⟩
    · -- chance only makes the delay longer, and by a tenth at most
      have hchance : 0 ≤ settings.cappedDelay n * (1 / 10) * jitter := by positivity
      linarith
    · have hchance := mul_le_mul_of_nonneg_left hone hcapped.le
      linarith

include hexact hmin hjitter in
/-- More failures in a row never make the delay shorter. -/
theorem delay_mono {n m : Nat} (h : n ≤ m) (hm : m < 1024) {error error' : Option Failure}
    {d d' : Rat} (hn : (apply settings (.failed error) n jitter).delay? = some d)
    (hm' : (apply settings (.failed error') m jitter).delay? = some d') : d ≤ d' := by
  obtain ⟨_, _, happly⟩ := apply_failed hexact (h.trans_lt hm) error jitter
  obtain ⟨_, _, happly'⟩ := apply_failed hexact hm error' jitter
  simp only [happly, happly', Verdict.delay?, Option.some.injEq] at hn hm'
  subst hn hm'
  have hcapped := Settings.cappedDelay_mono hmin h
  have hchance := mul_le_mul_of_nonneg_right hcapped hjitter
  linarith

/-- For all numbers of retries in a range the framework is told a bounded delay, which does not shrink
with the number of retries. -/
structure DelaysBounded (settings : Settings) (jitter : Rat) (range : Nat → Prop) : Prop where
  schedules : ∀ n, range n → Schedules settings jitter n
  mono : ∀ (n m : Nat) error error' d d', n ≤ m → range m →
    (apply settings (.failed error) n jitter).delay? = some d →
    (apply settings (.failed error') m jitter).delay? = some d' → d ≤ d'
  le_max : ∀ (n : Nat) error d, range n →
    (apply settings (.failed error) n jitter).delay? = some d → d ≤ 11 / 10 * settings.maxRetryDelay

/-- Below 1024 retries the framework is told, for every directive, what the directive says: nothing more
to do, call again at once, call again after the chosen delay, or call again after a delay that is at
least the capped power of two and at most a tenth longer. So the delay after a failure never shrinks
with the number of retries and never exceeds the longest delay by more than a tenth. From 1024 retries
on, and only then, a failed pass is told as a fault. -/
theorem delays_bounded (settings : Settings) (hexact : settings.arithmetic = .exact)
    (hmin : 0 < settings.minRetryDelay) (hmax : 0 < settings.maxRetryDelay) (jitter : Rat)
    (hjitter : 0 ≤ jitter) (hone : jitter ≤ 1) :
    DelaysBounded settings jitter (· < 1024) ∧
      ∀ (n : Nat) (error : Option Failure),
        (∃ f, apply settings (.failed error) n jitter = .broken f) ↔ 1024 ≤ n := by
  constructor
  · constructor
    case schedules => exact fun n h => schedules_of_lt hexact hmin hmax hjitter hone h
    case mono =>
      intro n m error error' d d' h hm hd hd'
      exact delay_mono hexact hmin hjitter h hm hd hd'
    case le_max =>
      intro n error d h hd
      obtain ⟨_, delay, _, happly, -, hle⟩ :=
        (schedules_of_lt hexact hmin hmax hjitter hone h).failed error
      have hdelay : delay = d := by simpa [happly, Verdict.delay?] using hd
      -- the delay is capped, and chance adds a tenth at most
      have hcapped := settings.cappedDelay_le n
      linarith
  · intro n error
    constructor
    · rintro ⟨f, hbroken⟩
      -- for every smaller number of retries there is a delay
      by_contra hlt
      obtain ⟨_, _, happly⟩ := apply_failed hexact (Nat.lt_of_not_le hlt) error jitter
      simp [happly] at hbroken
    · intro h
      obtain ⟨f, hf⟩ := backoff_error settings h jitter
      exact ⟨f, by simp only [apply, hf]⟩

/-- With the default delays and full chance, a failure after three others is followed by a delay of at
least 8 seconds and at most a tenth more. -/
theorem default_delays_bounded :
    Schedules { arithmetic := .exact } 1 3 ∧
      Settings.cappedDelay { arithmetic := .exact } 3 = 8 := by
  constructor
  · have hbounded := delays_bounded { arithmetic := .exact } rfl (by decide) (by decide) 1 (by decide)
      (by decide)
    exact hbounded.1.schedules 3 (by decide)
  · decide +kernel

/-- With the default delays and no chance, after 1024 failures in a row the framework is told of a fault
and of no delay. -/
theorem not_delaysBounded :
    apply { arithmetic := .exact } (.failed (some ⟨.store "boom" .null, none⟩)) 1024 0 =
        .broken ⟨.overflow, none⟩ ∧
      ¬ ∀ settings : Settings, settings.arithmetic = .exact →
        0 < settings.minRetryDelay → 0 < settings.maxRetryDelay →
        ∀ jitter : Rat, 0 ≤ jitter → jitter ≤ 1 → DelaysBounded settings jitter fun _ => True := by
  have hbroken : apply { arithmetic := .exact } (.failed (some ⟨.store "boom" .null, none⟩)) 1024 0 =
      .broken ⟨.overflow, none⟩ := by
    decide +kernel
  refine ⟨hbroken, ?_⟩
  intro hbounded
  have hdelays := hbounded { arithmetic := .exact } rfl (by decide) (by decide) 0 (by decide) (by decide)
  obtain ⟨_, _, _, happly, -⟩ := (hdelays.schedules 1024 trivial).failed _
  have hagain := happly.symm.trans hbroken
  cases hagain

end Exact

end Reconciler
