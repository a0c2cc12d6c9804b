import Reconciler.Proofs.History

/-! # Courses of passes

A pass that is run to its end has a course: what it came to, what it heard from the store, and what it left
behind. Its surroundings answer every question in whatever way they like, so there is a course in any
surroundings, and the course of a sequence is made up of the courses of its parts.

Main definitions and statements:

* `SafePass.course`: the course of a pass; `course_run`: its result is that of running the pass;
* `course_bind`: the course of a sequence;
* `Pass.Leaves`: whatever is answered, a pass only leaves behind what it may; one rule for each way a pass is
  built;
* `leaves_course`: what may be left behind is all that the course of such a pass shows.
-/

namespace Reconciler

/-- Anything that answers the questions of passes, with a state of its own. -/
abbrev Surroundings (σ : Type) : Type := (op : PassOp) → StateM σ op.Answer

namespace PassOp

/-- What a question adds to what was heard from the store. -/
def heard : (op : PassOp) → op.Answer → History
  | store call, reply => [(call, reply)]
  | _, _ => []

def leaves : PassOp → List Trace
  | trace t => [t]
  | _ => []

end PassOp

/-- What becomes of a pass: its result, the state of its surroundings by then, what it heard from the store
and what it left behind, oldest first. -/
structure Course (σ α : Type) where
  result : α
  state : σ
  heard : History
  left : List Trace

namespace Course

variable {σ α β : Type}

/-- A course that goes on with another. -/
def andThen (first : Course σ α) (next : Course σ β) : Course σ β :=
  ⟨next.result, next.state, first.heard ++ next.heard, first.left ++ next.left⟩

def exchange (surroundings : Surroundings σ) (op : PassOp) (s : σ) : Course σ op.Answer :=
  let reply := (surroundings op s).1
  ⟨reply, (surroundings op s).2, op.heard reply, op.leaves⟩

@[simp] theorem result_andThen (first : Course σ α) (next : Course σ β) :
    (first.andThen next).result = next.result := rfl

@[simp] theorem heard_andThen (first : Course σ α) (next : Course σ β) :
    (first.andThen next).heard = first.heard ++ next.heard := rfl

@[simp] theorem left_andThen (first : Course σ α) (next : Course σ β) :
    (first.andThen next).left = first.left ++ next.left := rfl

/-- Courses that go on with each other may be grouped at will. -/
theorem andThen_assoc {γ : Type} (first : Course σ α) (second : Course σ β) (third : Course σ γ) :
    (first.andThen second).andThen third = first.andThen (second.andThen third) := by
  simp [andThen]

end Course

/-! ## The course of a pass -/

namespace SafePass

variable {σ α β : Type} {surroundings : Surroundings σ}

/-- The course of a pass in some surroundings. -/
def course (surroundings : Surroundings σ) : SafePass α → σ → Course σ α
  | .done a, s => ⟨a, s, [], []⟩
  | .ask op next, s =>
    let first := Course.exchange surroundings op s
    first.andThen (course surroundings (next first.result) first.state)

/-- The course of a sequence is that of its first part, gone on with by that of its second. -/
@[simp] theorem course_bind (p : SafePass α) (k : α → SafePass β) (s : σ) :
    course surroundings (p >>= k) s =
      (course surroundings p s).andThen
        (course surroundings (k (course surroundings p s).result) (course surroundings p s).state) := by
  change course surroundings (p.bind k) s = _
  induction p generalizing s with
  | done a => rfl
  | ask op next ih =>
    let first := Course.exchange surroundings op s
    calc course surroundings (Program.bind (.ask op next) k) s
        = first.andThen (course surroundings ((next first.result).bind k) first.state) := rfl
      _ = _ := by rw [ih first.result first.state]; exact (Course.andThen_assoc _ _ _).symm

/-- A pass that is run comes to the result of its course. -/
theorem course_run (p : SafePass α) (s : σ) :
    p.run surroundings s =
      ((course surroundings p s).result, (course surroundings p s).state) := by
  induction p generalizing s with
  | done a => rfl
  | ask op next ih => exact ih (surroundings op s).1 (surroundings op s).2

end SafePass

/-! ## What may be left behind -/

/-- The store may answer anything, and so may everything else. -/
def unrestricted : Responder passSignature History :=
  fun h op reply h' => h' = h ++ op.heard reply

/-- What may be left behind, as a condition on all questions. -/
def leaving (may : History → Trace → Prop) (h : History) : PassOp → Prop
  | .trace t => may h t
  | _ => True

namespace Pass

variable {α β : Type} {may : History → Trace → Prop} {h : History}

/-- Whatever is answered, a pass only leaves behind what it may after what it heard so far, and its result
meets a condition. -/
def Leaves (may : History → Trace → Prop) (post : History → Except Failure α → Prop) (p : Pass α)
    (h : History) : Prop :=
  Program.Ensures unrestricted (leaving may) post p.run h

variable {post post' : History → Except Failure α → Prop}

theorem Leaves.mono {p : Pass α} (hp : Leaves may post p h) (hpost : ∀ h r, post h r → post' h r) :
    Leaves may post' p h :=
  Program.Ensures.mono hp (fun _ _ hmay => hmay) hpost

theorem leaves_pure {a : α} (hpost : post h (.ok a)) : Leaves may post (pure a) h := hpost

theorem leaves_throw {f : Failure} (hpost : post h (.error f)) :
    Leaves may post (throw f : Pass α) h := hpost

/-- A pass leaves behind what it may if its first part does, and the rest does from there. -/
theorem leaves_bind {post : History → Except Failure β → Prop} {p : Pass α} {k : α → Pass β}
    (hp : Leaves may (fun h' r => match r with
      | .ok a => Leaves may post (k a) h'
      | .error f => post h' (.error f)) p h) :
    Leaves may post (p >>= k) h := by
  refine (Program.ensures_bind _ _ h).mpr (Leaves.mono hp ?_)
  -- a failure ends the sequence, a value goes on with it
  rintro h' (f | a) hpost
  · exact hpost
  · exact hpost

theorem leaves_liftRead {read : Except Fault α}
    (hpost : post h (read.mapError fun f => ⟨f, none⟩)) : Leaves may post (liftM read) h := by
  cases read with
  | ok a => exact hpost
  | error f => exact hpost

theorem leaves_read {post : History → Except Failure β → Prop} {read : Except Fault α}
    {k : α → Pass β} (hok : ∀ a, read = .ok a → Leaves may post (k a) h)
    (herror : ∀ f, post h (.error f)) : Leaves may post (liftM read >>= k) h := by
  refine leaves_bind (leaves_liftRead ?_)
  cases read with
  | ok a => exact hok a rfl
  | error f => exact herror _

theorem leaves_tell {post : History → Except Failure β → Prop} {t : Trace} {k : Unit → Pass β}
    (hmay : may h t) (hnext : Leaves may post (k ()) h) :
    Leaves may post (liftM (SafePass.trace t) >>= k) h := by
  refine ⟨hmay, ?_⟩
  rintro ⟨⟩ h' hheard
  obtain rfl : h' = h := hheard.trans (List.append_nil h)
  exact hnext

theorem leaves_now {post : History → Except Failure β → Prop} {k : Instant → Pass β}
    (hnext : ∀ now, Leaves may post (k now) h) : Leaves may post (liftM SafePass.instant >>= k) h := by
  refine ⟨trivial, ?_⟩
  intro now h' hheard
  obtain rfl : h' = h := hheard.trans (List.append_nil h)
  exact hnext now

theorem leaves_call {post : History → Except Failure Value → Prop} {c : StoreCall}
    (hpost : ∀ reply, post (h ++ [(c, reply)]) reply) : Leaves may post (call c) h := by
  refine ⟨trivial, ?_⟩
  rintro reply h' rfl
  exact hpost reply

theorem leaves_attempt {post : History → Except Failure β → Prop} {c : StoreCall}
    {k : Except Failure Value → Pass β}
    (hnext : ∀ reply, Leaves may post (k reply) (h ++ [(c, reply)])) :
    Leaves may post ((call c).outcome >>= k) h := by
  refine ⟨trivial, ?_⟩
  rintro reply h' rfl
  exact hnext reply

theorem leaves_must {post : History → Except Failure β → Prop} {c : StoreCall} {k : Value → Pass β}
    (hok : ∀ v, Leaves may post (k v) (h ++ [(c, .ok v)]))
    (herror : ∀ f, post (h ++ [(c, .error f)]) (.error f)) : Leaves may post (call c >>= k) h := by
  refine leaves_bind (leaves_call ?_)
  rintro (f | v)
  · exact herror f
  · exact hok v

/-- A log line fails with the fault of the identity it tells, and is all that is left behind. -/
theorem leaves_log {post : History → Except Failure Unit → Prop} {kind : String} {level : Level}
    {metadata : Value} {r : Remark} (hmay : ∀ entry, may h (.log entry)) (hok : post h (.ok ()))
    (herror : ∀ f, post h (.error f)) : Leaves may post (log kind level metadata r) h := by
  unfold log
  cases loggedIdentity metadata with
  | error f => exact herror _
  | ok id =>
    refine ⟨hmay _, ?_⟩
    rintro ⟨⟩ h' hheard
    obtain rfl : h' = h := hheard.trans (List.append_nil h)
    exact hok

theorem leaves_note {post : History → Except Failure β → Prop} {kind : String} {level : Level}
    {metadata : Value} {r : Remark} {k : Unit → Pass β} (hmay : ∀ entry, may h (.log entry))
    (hnext : Leaves may post (k ()) h) (herror : ∀ f, post h (.error f)) :
    Leaves may post (log kind level metadata r >>= k) h :=
  leaves_bind (leaves_log hmay hnext herror)

theorem leaves_outcome {post : History → Except Failure (Except Failure α) → Prop} {p : Pass α}
    (hp : Leaves may (fun h' r => post h' (.ok r)) p h) : Leaves may post p.outcome h :=
  (Program.ensures_bind _ _ h).mpr hp

/-- Drawing random characters leaves nothing behind, and nothing is heard meanwhile. -/
theorem leaves_draw (d : Draw α) (hpost : ∀ r, post h r) : Leaves may post (draw d) h := by
  -- a draw asks for random numbers only, as often as it takes
  have hdrawn : ∀ {γ : Type} (p : Program randomSignature γ),
      Program.Ensures unrestricted (leaving may) (fun h' _ => h' = h)
        (p.run (m := SafePass) fun op => .query (S := passSignature) (.random op)) h := by
    intro γ p
    induction p with
    | done a => rfl
    | ask op next ih =>
      refine ⟨trivial, ?_⟩
      intro reply h' hheard
      obtain rfl : h' = h := hheard.trans (List.append_nil h)
      exact ih reply
  refine (Program.ensures_bind _ _ h).mpr ?_
  refine (hdrawn d.run).mono (fun _ _ hmay => hmay) ?_
  rintro h' (f | a) rfl
  · exact hpost _
  · exact hpost _

end Pass

/-- What may be left behind is all that a course shows. -/
theorem leaves_course {σ α : Type} {may : History → Trace → Prop} {post : History → α → Prop}
    (hmono : ∀ h more t, may h t → may (h ++ more) t) {p : SafePass α} {h : History}
    (hp : Program.Ensures unrestricted (leaving may) post p h) (surroundings : Surroundings σ) (s : σ) :
    (∀ t ∈ (p.course surroundings s).left, may (h ++ (p.course surroundings s).heard) t) ∧
      post (h ++ (p.course surroundings s).heard) (p.course surroundings s).result := by
  induction p generalizing h s with
  | done a =>
    refine ⟨by simp [SafePass.course], ?_⟩
    rw [SafePass.course, List.append_nil]
    exact hp
  | ask op next ih =>
    obtain ⟨hop, hnext⟩ := hp
    have hrest := ih (surroundings op s).1 (hnext (surroundings op s).1 _ rfl) (surroundings op s).2
    rw [List.append_assoc] at hrest
    refine ⟨?_, hrest.2⟩
    intro t ht
    rcases List.mem_append.mp ht with ht | ht
    · -- what this question leaves behind was permitted before anything else was heard
      cases op with
      | trace t' =>
        obtain rfl : t = t' := List.mem_singleton.mp ht
        exact hmono _ _ _ hop
      | _ => cases ht
    · exact hrest.1 t ht

end Reconciler
