import Reconciler.Program.Basic

/-! # Reasoning about programs

A program sees nothing but the answers to its questions. Its environment is a relation: in which state a
question may get which answer, and what the state is afterwards. It need not be deterministic, so "any
answer at all" is an environment like any other.

Main definitions and statements:

* `Ensures`: whatever the environment answers, every question is a permitted one and the result meets a
  condition;
* `Leads`: a part of a run, from a program to what is left of it;
* `ensures_bind`: what a program ensures before it goes on;
* `Ensures.of_leads`: what a program ensures is still ensured by what is left of it;
* `Leads.invariant`: what every permitted question keeps holds all along;
* `exists_leads_done`: in an environment that always answers, every program comes to its end;
* `leads_run`: and when the answers can be computed, so can the run.
-/

namespace Reconciler

/-- How an environment answers: the state before, the question, the answer, and the state after. -/
abbrev Responder (S : Signature) (σ : Type) : Type :=
  σ → (op : S.Op) → S.Answer op → σ → Prop

namespace Program

variable {S : Signature} {σ α β : Type} {E : Responder S σ}
variable {may may' : σ → S.Op → Prop} {post post' : σ → α → Prop}

/-- Whatever the environment answers, the program only asks what it may, and its result and the last
state meet a condition. -/
def Ensures (E : Responder S σ) (may : σ → S.Op → Prop) (post : σ → α → Prop) :
    Program S α → σ → Prop
  | done a, s => post s a
  | ask op next, s =>
    may s op ∧ ∀ answer s', E s op answer s' → (next answer).Ensures E may post s'

/-! ## Rules -/

/-- To ensure something of a sequence is to ensure of its first part that the second ensures it. -/
theorem ensures_bind {post : σ → β → Prop} (p : Program S α) (k : α → Program S β) (s : σ) :
    (p.bind k).Ensures E may post s ↔
      p.Ensures E may (fun s' a => (k a).Ensures E may post s') s := by
  induction p generalizing s with
  | done a => rfl
  | ask op next ih =>
    constructor
    · rintro ⟨hmay, hnext⟩
      -- the first question stays the same, what follows each answer is a sequence again
      exact ⟨hmay, fun answer s' h => (ih answer s').mp (hnext answer s' h)⟩
    · rintro ⟨hmay, hnext⟩
      exact ⟨hmay, fun answer s' h => (ih answer s').mpr (hnext answer s' h)⟩

/-- Permitting more and asking less of the result ensures less. -/
theorem Ensures.mono {p : Program S α} {s : σ} (h : p.Ensures E may post s)
    (hmay : ∀ s op, may s op → may' s op) (hpost : ∀ s a, post s a → post' s a) :
    p.Ensures E may' post' s := by
  induction p generalizing s with
  | done a => exact hpost s a h
  | ask op next ih =>
    rcases h with ⟨hop, hnext⟩
    exact ⟨hmay s op hop, fun answer s' hE => ih answer (hnext answer s' hE)⟩

/-- What is ensured whatever is answered is ensured where fewer answers are given. -/
theorem Ensures.of_answers {E' : Responder S σ} {p : Program S α} {s : σ}
    (h : p.Ensures E may post s) (hE : ∀ s op answer s', E' s op answer s' → E s op answer s') :
    p.Ensures E' may post s := by
  induction p generalizing s with
  | done a => exact h
  | ask op next ih =>
    rcases h with ⟨hop, hnext⟩
    exact ⟨hop, fun answer s' hanswer => ih answer (hnext answer s' (hE _ _ _ _ hanswer))⟩

/-! ## Runs -/

/-- A part of a run: a program and a state, and what is left of the program with the state by then. -/
inductive Leads (E : Responder S σ) : Program S α → σ → Program S α → σ → Prop where
  | here (p : Program S α) (s : σ) : Leads E p s p s
  | next {p : Program S α} {s t u : σ} {op : S.Op} {rest : S.Answer op → Program S α}
      {answer : S.Answer op} :
      Leads E p s (ask op rest) t → E t op answer u → Leads E p s (rest answer) u

/-- A run that starts with one more question. -/
theorem Leads.ask {op : S.Op} {rest : S.Answer op → Program S α} {answer : S.Answer op} {s t u : σ}
    {q : Program S α} (hE : E s op answer t) (h : Leads E (rest answer) t q u) :
    Leads E (ask op rest) s q u := by
  induction h with
  | here => exact .next (.here _ _) hE
  -- runs grow at their end, so the new question goes in front by induction
  | next _ hE' ih => exact .next ih hE'

/-- What is left of a program ensures what the program did. -/
theorem Ensures.of_leads {p q : Program S α} {s t : σ} (h : p.Ensures E may post s)
    (hrun : Leads E p s q t) : q.Ensures E may post t := by
  induction hrun with
  | here => exact h
  | next _ hE ih => exact ih.2 _ _ hE

/-- What every permitted question keeps holds at every point of a run. -/
theorem Leads.invariant {I : σ → Prop} {p q : Program S α} {s t : σ} (hrun : Leads E p s q t)
    (hp : p.Ensures E may post s) (hs : I s)
    (hstep : ∀ s op answer s', I s → may s op → E s op answer s' → I s') : I t := by
  induction hrun with
  | here => exact hs
  -- what is left before the question still asks only what it may
  | next hrun hE ih => exact hstep _ _ _ _ ih (hp.of_leads hrun).1 hE

/-- An environment that always has an answer lets every program finish. -/
theorem exists_leads_done (hE : ∀ s op, ∃ answer s', E s op answer s') (p : Program S α) (s : σ) :
    ∃ a s', Leads E p s (done a) s' := by
  induction p generalizing s with
  | done a => exact ⟨a, s, .here _ _⟩
  | ask op next ih =>
    -- some answer comes, and what is left of the program finishes by induction
    rcases hE s op with ⟨answer, t, hanswer⟩
    rcases ih answer t with ⟨a, u, hrun⟩
    exact ⟨a, u, hrun.ask hanswer⟩

/-- An environment whose answers can be computed runs every program to its end. -/
theorem leads_run {answer : (op : S.Op) → StateM σ (S.Answer op)}
    (hanswer : ∀ s op, E s op (answer op s).1 (answer op s).2) (p : Program S α) (s : σ) :
    Leads E p s (done (p.run answer s).1) (p.run answer s).2 := by
  induction p generalizing s with
  | done a => exact .here _ _
  | ask op next ih => exact (ih (answer op s).1 (answer op s).2).ask (hanswer s op)

end Program

/-- What always comes to an end can be done again and again. -/
theorem exists_iterates {σ α : Type} {step : σ → α → σ → Prop} (hend : ∀ s, ∃ a s', step s a s')
    (start : σ) :
    ∃ (s : Nat → σ) (a : Nat → α), s 0 = start ∧ ∀ i, step (s i) (a i) (s (i + 1)) := by
  rcases Classical.axiomOfChoice hend with ⟨result, hresult⟩
  rcases Classical.axiomOfChoice hresult with ⟨after, hafter⟩
  let s : Nat → σ := fun i => Nat.rec start (fun _ s => after s) i
  exact ⟨s, fun i => result (s i), rfl, fun i => hafter (s i)⟩

end Reconciler
