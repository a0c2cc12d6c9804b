/-! # Programs

A program is a finite tree of questions to its environment: it either has a result, or asks one
question and goes on with the answer. What may be asked, and what an answer looks like, is fixed by a
signature. Everything that reads or writes the cluster, looks at the clock, draws random characters or
leaves a trace is a program, so the same definition can be run against a real environment, against a
simulated one, or one question at a time between the steps of other programs.

Main definitions and statements:

* `Program` and its monad structure, lawful by `Program.lawful`;
* `Program.run`: answering every question in some other monad;
* `run_bind`: running is compositional.
-/

namespace Reconciler

/-- What may be asked, and the type of the answer to each question. -/
structure Signature where
  Op : Type
  Answer : Op → Type

/-- A tree of questions with a result at every leaf. -/
inductive Program (S : Signature) (α : Type) : Type where
  /-- The program is finished. -/
  | done (result : α)
  /-- The program asks and goes on with the answer. -/
  | ask (op : S.Op) (next : S.Answer op → Program S α)

namespace Program

variable {S : Signature} {α β γ : Type}

/-- Goes on with the result of a program. -/
def bind : Program S α → (α → Program S β) → Program S β
  | done a, k => k a
  | ask op next, k => ask op fun answer => (next answer).bind k

instance : Monad (Program S) where
  pure := done
  bind := bind

/-- Asks one question and returns the answer. -/
def query (op : S.Op) : Program S (S.Answer op) :=
  ask op done

/-- Answers every question of a program in another monad. -/
def run {m : Type → Type} [Monad m] (answer : (op : S.Op) → m (S.Answer op)) :
    Program S α → m α
  | done a => pure a
  | ask op next => do
    let reply ← answer op
    run answer (next reply)

/-! ## Laws -/

theorem bind_done (p : Program S α) : p.bind done = p := by
  induction p with
  | done a => rfl
  | ask op next ih => simp [bind, ih]

theorem bind_assoc (p : Program S α) (f : α → Program S β) (g : β → Program S γ) :
    (p.bind f).bind g = p.bind fun a => (f a).bind g := by
  induction p with
  | done a => rfl
  | ask op next ih => simp [bind, ih]

instance lawful : LawfulMonad (Program S) :=
  LawfulMonad.mk' (Program S)
    (fun p => bind_done p)
    (fun _ _ => rfl)
    (fun p f g => bind_assoc p f g)

/-- Running a program that goes on with the result of another is running the one after the other. -/
theorem run_bind {m : Type → Type} [Monad m] [LawfulMonad m]
    (answer : (op : S.Op) → m (S.Answer op)) (p : Program S α) (k : α → Program S β) :
    (p.bind k).run answer = p.run answer >>= fun a => (k a).run answer := by
  induction p with
  | done a => simp [bind, run]
  | ask op next ih => simp [bind, run, ih]

end Program

end Reconciler
