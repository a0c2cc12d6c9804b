import Reconciler.Proofs.Pass

/-! # Histories of passes

What a pass does next depends only on what it was told so far. So what a pass may do is stated over its
history: the store calls it made with their answers, oldest first.

Main definitions and statements:

* `noted`: the environment that keeps the history, whatever is answered;
* `History.reads`: the objects a pass fetched from an address;
* `Asked`: a history in which every call was permitted when it was made;
* `asked_of_leads`: a pass that only makes permitted calls has such a history at every point.
-/

namespace Reconciler

/-- Store calls with their answers, oldest first. -/
abbrev History := List (StoreCall × Except Failure Value)

/-- Whatever is answered is noted. -/
def noted : Answering History :=
  fun h call reply h' => h' = h ++ [(call, reply)]

namespace History

/-- The object that an exchange fetched from an address. -/
def found? (a : Address) : StoreCall × Except Failure Value → Option Value
  | (.get kind ns name, .ok v) => if a = ⟨kind, ns, name⟩ then some v else none
  | _ => none

/-- The objects fetched from an address. -/
def reads (a : Address) (h : History) : List Value :=
  h.filterMap (found? a)

variable {h : History} {a : Address} {call : StoreCall} {reply : Except Failure Value}

@[simp] theorem reads_nil (a : Address) : reads a [] = [] := rfl

/-- A further exchange adds what it fetched from the address, if anything. -/
theorem reads_append (a : Address) (h : History) (call : StoreCall)
    (reply : Except Failure Value) :
    reads a (h ++ [(call, reply)]) = reads a h ++ (found? a (call, reply)).toList := by
  cases hfound : found? a (call, reply) <;> simp [reads, hfound]

theorem reads_append_get (kind ns name v : Value) :
    reads ⟨kind, ns, name⟩ (h ++ [(.get kind ns name, .ok v)]) = reads ⟨kind, ns, name⟩ h ++ [v] := by
  simp [reads_append, found?]

theorem reads_append_error (f : Failure) : reads a (h ++ [(call, .error f)]) = reads a h := by
  cases call <;> simp [reads_append, found?]

/-- Reads of one address say nothing of another. -/
theorem reads_append_get_of_ne {kind ns name : Value} (hne : a ≠ ⟨kind, ns, name⟩) :
    reads a (h ++ [(.get kind ns name, reply)]) = reads a h := by
  cases reply with
  | ok v => simp [reads_append, found?, hne]
  | error f => exact reads_append_error f

/-- A write fetches nothing. -/
theorem reads_append_write (hwrites : call.writes = true) :
    reads a (h ++ [(call, reply)]) = reads a h := by
  cases call with
  | get kind ns name => simp [StoreCall.writes] at hwrites
  | _ => simp [reads_append, found?]

/-- What is read last was read before, or is the answer. -/
theorem mem_reads_append {v : Value} (hv : v ∈ reads a (h ++ [(call, reply)])) :
    v ∈ reads a h ∨ call = .get a.kind a.ns a.name ∧ reply = .ok v := by
  rw [reads_append, List.mem_append] at hv
  refine hv.imp_right ?_
  intro hfound
  rw [Option.mem_toList] at hfound
  -- only a fetch that succeeded is a read
  match call, reply with
  | .get kind ns name, .ok w =>
    by_cases ha : a = ⟨kind, ns, name⟩
    · subst ha
      obtain rfl : w = v := by simpa [found?] using hfound
      exact ⟨rfl, rfl⟩
    · simp [found?, ha] at hfound
  | .get _ _ _, .error _ | .create _, _ | .update _, _ | .updateStatus _, _ | .annotate _ _ _ _, _ =>
    simp [found?] at hfound

/-- What was read stays read, whatever is asked next. -/
theorem mem_reads_of_noted {h' : History} {op : PassOp} {answer : op.Answer} {v : Value}
    (hv : v ∈ reads a h) (hnoted : facing noted h op answer h') : v ∈ reads a h' := by
  cases op with
  | store call =>
    -- only a store call is noted, and what was read before stays in front of it
    rw [(congrArg (reads a) hnoted).trans (reads_append a h call answer)]
    exact List.mem_append_left _ hv
  | random op =>
    obtain rfl : h' = h := hnoted.2
    exact hv
  | instant | seconds | trace =>
    obtain rfl : h' = h := hnoted
    exact hv

end History

/-- A history in which every call was permitted when it was made. -/
inductive Asked (may : History → StoreCall → Prop) : History → Prop where
  | nil : Asked may []
  | snoc {h : History} {call : StoreCall} {reply : Except Failure Value} :
      Asked may h → may h call → Asked may (h ++ [(call, reply)])

variable {may : History → StoreCall → Prop} {α : Type}

/-- A question of a pass that only makes permitted calls leaves such a history. -/
theorem Asked.step {post : History → α → Prop} {op : PassOp} {next : op.Answer → SafePass α}
    {answer : op.Answer} {h h' : History} (hasked : Asked may h)
    (hp : SafePass.Ensures noted may post (.ask (S := passSignature) op next) h)
    (hnoted : facing noted h op answer h') : Asked may h' := by
  cases op with
  | store call =>
    change h' = h ++ [(call, _)] at hnoted
    -- a store call is the only question that is noted
    subst hnoted
    exact .snoc hasked hp.1
  | random op =>
    obtain rfl : h' = h := hnoted.2
    exact hasked
  | instant | seconds | trace =>
    obtain rfl : h' = h := hnoted
    exact hasked

/-- A pass that only makes permitted calls has such a history at every point. -/
theorem asked_of_leads {post : History → α → Prop} {p q : SafePass α} {h h' : History}
    (hasked : Asked may h) (hp : SafePass.Ensures noted may post p h)
    (hrun : Program.Leads (facing noted) p h q h') : Asked may h' := by
  refine hp.invariant hrun hasked ?_
  rintro h call reply h' hold hmay rfl
  exact .snoc hold hmay

end Reconciler
