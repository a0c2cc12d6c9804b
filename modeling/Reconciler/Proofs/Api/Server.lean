import Reconciler.Proofs.Api.Attempts
import Reconciler.Proofs.Cluster

/-! # API servers in front of a cluster

An API server keeps a cluster. It refuses a call about an object that does not exist, the creation of one that
does, and a replacement that carries a stale version; any other call it carries out. Beside that it may
throttle: it may refuse any call without looking at it, so many times in a row.

Main definitions and statements:

* `ApiServer.serve`: what an API server makes of a call when it looks at it;
* `Server`, `Fronts`: servers as state machines, and what is asked of one in front of a cluster;
* `Wording`, `Quotes`: how the client words a refusal, and what is known of it;
* `Rejection.throttling`, `LookedAt.not_throttling`: what a server answers tells whether it looked at the call.
-/

namespace Reconciler

/-! ## Merge patches -/

namespace Value

def fieldsOf : Value → Fields
  | .object fields => fields
  | _ => []

mutual

/-- A value after a merge patch. The fields of a patch are merged in at every depth, a field that is null in
the patch is removed, and a patch that is no object takes the place of what is there. -/
def patched (v : Value) : Value → Value
  | .object changes => .object (patchedFields v.fieldsOf changes)
  | other => other

def patchedFields (fields : Fields) : List (String × Value) → Fields
  | [] => fields
  | (key, change) :: rest =>
    patchedFields (if change.isNull then Fields.erase key fields
      else Fields.insert key (patched ((Fields.find? key fields).getD .null) change) fields) rest

end

end Value

/-! ## Carrying out calls -/

namespace ApiCall

/-- The kind that is served the way a call goes. -/
def kind? (c : ApiCall) : Option String :=
  (Served.kinds.find? fun entry => entry.2 = c.served).map (·.1)

/-- The object a call is about. The name of an object to create is in the object. -/
def target (c : ApiCall) : Option Address := do
  let kind ← c.kind?
  let name ← if c.verb = .create then do (← c.body.field? "metadata").field? "name" else some c.name
  return ⟨.text kind, c.ns, name⟩

end ApiCall

namespace ApiServer

def unprocessable : Int := 422

/-- An object to create, with the namespace of the call if it names none itself. -/
def placed (ns object : Value) : Except Fault Value := do
  let metadata ← (← object.require "metadata").withDefault "namespace" ns
  object.setField "metadata" metadata

/-- Whether a replacement carries another version than the stored object. -/
def stale (stored object : Value) : Bool :=
  match Cluster.versionOf object with
  | none => false
  | some sent => !sent.isNull && !(Cluster.versionOf stored).any sent.same

def save (c : Cluster) (operation : String) (a : Address) (object : Except Fault Value) :
    Except Int (Value × Cluster) :=
  match object >>= fun object => Cluster.withVersion object c.nextVersion with
  | .ok v => .ok (v, (c.bumped.withObject a v).recorded operation a)
  | .error _ => .error unprocessable

/-- What a server makes of a call: an object and a new cluster, or the status of a refusal. A replacement
leaves the status alone, and a replacement of the status leaves everything else alone. -/
def serve (c : Cluster) (call : ApiCall) : Except Int (Value × Cluster) :=
  match call.target with
  | none => .error unprocessable
  | some a =>
    match c.find? a, call.verb with
    | none, .create => save c "create" a (placed call.ns call.body >>= Cluster.completed)
    | none, _ => .error 404
    | some _, .create => .error 409
    | some stored, .read => .ok (stored, c)
    | some stored, .replace =>
      if stale stored call.body then .error 409
      else save c "update" a (call.body.setField "status" ((stored.field? "status").getD .null))
    | some stored, .replaceStatus =>
      if stale stored call.body then .error 409
      else save c "update_status" a
        (stored.setField "status" ((call.body.field? "status").getD .null))
    | some stored, .patch => save c "annotate" a (.ok (stored.patched call.body))

/-- Saving fails for one reason alone. -/
theorem save_error {c : Cluster} {operation : String} {a : Address} {object : Except Fault Value}
    {code : Int} (h : save c operation a object = .error code) : code = unprocessable := by
  unfold save at h
  split at h
  · cases h
  · exact (Except.error.inj h).symm

/-- A call that is looked at is refused for one of three reasons. -/
theorem serve_error {c : Cluster} {call : ApiCall} {code : Int} (h : serve c call = .error code) :
    code = 404 ∨ code = 409 ∨ code = unprocessable := by
  -- one case for each line of the definition
  unfold serve at h
  split at h
  · exact .inr (.inr (Except.error.inj h).symm)
  · split at h
    · exact .inr (.inr (save_error h))
    · exact .inl (Except.error.inj h).symm
    · exact .inr (.inl (Except.error.inj h).symm)
    · cases h
    · split at h
      · exact .inr (.inl (Except.error.inj h).symm)
      · exact .inr (.inr (save_error h))
    · split at h
      · exact .inr (.inl (Except.error.inj h).symm)
      · exact .inr (.inr (save_error h))
    · exact .inr (.inr (save_error h))

end ApiServer

namespace ApiStore

open ApiServer

/-! ## Servers -/

/-- A server: the state before, a call, what comes of it, and the state after. -/
abbrev Server (σ : Type) : Type :=
  σ → ApiCall → Outcome → σ → Prop

/-- The texts that the client may give a refusal with a status, a reason and a body. -/
abbrev Wording : Type :=
  Value → Value → Value → String → Prop

/-- A wording that quotes the reason of a refusal, and its body if there is any. What else it says is left open:
it may be the status, or the headers of the answer. -/
structure Quotes (wording : Wording) : Prop where
  reason : ∀ status reason body text, wording status (.text reason) body text →
    ∃ before after, text = before ++ reason ++ after
  body : ∀ status reason body text, body ≠ "" → wording status reason (.text body) text →
    ∃ before after, text = before ++ body ++ after

/-- A text that mentions the rate limit. -/
def Mentions (v : Value) : Prop :=
  ∃ s, v = .text s ∧ mentionsRateLimit s = true

/-- A refusal of a server that is throttling, as the client words it. -/
inductive Rejection (wording : Wording) : Outcome → Prop where
  | tooMany {status reason body : Value} (text : String) :
      status.same (.integer 429) = true → Rejection wording (.refused status reason body text)
  | unavailable {status reason body : Value} {text : String} :
      status.same (.integer 503) = true → Mentions reason ∨ Mentions body → wording status reason body text →
      Rejection wording (.refused status reason body text)

/-- What comes of a call that the server looks at, and the cluster after it. A refusal may have any
wording. -/
inductive LookedAt (c : Cluster) (call : ApiCall) : Outcome → Cluster → Prop where
  | carriedOut {v : Value} {c' : Cluster} :
      serve c call = .ok (v, c') → LookedAt c call (.object v) c'
  | refused {code : Int} {status reason body : Value} (text : String) :
      serve c call = .error code → status.same (.integer code) = true →
      LookedAt c call (.refused status reason body text) c

/-- A server in front of a cluster. It always answers. It may reject so many calls in a row, and a call that
it rejects has no effect; any other call it looks at. -/
structure Fronts {σ : Type} (wording : Wording) (retries : Nat) (server : Server σ) (cluster : σ → Cluster)
    (rejected : σ → Nat) : Prop where
  answers : ∀ s call, ∃ outcome s', server s call outcome s'
  fair : ∀ {s call outcome s'}, server s call outcome s' →
    (Rejection wording outcome ∧ rejected s < retries ∧ cluster s' = cluster s ∧
      rejected s' = rejected s + 1) ∨
    (LookedAt (cluster s) call outcome (cluster s') ∧ rejected s' = 0)

/-! ## Throttling is told from other refusals -/

section Throttling

/-- A status is compared as a number. -/
theorem same_integer_iff {v : Value} {n : Int} :
    v.same (.integer n) = true ↔ v.number? = some (n : Rat) := by
  cases v <;> simp [Value.same, Value.number?]

/-- A status counts as one number at most. -/
theorem same_integer_of_ne {v : Value} {m n : Int} (h : v.same (.integer m) = true) (hne : m ≠ n) :
    v.same (.integer n) = false := by
  rw [same_integer_iff] at h
  rw [Bool.eq_false_iff]
  intro hsame
  rw [same_integer_iff, h] at hsame
  exact hne (by simpa using hsame)

/-- A part of a text is a part of every text that goes on after it. -/
theorem occursIn_append_right {part text : List Char} (h : Value.occursIn part text = true)
    (after : List Char) : Value.occursIn part (text ++ after) = true := by
  induction text with
  | nil =>
    obtain rfl : part = [] := by simpa [Value.occursIn] using h
    cases after <;> simp [Value.occursIn]
  | cons c rest ih =>
    simp only [Value.occursIn, Bool.or_eq_true] at h
    simp only [List.cons_append, Value.occursIn, Bool.or_eq_true]
    -- the part starts here, or further on
    rcases h with hprefix | hrest
    · left
      have hhere : part <+: c :: rest := List.isPrefixOf_iff_prefix.mp hprefix
      exact List.isPrefixOf_iff_prefix.mpr (hhere.trans (List.prefix_append (c :: rest) after))
    · right
      exact ih hrest

/-- A part of a text is a part of every text that has something before it. -/
theorem occursIn_append_left {part text : List Char} (h : Value.occursIn part text = true)
    (before : List Char) : Value.occursIn part (before ++ text) = true := by
  induction before with
  | nil => exact h
  | cons c rest ih => simp [Value.occursIn, ih]

/-- A text that contains one that mentions the rate limit mentions it. -/
theorem mentionsRateLimit_append {text : String} (h : mentionsRateLimit text = true)
    (before after : String) : mentionsRateLimit (before ++ text ++ after) = true := by
  unfold mentionsRateLimit at *
  simp only [String.toList_append, List.map_append]
  exact occursIn_append_right (occursIn_append_left h _) _

/-- A refusal whose reason or body mentions the rate limit mentions it, if it is worded so that it quotes
them. -/
theorem Quotes.mentionsRateLimit {wording : Wording} (hquotes : Quotes wording) {status reason body : Value}
    {text : String} (htext : wording status reason body text) (h : Mentions reason ∨ Mentions body) :
    mentionsRateLimit text = true := by
  rcases h with ⟨quoted, rfl, hmentions⟩ | ⟨quoted, rfl, hmentions⟩
  · obtain ⟨before, after, rfl⟩ := hquotes.reason _ _ _ _ htext
    exact mentionsRateLimit_append hmentions before after
  · -- a body that mentions anything is not empty, so it is quoted
    have hnonempty : quoted ≠ "" := by
      rintro rfl
      exact absurd hmentions (by decide)
    obtain ⟨before, after, rfl⟩ := hquotes.body _ _ _ _ hnonempty htext
    exact mentionsRateLimit_append hmentions before after

/-- The client takes a rejection for what it is. -/
theorem Rejection.throttling {wording : Wording} (hquotes : Quotes wording) {outcome : Outcome}
    (h : Rejection wording outcome) : outcome.throttling = true := by
  cases h with
  | tooMany text hstatus => simp [Outcome.throttling, Fault.throttling, hstatus]
  | unavailable hstatus hmentions htext =>
    simp [Outcome.throttling, Fault.throttling, hstatus, hquotes.mentionsRateLimit htext hmentions]

/-- What a server answers to a call that it looks at is no throttling. -/
theorem LookedAt.not_throttling {c c' : Cluster} {call : ApiCall} {outcome : Outcome}
    (h : LookedAt c call outcome c') : outcome.throttling = false := by
  cases h with
  | carriedOut _ => rfl
  | @refused code status reason body text hserve hstatus =>
    -- a call that was looked at is refused with 404, 409 or 422, and none of these is a status of throttling
    have hcode : code ≠ 429 ∧ code ≠ 503 := by
      rcases serve_error hserve with rfl | rfl | rfl <;> decide
    simp [Outcome.throttling, Fault.throttling, same_integer_of_ne hstatus hcode.1,
      same_integer_of_ne hstatus hcode.2]

end Throttling

end ApiStore

end Reconciler
