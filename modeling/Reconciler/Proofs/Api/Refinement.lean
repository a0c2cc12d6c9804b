import Reconciler.Proofs.Api.Hindsight
import Reconciler.Proofs.Api.Reference
import Reconciler.Proofs.Interleaving

/-! # The store over a server is a cluster

A store call over a server comes to what the cluster of the server reports, and does to it what the call does.
So it is for one call, and so for calls one after the other: they get the same results and leave the same
objects behind as without any server, and that some of them were throttled is seen from nothing but waits and
the counts of throttled attempts.

Main definitions and statements:

* `Concur`: results that are the same but for what a failure was made from;
* `Logged`: what calls leave in the log of the store;
* `perform_over_server`: one call;
* `performAll_over_server`: calls one after the other, by induction;
* `Logged.counts`: what is counted and timed is what the cluster says, but for throttled attempts.
-/

namespace Reconciler

/-! ## Results -/

/-- Two results that are the same, but for what a failure was made from. -/
inductive Concur {α β : Type} (rel : α → β → Prop) : Except Failure α → Except Failure β → Prop where
  | ok {a : α} {b : β} : rel a b → Concur rel (.ok a) (.ok b)
  | error (f : Fault) (source source' : Option Fault) :
      Concur rel (.error ⟨f, source⟩) (.error ⟨f, source'⟩)

namespace Cluster

def reports (c : Cluster) : List StoreCall → List (Except Failure Value)
  | [] => []
  | call :: rest => c.reported call :: (c.perform call).2.reports rest

def after (c : Cluster) (calls : List StoreCall) : Cluster :=
  calls.foldl (fun c call => (c.perform call).2) c

end Cluster

namespace ApiStore

variable {methods : Methods} {wording : Wording} {settings : Settings} {retries : Nat} {σ : Type}
variable {server : Server σ} {cluster : σ → Cluster} {rejected : σ → Nat}

/-! ## One call -/

/-- A server that has looked at a call comes to what the cluster reports. -/
theorem Settled.lookedAt {c c' : Cluster} {call : StoreCall} {o : Operation} {outcome : Outcome}
    (h : Settled c call o) (hlooked : LookedAt c o.call outcome c') :
    Concur Eq (meaning o outcome).2 (c.reported call) ∧ c' = (c.perform call).2 ∧
      (meaning o outcome).1 = labelOf (c.perform call).1 := by
  -- the cluster and the server settle the call in the same way, so two of the four cases cannot be
  cases h with
  | object hperform hserve =>
    cases hlooked with
    | carriedOut hserve' =>
      rw [hserve] at hserve'
      obtain ⟨rfl, rfl⟩ := Prod.mk.inj (Except.ok.inj hserve')
      rw [Cluster.reported, hperform]
      exact ⟨.ok rfl, rfl, rfl⟩
    | refused _ hserve' _ =>
      rw [hserve] at hserve'
      cases hserve'
  | @refused f _ hperform hserve hmeans =>
    cases hlooked with
    | carriedOut hserve' =>
      rw [hserve] at hserve'
      cases hserve'
    | @refused code status reason body text hserve' hstatus =>
      rw [hserve] at hserve'
      obtain rfl := Except.error.inj hserve'
      have hmeaning : meaning o (.refused status reason body text) =
          (labelOf (.error f), .error ⟨f, some (.refusal status reason body text)⟩) := by
        simp only [meaning, hmeans (.refusal status reason body text) status hstatus]
      rw [hmeaning, Cluster.reported, hperform]
      exact ⟨.error f _ _, rfl, rfl⟩

/-- What calls leave in the log of the store. Each is tried as often as the server throttles, but not too
often; then it is counted by the answer of the cluster, and timed. -/
inductive Logged (retries : Nat) : Cluster → List StoreCall → List ApiOp → Prop where
  | nil (c : Cluster) : Logged retries c [] []
  | cons {c : Cluster} {call : StoreCall} {rest : List StoreCall} {o : Operation} {more : Nat}
      {tried asked : List ApiOp} {d : Rat} :
      operation call = .ok o → more ≤ retries → Tried o (labelOf (c.perform call).1) 0 more tried →
      Logged retries (c.perform call).2 rest asked →
      Logged retries c (call :: rest)
        (.seconds :: tried ++ [.seconds, .trace (.observe (.apiCalls o.metric) d)] ++ asked)

/-- A store call over a server comes to what the cluster reports and does to it what the call does. -/
theorem perform_over_server (hcomplete : methods.Complete) (hquotes : Quotes wording)
    (hrate : settings.callRate ≠ 0) (hfronts : Fronts wording retries server cluster rejected) (l : Limiter)
    {s : Backstage σ} {call : StoreCall} (horderly : (cluster s.server).Orderly) (hapt : Apt (cluster s.server) call) :
    Program.Ensures (backed server) (fun _ _ => True) (fun s' r =>
        Concur Eq r.1 ((cluster s.server).reported call) ∧
        cluster s'.server = ((cluster s.server).perform call).2 ∧
        ∃ asked, s'.log = s.log ++ asked ∧ ∀ rest more,
          Logged retries ((cluster s.server).perform call).2 rest more →
          Logged retries (cluster s.server) (call :: rest) (asked ++ more))
      ((perform methods settings retries call).run l) s := by
  obtain ⟨o, ho, hoffered⟩ := exists_operation hcomplete hapt.sensible
  have hsettled := settled_of_apt horderly hapt ho
  rw [perform_eq ho, if_pos hoffered]
  refine (called_over_server hrate hquotes hfronts o l s).mono (fun _ _ _ => trivial) ?_
  rintro s' ⟨reply, l'⟩ ⟨outcome, more, asked, d, hlooked, hreply, hmore, htried, hlog⟩
  obtain ⟨hconcur, hafter, hlabel⟩ := hsettled.lookedAt hlooked
  obtain rfl : reply = (meaning o outcome).2 := hreply
  rw [hlabel] at htried
  exact ⟨hconcur, hafter, _, hlog, fun rest later hlater => .cons ho hmore htried hlater⟩

/-! ## Calls one after the other -/

def performAll (methods : Methods) (settings : Settings) (retries : Nat) :
    List StoreCall → Attempt (List (Except Failure Value))
  | [] => return []
  | call :: rest => do
    let reply ← perform methods settings retries call
    return reply :: (← performAll methods settings retries rest)

/-- Calls over a server, one after the other, get what the cluster reports and leave the cluster behind that
the calls leave. The induction is on the calls; what every call needs of the cluster is kept by each. -/
theorem performAll_over_server (hcomplete : methods.Complete) (hquotes : Quotes wording)
    (hrate : settings.callRate ≠ 0) (hfronts : Fronts wording retries server cluster rejected)
    {calls : List StoreCall}
    (hcalls : ∀ call ∈ calls, call.Sensible ∧ call.Patchable) (l : Limiter) {s : Backstage σ}
    (horderly : (cluster s.server).Orderly) (hpatchable : (cluster s.server).Patchable) :
    Program.Ensures (backed server) (fun _ _ => True) (fun s' r =>
        List.Forall₂ (Concur Eq) r.1 ((cluster s.server).reports calls) ∧
        cluster s'.server = (cluster s.server).after calls ∧
        ∃ asked, s'.log = s.log ++ asked ∧ Logged retries (cluster s.server) calls asked)
      ((performAll methods settings retries calls).run l) s := by
  induction calls generalizing l s with
  | nil => exact ⟨.nil, rfl, [], by simp, .nil _⟩
  | cons call rest ih =>
    obtain ⟨hsensible, hsends⟩ := hcalls call List.mem_cons_self
    have hrest : ∀ call ∈ rest, call.Sensible ∧ call.Patchable :=
      fun later hlater => hcalls later (List.mem_cons_of_mem _ hlater)
    have horderly' := horderly.perform call
    have hpatchable' := hpatchable.perform horderly hsensible hsends
    refine (Program.ensures_bind _ _ _).mpr ?_
    refine (perform_over_server hcomplete hquotes hrate hfronts l horderly (hpatchable.apt hsensible)).mono
      (fun _ _ _ => trivial) ?_
    rintro t ⟨reply, l'⟩ ⟨hconcur, hafter, first, hlog, hlogged⟩
    -- the rest starts from the cluster that the first call has left
    rw [← hafter] at horderly' hpatchable' hlogged
    refine (Program.ensures_bind _ _ _).mpr ?_
    refine (ih hrest l' horderly' hpatchable').mono (fun _ _ _ => trivial) ?_
    rintro s' ⟨replies, l''⟩ ⟨hreplies, hend, asked, hlog', hall⟩
    refine ⟨?_, ?_, first ++ asked, ?_, hlogged rest asked hall⟩
    · rw [Cluster.reports, ← hafter]
      exact .cons hconcur hreplies
    · rw [hend, hafter]
      rfl
    · rw [hlog', hlog, List.append_assoc]

/-! ## What is seen of throttling -/

/-- How calls are counted when nothing is throttled: each once, by the answer of the cluster. -/
def ledger : Cluster → List StoreCall → List (String × String)
  | _, [] => []
  | c, call :: rest =>
    ((operation call).toOption.map fun o => (o.metric, labelOf (c.perform call).1)).toList ++
      ledger (c.perform call).2 rest

/-- A cluster does not throttle, so no answer of it is counted so. -/
theorem labelOf_ne_throttled (answer : Except Fault Value) : labelOf answer ≠ "throttled" := by
  unfold labelOf
  split <;> simp

/-- Without the throttled attempts, the counts are those of the ledger; and each call is timed once. -/
theorem Logged.counts {c : Cluster} {calls : List StoreCall} {asked : List ApiOp}
    (h : Logged retries c calls asked) :
    (labels asked).filter (fun count => count.2 ≠ "throttled") = ledger c calls ∧
      timed asked = (ledger c calls).map (·.1) := by
  induction h with
  | nil => exact ⟨rfl, rfl⟩
  | @cons c call rest o more tried asked d ho hmore htried hrest ih =>
    obtain ⟨hlabels, htimed⟩ := ih
    have hledger : ledger c (call :: rest) =
        (o.metric, labelOf (c.perform call).1) :: ledger (c.perform call).2 rest := by
      simp [ledger, ho, Except.toOption]
    have hsplit : labels (.seconds :: tried ++ [.seconds, .trace (.observe (.apiCalls o.metric) d)] ++ asked) =
        labels tried ++ labels asked := by
      simp [labels]
    have htimes : timed (.seconds :: tried ++ [.seconds, .trace (.observe (.apiCalls o.metric) d)] ++ asked) =
        timed tried ++ o.metric :: timed asked := by
      simp [timed]
    -- the label of the last attempt is never the one that is left out
    constructor
    · rw [hsplit, htried.labels_eq, List.filter_append, hlabels, hledger]
      simp [labelOf_ne_throttled]
    · rw [htimes, htried.timed_eq, htimed, hledger]
      rfl

end ApiStore

end Reconciler
