import Reconciler.Proofs.Api.Server

/-! # Calls over a server, in hindsight

What a server will answer depends on its state. But when a call is over, its answers are known, and the call
went as it goes over a server that follows them as a script. So everything that is known about scripts is
known about servers.

Main definitions and statements:

* `backed`: the surroundings of the store with some server;
* `in_hindsight`: every run over a server is a run over the script of what it answered;
* `Exchanged.last`: the last answer to a call comes from a server that looked at it;
* `called_over_server`: a store call, over every server in front of a cluster.
-/

namespace Reconciler.ApiStore

/-! ## Surroundings -/

/-- A server, and everything asked so far. -/
structure Backstage (σ : Type) where
  server : σ
  log : List ApiOp

variable {σ α : Type} {server : Server σ}

/-- The surroundings of the store with some server. The clock may show any time. -/
def backed (server : Server σ) : Responder apiSignature (Backstage σ)
  | s, .call c, answer, s' => ∃ outcome, answer = outcome.answer ∧
      server s.server c outcome s'.server ∧ s'.log = s.log ++ [.call c]
  | s, .seconds, _, s' => s'.server = s.server ∧ s'.log = s.log ++ [.seconds]
  | s, .sleep d, _, s' => s'.server = s.server ∧ s'.log = s.log ++ [.sleep d]
  | s, .trace t, _, s' => s'.server = s.server ∧ s'.log = s.log ++ [.trace t]

/-- A server that always answers makes surroundings that do. -/
theorem exists_backed (hanswers : ∀ s call, ∃ outcome s', server s call outcome s') (s : Backstage σ)
    (op : ApiOp) : ∃ answer s', backed server s op answer s' := by
  cases op with
  | call c =>
    obtain ⟨outcome, t, hserver⟩ := hanswers s.server c
    exact ⟨outcome.answer, ⟨t, s.log ++ [.call c]⟩, outcome, rfl, hserver, rfl⟩
  | seconds => exact ⟨(0 : Rat), ⟨s.server, s.log ++ [.seconds]⟩, rfl, rfl⟩
  | sleep d => exact ⟨(), ⟨s.server, s.log ++ [.sleep d]⟩, rfl, rfl⟩
  | trace t => exact ⟨(), ⟨s.server, s.log ++ [.trace t]⟩, rfl, rfl⟩

inductive Exchanged (server : Server σ) : σ → List (ApiCall × Outcome) → σ → Prop where
  | nil (s : σ) : Exchanged server s [] s
  | cons {s t u : σ} {c : ApiCall} {outcome : Outcome} {rest : List (ApiCall × Outcome)} :
      server s c outcome t → Exchanged server t rest u →
      Exchanged server s ((c, outcome) :: rest) u

/-- Calls to a server, and then further calls. -/
theorem Exchanged.append {s t u : σ} {first rest : List (ApiCall × Outcome)}
    (h : Exchanged server s first t) (hrest : Exchanged server t rest u) :
    Exchanged server s (first ++ rest) u := by
  induction h with
  | nil => exact hrest
  | cons hserver _ ih => exact .cons hserver (ih hrest)

/-! ## Hindsight -/

/-- A script that has what came of calls from a place on. -/
def Scripted (script : Nat → Outcome) (used : Nat) (exchanges : List (ApiCall × Outcome)) : Prop :=
  ∀ i e, exchanges[i]? = some e → script (used + i) = e.2

/-- A script that has what came of two rows of calls has the second where the first is used up. -/
theorem Scripted.append {script : Nat → Outcome} {used : Nat} {first rest : List (ApiCall × Outcome)}
    (h : Scripted script used (first ++ rest)) :
    Scripted script used first ∧ Scripted script (used + first.length) rest := by
  constructor
  · intro i e he
    have hi : i < first.length := (List.getElem?_eq_some_iff.mp he).1
    exact h i e (by rw [List.getElem?_append_left hi, he])
  · intro i e he
    have hlater := h (first.length + i) e (by
      rw [List.getElem?_append_right (Nat.le_add_right _ _), Nat.add_sub_cancel_left, he])
    rwa [← Nat.add_assoc] at hlater

def scriptOf (exchanges : List (ApiCall × Outcome)) (i : Nat) : Outcome :=
  match exchanges[i]? with
  | some e => e.2
  | none => .object .null

/-- What came of calls can be looked up in their script. -/
theorem scripted_scriptOf (exchanges : List (ApiCall × Outcome)) :
    Scripted (scriptOf exchanges) 0 exchanges := by
  intro i e he
  simp [scriptOf, he]

/-- A run over a server, looked back at: the calls with what came of them, everything asked, and that the run
is one over every script that has what came of the calls. -/
def Hindsight (server : Server σ) (p : ApiProgram α) (s s' : Backstage σ) (a : α) : Prop :=
  ∃ exchanges asked, Exchanged server s.server exchanges s'.server ∧ s'.log = s.log ++ asked ∧
    calls asked = exchanges.map (·.1) ∧
    ∀ script used log, Scripted script used exchanges → Program.Leads (follows script) p ⟨used, log⟩
      (.done a) ⟨used + exchanges.length, log ++ asked⟩

/-- A question in front, which is a call or not. -/
theorem Hindsight.ask {op : ApiOp} {next : op.Answer → ApiProgram α} {answer : op.Answer}
    {s t s' : Backstage σ} {a : α} {first : List (ApiCall × Outcome)}
    (h : Hindsight server (next answer) t s' a)
    (hfirst : Exchanged server s.server first t.server) (hlog : t.log = s.log ++ [op])
    (hcalls : calls [op] = first.map (·.1))
    (hfollows : ∀ script used log, Scripted script used first →
      follows script ⟨used, log⟩ op answer ⟨used + first.length, log ++ [op]⟩) :
    Hindsight server (.ask (S := apiSignature) op next) s s' a := by
  obtain ⟨exchanges, asked, hexchanged, hlog', hcalls', hruns⟩ := h
  refine ⟨first ++ exchanges, op :: asked, hfirst.append hexchanged, ?_, ?_, ?_⟩
  · simp [hlog', hlog]
  · have hsplit : calls (op :: asked) = calls [op] ++ calls asked := List.filterMap_append (l := [op])
    rw [hsplit, hcalls, hcalls', List.map_append]
  · intro script used log hscript
    obtain ⟨hhere, hrest⟩ := hscript.append
    have hrun := hruns script (used + first.length) (log ++ [op]) hrest
    rw [List.append_assoc, Nat.add_assoc, ← List.length_append] at hrun
    exact hrun.ask (hfollows script used log hhere)

/-- A run over a server is, in hindsight, a run over the script of what the server answered. -/
theorem in_hindsight (p : ApiProgram α) (s : Backstage σ) :
    p.Ensures (backed server) (fun _ _ => True) (Hindsight server p s) s := by
  -- the induction is on the questions of the program; only calls use up outcomes
  induction p generalizing s with
  | done a =>
    refine ⟨[], [], .nil _, by simp, rfl, ?_⟩
    intro script used log _
    simpa using Program.Leads.here (E := follows script) (Program.done a) ⟨used, log⟩
  | ask op next ih =>
    refine ⟨trivial, ?_⟩
    intro answer t hanswer
    refine (ih answer t).mono (fun _ _ _ => trivial) ?_
    intro s' a h
    cases op with
    | call c =>
      obtain ⟨outcome, rfl, hserver, hlog⟩ := hanswer
      refine h.ask (.cons hserver (.nil _)) hlog rfl ?_
      intro script used log hscript
      -- the script has this outcome next, as it was what came of the call
      have hnext : outcome = script used := (hscript 0 (c, outcome) rfl).symm
      exact ⟨congrArg Outcome.answer hnext, rfl⟩
    | seconds | sleep | trace =>
      obtain ⟨hserver, hlog⟩ := hanswer
      -- a question that is no call leaves the server as it is
      have hnone : Exchanged server s.server [] t.server := by
        rw [hserver]
        exact .nil _
      exact h.ask hnone hlog rfl fun _ _ _ _ => rfl

/-! ## The last answer -/

/-- A call is tried again at every throttling, up to the limit, and no more. -/
theorem retriedFrom_spec (script : Nat → Outcome) (i retries : Nat) :
    retriedFrom script i retries ≤ retries ∧
      (∀ j < retriedFrom script i retries, (script (i + j)).throttling = true) ∧
      (retriedFrom script i retries < retries →
        (script (i + retriedFrom script i retries)).throttling = false) := by
  induction retries generalizing i with
  | zero => simp [retriedFrom]
  | succ retries ih =>
    obtain ⟨hle, hbefore, hafter⟩ := ih (i + 1)
    have hrange : List.range' i (retries + 1) = i :: List.range' (i + 1) retries := rfl
    by_cases hthrottling : (script i).throttling = true
    · -- the first outcome counts as one more, and the rest is known from the next place on
      have hmore : retriedFrom script i (retries + 1) = retriedFrom script (i + 1) retries + 1 := by
        simp [retriedFrom, hrange, hthrottling]
      rw [hmore]
      refine ⟨by omega, ?_, ?_⟩
      · intro j hj
        cases j with
        | zero => exact hthrottling
        | succ j =>
          have hnext := hbefore j (by omega)
          rwa [Nat.add_assoc, Nat.add_comm 1 j] at hnext
      · intro hless
        have hnext := hafter (by omega)
        rwa [Nat.add_assoc, Nat.add_comm 1] at hnext
    · -- the first outcome already ends the attempts
      have hnone : retriedFrom script i (retries + 1) = 0 := by
        simp [retriedFrom, hrange, hthrottling]
      rw [hnone]
      refine ⟨Nat.zero_le _, ?_, ?_⟩
      · intro j hj
        omega
      · intro _
        simpa using hthrottling

variable {wording : Wording} {retries : Nat} {cluster : σ → Cluster} {rejected : σ → Nat}

/-- After so many refusals because of throttling, the next answer comes from a server that has looked at the
call, if it is no throttling or the server may not throttle any more. -/
theorem Exchanged.last (hquotes : Quotes wording) (hfronts : Fronts wording retries server cluster rejected)
    {call : ApiCall} {outcome : Outcome} {s s' : σ} {before : List (ApiCall × Outcome)}
    (h : Exchanged server s (before ++ [(call, outcome)]) s')
    (hbefore : ∀ e ∈ before, e.2.throttling = true)
    (hlast : outcome.throttling = true → retries ≤ rejected s + before.length) :
    LookedAt (cluster s) call outcome (cluster s') := by
  induction before generalizing s with
  | nil =>
    -- nothing came before, so this is the answer of the server as it stands
    have hserver : server s call outcome s' := by
      cases h with
      | cons hserver hnil =>
        cases hnil
        exact hserver
    rcases hfronts.fair hserver with ⟨hrejection, hless, -⟩ | ⟨hlooked, -⟩
    · have hbound := hlast (hrejection.throttling hquotes)
      simp at hbound
      omega
    · exact hlooked
  | cons e rest ih =>
    cases h with
    | @cons _ t _ c refusal _ hserver hrest =>
      have hthrottling : refusal.throttling = true := hbefore _ List.mem_cons_self
      rcases hfronts.fair hserver with ⟨-, -, hsame, hnext⟩ | ⟨hlooked, -⟩
      · rw [← hsame]
        -- a rejection leaves the cluster as it is, and one more is counted
        refine ih hrest (fun e he => hbefore e (List.mem_cons_of_mem _ he)) ?_
        intro hlastThrottling
        have hbound := hlast hlastThrottling
        simp at hbound
        omega
      · -- a server that looks at a call does not throttle
        rw [hlooked.not_throttling] at hthrottling
        cases hthrottling

/-- A store call, over every server in front of a cluster: whatever was tried before, its result is what is
meant by an answer of a server that has looked at the call. -/
theorem called_over_server {settings : Settings} (hrate : settings.callRate ≠ 0)
    (hquotes : Quotes wording) (hfronts : Fronts wording retries server cluster rejected) (o : Operation)
    (l : Limiter) (s : Backstage σ) :
    Program.Ensures (backed server) (fun _ _ => True) (fun s' r => ∃ outcome more asked d,
        LookedAt (cluster s.server) o.call outcome (cluster s'.server) ∧ r.1 = (meaning o outcome).2 ∧
        more ≤ retries ∧ Tried o (meaning o outcome).1 0 more asked ∧
        s'.log = s.log ++ (.seconds :: asked ++ [.seconds, .trace (.observe (.apiCalls o.metric) d)]))
      ((called settings retries o).run l) s := by
  refine (in_hindsight _ s).mono (fun _ _ _ => trivial) ?_
  rintro s' r ⟨exchanges, all, hexchanged, hlog, hcalls, hruns⟩
  -- in hindsight this was a call over a script, of which everything is known
  have hrun := hruns (scriptOf exchanges) 0 [] (scripted_scriptOf exchanges)
  obtain ⟨asked, d, hr, htried, hprogress⟩ :=
    (ensures_meaning hrate retries (scriptOf exchanges) l).of_leads hrun
  -- one outcome was used up for each attempt, and the last of them decided
  have hlength : exchanges.length = retried (scriptOf exchanges) retries + 1 := by
    simpa using congrArg Progress.used hprogress
  have hall : all = .seconds :: asked ++ [.seconds, .trace (.observe (.apiCalls o.metric) d)] := by
    simpa using congrArg Progress.log hprogress
  have hsame : exchanges.map (·.1) = List.replicate (retried (scriptOf exchanges) retries + 1) o.call := by
    rw [← hcalls, ← htried.calls_eq, hall]
    simp [calls]
  obtain ⟨before, ⟨call, outcome⟩, rfl⟩ : ∃ before e, exchanges = before ++ [e] := by
    rcases List.eq_nil_or_concat exchanges with rfl | hsome
    · simp at hlength
    · simpa using hsome
  have hcount : before.length = retried (scriptOf (before ++ [(call, outcome)])) retries := by
    simpa using hlength
  obtain rfl : call = o.call := by
    refine List.eq_of_mem_replicate (n := retried (scriptOf (before ++ [(call, outcome)])) retries + 1) ?_
    rw [← hsame]
    simp
  have houtcome : scriptOf (before ++ [(o.call, outcome)]) before.length = outcome := by
    simp [scriptOf]
  have hretried : retriedFrom (scriptOf (before ++ [(o.call, outcome)])) 0 retries = before.length := by
    rw [hcount]
    simp [retriedFrom, retried, List.range_eq_range']
  obtain ⟨hle, hthrottled, hdone⟩ := retriedFrom_spec (scriptOf (before ++ [(o.call, outcome)])) 0 retries
  rw [hretried] at hle hthrottled hdone
  rw [← hcount, houtcome] at hr htried
  -- all before the last were throttling, so the last comes from a server that has looked
  refine ⟨outcome, before.length, asked, d, ?_, hr, hle, htried, by rw [hlog, hall]⟩
  refine hexchanged.last hquotes hfronts ?_ ?_
  · intro e he
    obtain ⟨i, hi, rfl⟩ := List.mem_iff_getElem.mp he
    have hscript := hthrottled i hi
    simpa [scriptOf, List.getElem?_append_left hi, List.getElem?_eq_getElem hi] using hscript
  · intro hlast
    rcases Nat.lt_or_ge before.length retries with hless | hge
    · have hstopped := hdone hless
      rw [Nat.zero_add, houtcome, hlast] at hstopped
      cases hstopped
    · omega

end Reconciler.ApiStore
