import Reconciler.Proofs.Cluster
import Reconciler.Proofs.History

/-! # Passes in the midst of each other

Any number of passes share one cluster. A step of the whole is one question of one pass, the beginning of
another pass, or something that others do to the cluster; the steps come in any order. A store call may
fail for reasons of its own, and whether it took effect then is anyone's guess.

A pass is carried along with its history. So what a pass may do, once shown of the pass alone
(`SafePass.Ensures noted`), holds wherever it is interrupted, and what one step of the whole can do
follows from that: this is `Step.change`, which every invariant is derived from, and `Step.reads` for what
passes know.
-/

namespace Reconciler

/-! ## Stores -/

/-- What a call reports when nothing else fails. -/
def Cluster.reported (c : Cluster) (call : StoreCall) : Except Failure Value :=
  (c.perform call).1.mapError fun f => ⟨f, none⟩

/-- A store that only fails when the call is refused. -/
def reliable : Answering Cluster :=
  fun c call reply c' => reply = c.reported call ∧ c' = (c.perform call).2

/-- A store whose calls may also fail in any other way, with or without having taken effect. -/
def unreliable : Answering Cluster :=
  fun c call reply c' =>
    reliable c call reply c' ∨ ∃ f, reply = .error f ∧ (c' = c ∨ c' = (c.perform call).2)

namespace Cluster

/-- A reported object is what the call answered with. -/
theorem reported_eq_ok {c : Cluster} {call : StoreCall} {v : Value} :
    c.reported call = .ok v ↔ (c.perform call).1 = .ok v := by
  unfold reported
  cases (c.perform call).1 with
  | ok w => simp [Except.mapError]
  | error f => simp [Except.mapError]

/-- Whatever is reported, the call took effect or did not. -/
theorem after_unreliable {c c' : Cluster} {call : StoreCall} {reply : Except Failure Value}
    (h : unreliable c call reply c') : c' = c ∨ c' = (c.perform call).2 := by
  rcases h with ⟨-, h⟩ | ⟨f, -, h⟩
  · exact .inr h
  · exact h

/-- An object that was fetched is the stored one. -/
theorem find?_of_fetched {c c' : Cluster} {a : Address} {v : Value}
    (h : unreliable c (.get a.kind a.ns a.name) (.ok v) c') : c' = c ∧ c.find? a = some v := by
  rcases h with ⟨hreply, hafter⟩ | ⟨f, hreply, -⟩
  · have hget : (c.get a).1 = .ok v := reported_eq_ok.mp hreply.symm
    exact ⟨hafter.trans (get_snd c a), find?_of_get hget⟩
  · cases hreply

/-- A fetch changes nothing, whether it succeeds or not. -/
theorem eq_of_fetching {c c' : Cluster} {kind ns name : Value} {reply : Except Failure Value}
    (h : unreliable c (.get kind ns name) reply c') : c' = c := by
  rcases after_unreliable h with h | h
  · exact h
  · exact h.trans (get_snd c _)

end Cluster

/-! ## Systems -/

/-- A pass on its way: its history, and what is left of it. -/
structure Running where
  history : History
  rest : SafePass Directive

/-- A cluster and all passes that were ever begun on it. -/
structure System where
  cluster : Cluster
  passes : List Running

namespace System

/-- A cluster on which no pass was begun yet. -/
def idle (c : Cluster) : System := ⟨c, []⟩

def histories (s : System) : List History := s.passes.map (·.history)

/-- One step of one part: a pass begins, a pass gets an answer, or others change the cluster. -/
inductive Step (begins : SafePass Directive → Prop) (outside : Cluster → Cluster → Prop) :
    System → System → Prop where
  | begin {s : System} {p : SafePass Directive} :
      begins p → Step begins outside s { s with passes := s.passes ++ [⟨[], p⟩] }
  | exchange {s : System} {i : Nat} {h h' : History} {op : PassOp}
      {next : op.Answer → SafePass Directive} {answer : op.Answer} {c : Cluster} :
      s.passes[i]? = some ⟨h, .ask (S := passSignature) op next⟩ →
      facing unreliable s.cluster op answer c → facing noted h op answer h' →
      Step begins outside s ⟨c, s.passes.set i ⟨h', next answer⟩⟩
  | outside {s : System} {c : Cluster} :
      outside s.cluster c → Step begins outside s { s with cluster := c }

/-- A run from a system, as the systems it went through; the latest comes first. -/
inductive Run (step : System → System → Prop) (first : System) : List System → Prop where
  | start : Run step first [first]
  | next {s s' : System} {past : List System} :
      Run step first (s :: past) → step s s' → Run step first (s' :: s :: past)

/-- What holds at first and is kept by every step holds at every moment. -/
theorem Run.invariant {step : System → System → Prop} {first : System} {inv : System → Prop}
    (hfirst : inv first) (hstep : ∀ s s', inv s → step s s' → inv s') {states : List System}
    (hrun : Run step first states) : ∀ s ∈ states, inv s := by
  induction hrun with
  | start => simpa using hfirst
  | next hrun hnext ih =>
    intro t ht
    rcases List.mem_cons.mp ht with rfl | ht
    · exact hstep _ _ (ih _ List.mem_cons_self) hnext
    · exact ih t ht

theorem Run.mono {step step' : System → System → Prop} {first : System} {states : List System}
    (hrun : Run step first states) (hstep : ∀ s s', step s s' → step' s s') :
    Run step' first states := by
  induction hrun with
  | start => exact .start
  | next _ hnext ih => exact .next ih (hstep _ _ hnext)

/-- Systems that follow each other in a run are one step apart. -/
theorem Run.adjacent {step : System → System → Prop} {first s s' : System}
    {states later earlier : List System} (hrun : Run step first states)
    (hstates : states = later ++ s' :: s :: earlier) : step s s' := by
  -- the induction is on the run, the latest step first
  induction hrun generalizing later with
  | start =>
    have hlength := congrArg List.length hstates
    simp at hlength
    omega
  | @next t t' past _ hnext ih =>
    cases later with
    | nil =>
      obtain ⟨rfl, rfl, -⟩ : t' = s' ∧ t = s ∧ past = earlier := by simpa using hstates
      exact hnext
    | cons u later => exact ih (List.cons.inj hstates).2

/-! ## What a step can do -/

open Cluster

variable {begins : SafePass Directive → Prop} {outside : Cluster → Cluster → Prop}
variable {may : History → StoreCall → Prop} {s s' : System}

/-- Every pass made permitted calls only, and has none other ahead. -/
def Sound (may : History → StoreCall → Prop) (s : System) : Prop :=
  ∀ r ∈ s.passes, Asked may r.history ∧
    SafePass.Ensures noted may (fun _ _ => True) r.rest r.history

/-- Where no pass was begun, none made a call. -/
theorem sound_idle (c : Cluster) : (idle c).Sound may := by
  intro r hr
  simp [idle] at hr

/-- Passes stay sound when those that begin are. -/
theorem Step.sound
    (hbegins : ∀ p, begins p → SafePass.Ensures noted may (fun _ _ => True) p [])
    (h : Step begins outside s s') (hs : s.Sound may) : s'.Sound may := by
  cases h with
  | @begin p hp =>
    intro r hr
    rcases List.mem_append.mp hr with hr | hr
    · exact hs r hr
    · obtain rfl : r = ⟨[], p⟩ := by simpa using hr
      exact ⟨.nil, hbegins p hp⟩
  | exchange hi hanswer hnoted =>
    rcases hs _ (List.mem_of_getElem? hi) with ⟨hasked, hrest⟩
    intro r hr
    -- all passes but the one that was answered are as they were
    rcases List.mem_or_eq_of_mem_set hr with hr | rfl
    · exact hs r hr
    · exact ⟨hasked.step hrest hnoted, hrest.2 _ _ hnoted⟩
  | outside hout => exact hs

/-- Passes ensure as much of their results as they did when they began. -/
theorem Step.ensures {post : History → Directive → Prop}
    (hbegins : ∀ p, begins p → SafePass.Ensures noted may post p []) (h : Step begins outside s s')
    (hs : ∀ r ∈ s.passes, SafePass.Ensures noted may post r.rest r.history) :
    ∀ r ∈ s'.passes, SafePass.Ensures noted may post r.rest r.history := by
  cases h with
  | @begin p hp =>
    intro r hr
    rcases List.mem_append.mp hr with hr | hr
    · exact hs r hr
    · obtain rfl : r = ⟨[], p⟩ := by simpa using hr
      exact hbegins p hp
  | exchange hi hanswer hnoted =>
    intro r hr
    -- only the pass that was answered has moved
    rcases List.mem_or_eq_of_mem_set hr with hr | rfl
    · exact hs r hr
    · exact (hs _ (List.mem_of_getElem? hi)).2 _ _ hnoted
  | outside hout => exact hs

/-- More passes may begin. -/
theorem Step.mono {begins' : SafePass Directive → Prop} (h : Step begins outside s s')
    (hbegins : ∀ p, begins p → begins' p) : Step begins' outside s s' := by
  cases h with
  | begin hp => exact .begin (hbegins _ hp)
  | exchange hi hanswer hnoted => exact .exchange hi hanswer hnoted
  | outside hout => exact .outside hout

/-- What one step does to the cluster and the histories: others change the cluster; or nothing happens
that matters, except that a pass may begin; or one permitted call is answered and noted. -/
theorem Step.change (h : Step begins outside s s') (hs : s.Sound may) :
    (outside s.cluster s'.cluster ∧ s'.passes = s.passes) ∨
    (s'.cluster = s.cluster ∧ ∀ h ∈ s'.histories, h ∈ s.histories ∨ h = []) ∨
    ∃ h ∈ s.histories, ∃ call reply, Asked may h ∧ may h call ∧
      unreliable s.cluster call reply s'.cluster ∧
      ∀ h' ∈ s'.histories, h' ∈ s.histories ∨ h' = h ++ [(call, reply)] := by
  cases h with
  | outside hout => exact .inl ⟨hout, rfl⟩
  | begin hp =>
    refine .inr (.inl ⟨rfl, ?_⟩)
    intro h hh
    simpa [histories] using hh
  | @exchange i h h' op next answer c hi hanswer hnoted =>
    rcases hs _ (List.mem_of_getElem? hi) with ⟨hasked, hrest⟩
    have hmem : h ∈ s.histories := List.mem_map.mpr ⟨_, List.mem_of_getElem? hi, rfl⟩
    -- one history may have become longer, and all others are as they were
    have hset : ∀ g ∈ (System.mk c (s.passes.set i ⟨h', next answer⟩)).histories,
        g ∈ s.histories ∨ g = h' := by
      intro g hg
      rcases List.mem_map.mp hg with ⟨r, hr, rfl⟩
      rcases List.mem_or_eq_of_mem_set hr with hr | rfl
      · exact .inl (List.mem_map.mpr ⟨r, hr, rfl⟩)
      · exact .inr rfl
    -- of the questions of a pass only store calls matter to the cluster and are noted
    cases op with
    | store call =>
      change h' = h ++ [(call, _)] at hnoted
      subst hnoted
      exact .inr (.inr ⟨h, hmem, call, answer, hasked, hrest.1, hanswer, hset⟩)
    | random op =>
      rcases hnoted with ⟨-, rfl⟩
      refine .inr (.inl ⟨hanswer.2, fun g hg => .inl ?_⟩)
      rcases hset g hg with hg | rfl
      · exact hg
      · exact hmem
    | instant | seconds | trace =>
      obtain rfl : h' = h := hnoted
      refine .inr (.inl ⟨hanswer, fun g hg => .inl ?_⟩)
      rcases hset g hg with hg | rfl
      · exact hg
      · exact hmem

/-- What a pass has read was read before, or is stored now. -/
theorem Step.reads {h' : History} {a : Address} {v : Value} (h : Step begins outside s s')
    (hs : s.Sound may) (hh' : h' ∈ s'.histories) (hv : v ∈ h'.reads a) :
    (∃ h ∈ s.histories, v ∈ h.reads a) ∨ s.cluster.find? a = some v := by
  rcases h.change hs with ⟨-, hpasses⟩ | ⟨-, hhist⟩ | ⟨h, hh, call, reply, -, -, hanswer, hhist⟩
  · rw [histories, hpasses] at hh'
    exact .inl ⟨h', hh', hv⟩
  · rcases hhist h' hh' with hmem | rfl
    · exact .inl ⟨h', hmem, hv⟩
    · -- a pass that begins has read nothing
      simp at hv
  · rcases hhist h' hh' with hmem | rfl
    · exact .inl ⟨h', hmem, hv⟩
    · rcases History.mem_reads_append hv with hold | ⟨rfl, rfl⟩
      · exact .inl ⟨h, hh, hold⟩
      · -- what was just answered is what is stored
        exact .inr (find?_of_fetched hanswer).2

end System

end Reconciler
