import Reconciler.Proofs.Ownership.Effects

/-! # Passes overwrite nothing but their own

Passes of all handlers, reactions to changed children and any other writers share one cluster, and take
turns with every call. What a pass sends was made from a copy, and by the time it arrives the object may be
another one. But everything that happens to an object gives it a new version, so a replacement is only
accepted where the object is still the one that was copied; and then it differs from it only in the parts
that are the operator's own.

Main statements:

* `Guarded.step`: whatever a pass holds a copy of, it is the stored object or of an older version;
* `overwrites_own_parts_only`: every write that takes effect is to the parts of one object that are the
  operator's own, and Secrets stay as they are unless others change them.
-/

namespace Reconciler

open Cluster

/-- The store call that a pass is about to make. -/
def Running.calling? : Running → Option StoreCall
  | ⟨_, .ask (.store call) _⟩ => some call
  | _ => none

/-- What a pass is about to call is permitted. -/
theorem Running.may_calling {may : History → StoreCall → Prop} {r : Running} {call : StoreCall}
    (hr : SafePass.Ensures noted may (fun _ _ => True) r.rest r.history)
    (hcall : r.calling? = some call) : may r.history call := by
  unfold calling? at hcall
  split at hcall
  · obtain rfl := Option.some.inj hcall
    exact hr.1
  · cases hcall

/-- A call writes what is the operator's own: it is one of its writes to what is stored at an address, leaves
all other objects alone, and of the object there everything but the parts it sets. -/
def WritesOwn (seen : Address → Value → Prop) (c : Cluster) (call : StoreCall) (c' : Cluster) : Prop :=
  ∃ a parts, call.addressed = .ok a ∧ OwnWrite seen (fun b o => c.find? b = o) a call parts ∧
    (∀ b, b ≠ a → c'.find? b = c.find? b) ∧
    ∀ stored, c.find? a = some stored →
      ∃ after, c'.find? a = some after ∧ ReadsSameBut (versionPart :: parts) stored after

/-- Secrets that are stored are not written. -/
theorem WritesOwn.secret {seen : Address → Value → Prop} {c c' : Cluster} {call : StoreCall}
    (h : WritesOwn seen c call c') {a : Address} (ha : a.kind = .text Kind.secret) {v : Value}
    (hv : c.find? a = some v) : c'.find? a = some v := by
  rcases h with ⟨b, parts, -, hwrite, hothers, -⟩
  have hne : a ≠ b := by
    rintro rfl
    exact hwrite.kind_ne_secret hv ha
  rw [hothers a hne, hv]

/-- An object that was stored at an address at some moment. -/
def StoredIn (states : List System) (a : Address) (v : Value) : Prop :=
  ∃ s ∈ states, s.cluster.find? a = some v

namespace System

/-! ## One step -/

/-- The stored objects are in order, and what passes have read are copies of objects that were stored. -/
structure Guarded (s : System) : Prop where
  sound : s.Sound MayWrite
  tidy : Tidy s.cluster
  copies : ∀ h ∈ s.histories, ∀ a, ∀ copy ∈ h.reads a, Copied a s.cluster copy

section Step

variable {outside : Cluster → Cluster → Prop} {s s' : System} {h : History} {call : StoreCall}
variable {reply : Except Failure Value} {c : Cluster}

/-- Whatever a step does to the cluster, what is new has a new version. -/
theorem Guarded.renews (houtside : ∀ c c', outside c c' → Renews c c') (hs : s.Guarded)
    (hstep : Step OperatorPass outside s s') : Renews s.cluster s'.cluster := by
  rcases hstep.change hs.sound with ⟨hout, -⟩ | ⟨hcluster, -⟩ | ⟨h, -, call, reply, -, -, hanswer, -⟩
  · exact houtside _ _ hout
  · rw [hcluster]
    exact .refl _
  · rcases after_unreliable hanswer with heq | heq
    · rw [heq]
      exact .refl _
    · rw [heq]
      exact renews_perform s.cluster call

/-- One step keeps the copies of passes apart from what is new. -/
theorem Guarded.step (houtside : ∀ c c', outside c c' → Renews c c') (hs : s.Guarded)
    (hstep : Step OperatorPass outside s s') : s'.Guarded := by
  have hrenews := hs.renews houtside hstep
  refine ⟨hstep.sound OperatorPass.writes hs.sound, hrenews.tidy hs.tidy, ?_⟩
  intro h' hh' a copy hcopy
  rcases hstep.reads hs.sound hh' hcopy with ⟨h, hh, hold⟩ | hnow
  · exact (hs.copies h hh a copy hold).renewed hrenews
  · exact (hs.tidy.copied hnow).renewed hrenews

/-- A permitted write that takes effect writes what is the operator's own. -/
theorem Guarded.writesOwn {seen : Address → Value → Prop} (hs : s.Guarded) (hh : h ∈ s.histories)
    (hseen : ∀ a, ∀ v ∈ h.reads a, seen a v) (hmay : MayWrite h call) (hwrites : call.writes = true)
    (hanswer : unreliable s.cluster call reply c) (heffect : (∃ v, reply = .ok v) ∨ c ≠ s.cluster) :
    WritesOwn seen s.cluster call c := by
  obtain ⟨v, hok, hafter⟩ : ∃ v, (s.cluster.perform call).1 = .ok v ∧
      c = (s.cluster.perform call).2 := by
    rcases heffect with ⟨v, rfl⟩ | hchanged
    · -- a success is reported only of a call that succeeded
      rcases hanswer with ⟨hreply, hafter⟩ | ⟨f, hreply, -⟩
      · exact ⟨v, reported_eq_ok.mp hreply.symm, hafter⟩
      · cases hreply
    · rcases after_unreliable hanswer with heq | heq
      · exact absurd heq hchanged
      · rcases perform_of_changed (heq ▸ hchanged) with ⟨-, v, hok⟩
        exact ⟨v, hok, heq⟩
  -- the call succeeded, so it is a write of one of the five kinds, and it stored one object
  rcases OwnWrite.of_mayWrite hmay hseen (hs.copies h hh) hwrites hok with ⟨a, parts, haddr, hwrite⟩
  rcases perform_cases s.cluster hwrites with ⟨f, hrefused⟩ |
    ⟨b, after, operation, -, hb, -, hdone⟩
  · simp [hrefused] at hok
  · obtain rfl : a = b := Except.ok.inj (haddr.symm.trans hb)
    rw [hdone] at hafter
    subst hafter
    refine ⟨a, parts, haddr, hwrite, fun b hb => ?_, fun stored hstored => ⟨after, ?_, ?_⟩⟩
    · simp [find?_withObject, hb]
    · simp [find?_withObject]
    · exact hwrite.keeps haddr (congrArg Prod.fst hdone) hstored

/-- No call of a pass touches a Secret that is stored. -/
theorem Guarded.secret (hs : s.Guarded) (hh : h ∈ s.histories) (hmay : MayWrite h call)
    (hanswer : unreliable s.cluster call reply c) {a : Address} (ha : a.kind = .text Kind.secret)
    {v : Value} (hv : s.cluster.find? a = some v) : c.find? a = some v := by
  by_cases hchanged : c = s.cluster
  · rw [hchanged, hv]
  · rcases after_unreliable hanswer with heq | heq
    · exact absurd heq hchanged
    · have hwrites := (perform_of_changed (heq ▸ hchanged)).1
      have hseen : ∀ a, ∀ v ∈ h.reads a, v ∈ h.reads a := fun _ _ hv => hv
      exact (hs.writesOwn hh hseen hmay hwrites hanswer (.inr hchanged)).secret ha hv

/-- A step leaves a Secret alone if others do. -/
theorem Guarded.secret_step (hs : s.Guarded) (hstep : Step OperatorPass outside s s') {a : Address}
    (ha : a.kind = .text Kind.secret) (hothers : ∀ c c', outside c c' → c'.find? a = c.find? a)
    {v : Value} (hv : s.cluster.find? a = some v) : s'.cluster.find? a = some v := by
  rcases hstep.change hs.sound with ⟨hout, -⟩ | ⟨hcluster, -⟩ |
    ⟨h, hh, call, reply, -, hmay, hanswer, -⟩
  · rw [hothers _ _ hout, hv]
  · rw [hcluster, hv]
  · exact hs.secret hh hmay hanswer ha hv

end Step

/-! ## Runs -/

theorem guarded_idle {c : Cluster} (hc : Tidy c) : (idle c).Guarded :=
  ⟨sound_idle c, hc, by simp [histories, idle]⟩

/-- What a pass has read was stored at some moment of the run. -/
theorem Run.stored_of_read {begins : SafePass Directive → Prop} {outside : Cluster → Cluster → Prop}
    {may : History → StoreCall → Prop} {c : Cluster} {states : List System}
    (hrun : Run (Step begins outside) (idle c) states) (hsound : ∀ s ∈ states, s.Sound may) :
    ∀ s ∈ states, ∀ h ∈ s.histories, ∀ a, ∀ v ∈ h.reads a, StoredIn states a v := by
  induction hrun with
  | start => simp [histories, idle]
  | @next s s' past hrun hstep ih =>
    have hmono : ∀ {a v}, StoredIn (s :: past) a v → StoredIn (s' :: s :: past) a v := by
      rintro a v ⟨t, ht, hv⟩
      exact ⟨t, List.mem_cons_of_mem _ ht, hv⟩
    have hpast := ih fun t ht => hsound t (List.mem_cons_of_mem _ ht)
    intro t ht h hh a v hv
    rcases List.mem_cons.mp ht with rfl | ht
    · rcases hstep.reads (hsound s (by simp)) hh hv with ⟨h, hh, hold⟩ | hnow
      · exact hmono (hpast s (by simp) h hh a v hold)
      · exact ⟨s, by simp, hnow⟩
    · exact hmono (hpast t ht h hh a v hv)

/-- What every step of a run keeps holds from the moment on at which it first does. -/
theorem Run.kept {step : System → System → Prop} {first : System} {states : List System}
    {P : System → Prop} (hrun : Run step first states)
    (hstep : ∀ s ∈ states, ∀ s', step s s' → P s → P s') {later earlier : List System} {s : System}
    (hstates : states = later ++ s :: earlier) (hs : P s) : ∀ t ∈ later, P t := by
  induction hrun generalizing later with
  | start =>
    have hnil : later = [] := by
      cases later with
      | nil => rfl
      | cons t later => simp at hstates
    simp [hnil]
  | @next s₀ s' past hrun hnext ih =>
    cases later with
    | nil => simp
    | cons t later =>
      rcases List.cons.inj hstates with ⟨rfl, hrest⟩
      have hlater := ih (fun s hs => hstep s (List.mem_cons_of_mem _ hs)) hrest
      -- the step to the latest system starts at the moment itself or later
      have hbefore : P s₀ := by
        cases later with
        | nil =>
          rcases List.cons.inj hrest with ⟨rfl, -⟩
          exact hs
        | cons u later =>
          rcases List.cons.inj hrest with ⟨rfl, -⟩
          exact hlater _ (by simp)
      intro u hu
      rcases List.mem_cons.mp hu with rfl | hu
      · exact hstep s₀ (by simp) _ hnext hbefore
      · exact hlater u hu

end System

/-- Whatever passes and reactions of the operator run at the same time, and whatever others do in between
as long as everything new gets a new version: a write that takes effect, whether it is reported or not, is
one of the five kinds and changes nothing but the operator's own parts of one object. No stored Secret is
touched; so one that others leave alone stays as it is from the moment it is stored. -/
theorem overwrites_own_parts_only {c : Cluster} {outside : Cluster → Cluster → Prop}
    {states : List System} (hstart : Tidy c) (houtside : ∀ c c', outside c c' → Renews c c')
    (hrun : System.Run (System.Step OperatorPass outside) (System.idle c) states) :
    (∀ s ∈ states, ∀ r ∈ s.passes, ∀ call, r.calling? = some call →
      ∀ reply c', unreliable s.cluster call reply c' →
        (call.writes = true → (∃ v, reply = .ok v) ∨ c' ≠ s.cluster →
          WritesOwn (StoredIn states) s.cluster call c') ∧
        ∀ a, a.kind = .text Kind.secret → ∀ v, s.cluster.find? a = some v → c'.find? a = some v) ∧
    (∀ a, a.kind = .text Kind.secret → (∀ c c', outside c c' → c'.find? a = c.find? a) →
      ∀ later s earlier, states = later ++ s :: earlier → ∀ v, s.cluster.find? a = some v →
        ∀ t ∈ later, t.cluster.find? a = some v) := by
  have hguarded : ∀ s ∈ states, s.Guarded :=
    hrun.invariant (System.guarded_idle hstart) fun s s' hs hstep => hs.step houtside hstep
  constructor
  · intro s hmem r hr call hcall reply c' hanswer
    have hs := hguarded s hmem
    have hmay := Running.may_calling (hs.sound r hr).2 hcall
    have hh : r.history ∈ s.histories := List.mem_map.mpr ⟨r, hr, rfl⟩
    -- what a pass read was stored at some moment, though it may have been replaced since
    have hseen := hrun.stored_of_read (fun t ht => (hguarded t ht).sound) s hmem r.history hh
    refine ⟨fun hwrites heffect => hs.writesOwn hh hseen hmay hwrites hanswer heffect, ?_⟩
    intro a ha v hv
    exact hs.secret hh hmay hanswer ha hv
  · intro a ha hothers later s earlier hstates v hv
    refine hrun.kept (P := fun t => t.cluster.find? a = some v) ?_ hstates hv
    intro t ht t' hstep hbefore
    exact (hguarded t ht).secret_step hstep ha hothers hbefore

/-! ### An edit in between -/

def sampleChild (kind : String) (fields : Fields) : Value :=
  .object (("kind", .text kind) ::
    ("metadata", .object [("name", .text "pg"), ("namespace", .text "default")]) :: fields)

/-- A database that is to be reachable from outside, and has all its children, but an endpoint that is
not. -/
def unexposedCluster : Cluster :=
  [Convergence.sampleParent .database "pg" [("serviceType", .text "NodePort")],
    sampleChild Kind.claim [], sampleChild Kind.secret [], sampleChild Kind.deployment [],
    sampleChild Kind.service [("spec", .object [("type", .text "ClusterIP")])]].foldl
    (fun c object => (c.put object).2) .empty

/-- A cluster is tidy when its objects are, which is decided for a given one. -/
theorem tidy_of_objects {c : Cluster}
    (h : ∀ entry ∈ c.objects, addressOf entry.2 = .ok entry.1 ∧
      ∃ n ≤ c.version, versionOf entry.2 = some (.text (toString n))) : Tidy c := by
  refine ⟨Provisioning.consistent_of_objects fun entry hentry => (h entry hentry).1, ?_⟩
  intro a v hv
  exact (h (a, v) (mem_objects_of_find? hv)).2

def unexposedEndpoint : Address := ⟨.text Kind.service, .text "default", .text "pg"⟩

def annotateEndpoint (c : Cluster) : Cluster :=
  (c.perform (.annotate unexposedEndpoint.kind unexposedEndpoint.ns unexposedEndpoint.name
    (.object [("team", .text "storage")]))).2

/-- A pass is about to correct the endpoint when it is annotated, so its update is refused; then another pass
is about to correct it. -/
def annotatedMoves : List System.Move :=
  let pass := Convergence.samplePass .database "pg"
  .begin pass :: List.replicate 10 (.turn 0) ++ .outside annotateEndpoint ::
    List.replicate 10 (.turn 0) ++ .begin pass :: List.replicate 10 (.turn 1)

/-- The moves of the sample are passes of the operator and edits of others. -/
theorem annotatedMoves_allowed : ∀ move ∈ annotatedMoves, move.Allowed OperatorPass Renews := by
  have hhandler : Family.database.handler {} ∈ handlers {} := by simp [handlers, Family.handler]
  have hpass : OperatorPass (Convergence.samplePass .database "pg") := .handler _ hhandler
  have hturns : ∀ n i, ∀ move ∈ List.replicate n (System.Move.turn i),
      move.Allowed OperatorPass Renews := by
    intro n i move hmove
    rcases List.mem_replicate.mp hmove with ⟨-, rfl⟩
    trivial
  simp only [annotatedMoves, List.forall_mem_append, List.forall_mem_cons]
  exact ⟨⟨⟨hpass, hturns _ _⟩, fun c => renews_perform c _, hturns _ _⟩, hpass, hturns _ _⟩

/-- The last moment of the run, and what the second pass is about to call. -/
def annotatedUpdate : Option (System × Running × StoreCall) := do
  let s ← ((System.idle unexposedCluster).played [] annotatedMoves).head?
  let r ← s.passes[1]?
  let call ← r.calling?
  return (s, r, call)

/-- The update of the second pass, made from a copy with the annotation, is accepted. -/
theorem annotated_endpoint_overwritten :
    ∃ states s r call, System.Run (System.Step OperatorPass Renews) (System.idle unexposedCluster) states ∧
      s ∈ states ∧ r ∈ s.passes ∧ r.calling? = some call ∧ call.operation = "update" ∧
      s.cluster.journal = [⟨"annotate", unexposedEndpoint⟩] ∧
      WritesOwn (StoredIn states) s.cluster call (s.cluster.perform call).2 := by
  -- the run is played out up to the second update
  have hfound : annotatedUpdate.map (fun (s, _, call) => (call.operation, call.writes,
      s.cluster.journal, (s.cluster.perform call).1.toOption.isSome)) =
      some ("update", true, [⟨"annotate", unexposedEndpoint⟩], true) := by
    decide +kernel
  have hstart : Tidy unexposedCluster := tidy_of_objects (by decide +kernel)
  have hrun := System.run_of_moves annotatedMoves_allowed (System.idle unexposedCluster)
  rcases Option.map_eq_some_iff.mp hfound with ⟨⟨_, _, _⟩, hupdate, hfound⟩
  simp only [Prod.mk.injEq] at hfound
  rcases hfound with ⟨hoperation, hwrites, hjournal, hok⟩
  simp only [annotatedUpdate, Option.bind_eq_bind, Option.bind_eq_some_iff, Option.pure_def,
    Option.some.injEq, Prod.mk.injEq] at hupdate
  rcases hupdate with ⟨s, hs, r, hr, call, hcall, rfl, rfl, rfl⟩
  rcases Option.isSome_iff_exists.mp hok with ⟨v, hv⟩
  have hreported := reported_eq_ok.mpr (toOption_eq_some.mp hv)
  have hs' := List.mem_of_head? hs
  have hr' := List.mem_of_getElem? hr
  have hown := (overwrites_own_parts_only hstart (fun _ _ h => h) hrun).1 s hs' r hr' call hcall _ _
    (.inl ⟨rfl, rfl⟩)
  exact ⟨_, s, r, call, hrun, hs', hr', hcall, hoperation, hjournal,
    hown.1 hwrites (.inl ⟨v, hreported⟩)⟩

end Reconciler
