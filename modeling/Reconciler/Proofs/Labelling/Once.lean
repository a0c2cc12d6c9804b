import Reconciler.Proofs.Labelling.Passes
import Reconciler.Proofs.Ownership.Interference

/-! # A provisioner is labelled once

That a provisioner gets its labels once is decided by each pass on the copy that it read, and held by the
store, which only accepts a write made from the version that is stored. So passes may get in each other's way,
and calls may fail in any way: the write that is accepted is made from a provisioner without a `type` label,
and the next one would have to be too.

Main definitions and statements:

* `System.Wrote`, `System.Untouched`: a step in which a write of the operator takes effect, and stretches of a
  run without any;
* `Edits`: what others may do;
* `Watched`: what is known of a system at every moment of a run;
* `Watched.wrote`: a write of the operator labels the provisioner;
* `LabelledOnce`, `provisioner_labelled_once`: what this comes to for a run.
-/

namespace Reconciler

open Cluster

/-! ## Writes of the operator -/

namespace System

/-- A pass was answered, and the cluster changed: a write of the operator took effect. -/
def Wrote (s s' : System) : Prop :=
  s'.passes ≠ s.passes ∧ s'.cluster ≠ s.cluster

/-- No write of the operator takes effect in a stretch of a run. -/
def Untouched (states : List System) : Prop :=
  ∀ later s' s earlier, states = later ++ s' :: s :: earlier → ¬ Wrote s s'

section Step

variable {begins : SafePass Directive → Prop} {outside : Cluster → Cluster → Prop}
variable {may : History → StoreCall → Prop} {s s' : System}

/-- When the cluster changes, it is the operator that wrote, or others that changed it. -/
theorem Step.wrote_or_outside (h : Step begins outside s s') (hchanged : s'.cluster ≠ s.cluster) :
    Wrote s s' ∨ ¬ Wrote s s' ∧ outside s.cluster s'.cluster := by
  cases h with
  | begin hp => exact absurd rfl hchanged
  | outside hout => exact .inr ⟨fun hwrote => hwrote.1 rfl, hout⟩
  | @exchange i h h' op next answer c hi hanswer hnoted =>
    have hkept : ∀ r : Running, s.passes.set i r = s.passes → r.history = h := by
      intro r hr
      have hget := List.getElem?_set_self (a := r) (List.getElem?_eq_some_iff.mp hi).1
      rw [hr, hi, Option.some.injEq] at hget
      exact congrArg Running.history hget.symm
    refine .inl ⟨fun hsame => ?_, hchanged⟩
    -- only a store call may change the cluster, and it is noted
    cases op with
    | store call =>
      change h' = h ++ [(call, _)] at hnoted
      have hlength := congrArg List.length ((hkept _ hsame).symm.trans hnoted)
      simp at hlength
    | random op => exact hchanged hanswer.2
    | instant | seconds | trace => exact hchanged hanswer

/-- A write of the operator is a permitted call of some pass that the store accepted. -/
theorem Step.of_wrote (h : Step begins outside s s') (hs : s.Sound may) (hwrote : Wrote s s') :
    ∃ h ∈ s.histories, ∃ call v, may h call ∧ call.writes = true ∧
      (s.cluster.perform call).1 = .ok v ∧ s'.cluster = (s.cluster.perform call).2 := by
  rcases h.change hs with ⟨-, hpasses⟩ | ⟨hsame, -⟩ | ⟨h, hh, call, reply, -, hmay, hanswer, -⟩
  · exact absurd hpasses hwrote.1
  · exact absurd hsame hwrote.2
  · rcases after_unreliable hanswer with hsame | hafter
    · exact absurd hsame hwrote.2
    · rcases perform_of_changed (hafter ▸ hwrote.2) with ⟨hwrites, v, hok⟩
      exact ⟨h, hh, call, v, hmay, hwrites, hok, hafter⟩

end Step

end System

namespace Labelling

/-! ## What others do -/

/-- What others do in between: everything new gets a new version, the labels of the provisioner stay an object,
and nobody removes its `type` label. -/
structure Edits (id : Identity) (c c' : Cluster) : Prop where
  renews : Renews c c'
  maps : (∀ v, c.find? (provisionerAt id) = some v → LabelMap v) →
    ∀ v, c'.find? (provisionerAt id) = some v → LabelMap v
  keeps : LabelledIn id c → LabelledIn id c'

def PassOver (id : Identity) (p : SafePass Directive) : Prop :=
  ∃ settings, p = handler.reconcile settings id

/-- Every pass over a provisioner is one of the operator. -/
theorem PassOver.operator {id : Identity} (p : SafePass Directive) (h : PassOver id p) :
    OperatorPass p := by
  rcases h with ⟨settings, rfl⟩
  have hhandler : handler ∈ handlers settings := by simp [handlers]
  exact .handler id hhandler

/-! ## One step -/

/-- What is known of a system at every moment. -/
structure Watched (id : Identity) (s : System) : Prop where
  guarded : s.Guarded
  sound : s.Sound (MayLabel id)
  ends : ∀ r ∈ s.passes, SafePass.Ensures noted (MayLabel id) (Ends id) r.rest r.history
  maps : ∀ v, s.cluster.find? (provisionerAt id) = some v → LabelMap v

section Step

variable {id : Identity} {s s' : System}

/-- A write of the operator gives the stored provisioner its labels. -/
theorem Watched.wrote (hs : Watched id s) (hstep : System.Step (PassOver id) (Edits id) s s')
    (hwrote : System.Wrote s s') : GetsLabels id s.cluster s'.cluster := by
  rcases hstep.of_wrote hs.sound hwrote with ⟨h, hh, call, v, hmay, hwrites, hok, hafter⟩
  cases hmay with
  | read => cases hwrites
  | @label copy labeled d hlabelled hdescribes hlabels hsame =>
    have hcopied := hs.guarded.copies _ hh (provisionerAt id) copy (by simp)
    rw [hafter]
    exact getsLabels_of_accepted hcopied hlabelled hdescribes hlabels hsame hok

/-- A step of the system keeps what is known of it. The labels stay readable because a pass writes them from a
descriptor, and others leave them so. -/
theorem Watched.step (hs : Watched id s) (hstep : System.Step (PassOver id) (Edits id) s s') :
    Watched id s' := by
  have hbegins : ∀ p, PassOver id p → SafePass.Ensures noted (MayLabel id) (Ends id) p [] := by
    rintro p ⟨settings, rfl⟩
    exact reconcile_labels settings id
  refine ⟨?_, ?_, hstep.ensures hbegins hs.ends, ?_⟩
  · exact hs.guarded.step (fun _ _ hedits => hedits.renews) (hstep.mono PassOver.operator)
  · exact hstep.sound (fun p hp => (hbegins p hp).mono (fun _ _ h => h) fun _ _ _ => trivial) hs.sound
  · -- the labels change by a write of a pass or by an edit, and either leaves them readable
    by_cases hchanged : s'.cluster = s.cluster
    · rw [hchanged]
      exact hs.maps
    · rcases hstep.wrote_or_outside hchanged with hwrote | ⟨-, hedits⟩
      · rcases (hs.wrote hstep hwrote).labelledIn with ⟨after, hafter, hlabelled⟩
        intro v hv
        obtain rfl : after = v := Option.some.inj (hafter.symm.trans hv)
        exact hlabelled.map
      · exact hedits.maps hs.maps

/-- A `type` label stays, and while it is there the operator writes nothing. -/
theorem Watched.labelled_step (hs : Watched id s)
    (hstep : System.Step (PassOver id) (Edits id) s s') (hlabelled : LabelledIn id s.cluster) :
    ¬ System.Wrote s s' ∧ LabelledIn id s'.cluster := by
  have hnot : ¬ System.Wrote s s' := fun hwrote =>
    (hs.wrote hstep hwrote).not_labelledIn hlabelled
  refine ⟨hnot, ?_⟩
  by_cases hchanged : s'.cluster = s.cluster
  · rwa [hchanged]
  · rcases hstep.wrote_or_outside hchanged with hwrote | ⟨-, hedits⟩
    · exact absurd hwrote hnot
    · exact hedits.keeps hlabelled

end Step

/-! ## Writes that come too late -/

/-- A version of the provisioner was read by some pass by a moment at which it was not the stored one any more. -/
def Outdated (id : Identity) (copy : Value) (states : List System) : Prop :=
  ∃ s ∈ states, (∃ h ∈ s.histories, copy ∈ h.reads (provisionerAt id)) ∧
    s.cluster.find? (provisionerAt id) ≠ some copy

section Late

variable {id : Identity} {s s' : System} {copy : Value}

/-- A version that is not stored any more does not come back. -/
theorem not_stored_renews {c c' : Cluster} {a : Address} (hcopied : Copied a c copy)
    (hrenews : Renews c c') (h : c.find? a ≠ some copy) : c'.find? a ≠ some copy := by
  intro hstored
  rcases hrenews.objects a copy hstored with hold | ⟨n, hlt, -, hversion⟩
  · exact h hold
  · exact absurd hversion (hcopied.versioned.ne_of_lt hlt)

/-- The write of a pass whose copy is not stored any more is refused, as a conflict if there is anything
stored. -/
theorem Watched.too_late (hs : Watched id s) (hnameable : (provisionerAt id).nameable = true)
    {r : Running} (hr : r ∈ s.passes) {call : StoreCall} (hcall : r.calling? = some call)
    (hwrites : call.writes = true) (hread : copy ∈ r.history.reads (provisionerAt id))
    (hother : s.cluster.find? (provisionerAt id) ≠ some copy) :
    ∃ f, s.cluster.perform call = (.error f, s.cluster) ∧
      ((s.cluster.find? (provisionerAt id)).isSome = true → f.belongsTo .conflict = true) := by
  have hmay := Running.may_calling (hs.sound r hr).2 hcall
  have hcopied := hs.guarded.copies _ (List.mem_map.mpr ⟨r, hr, rfl⟩) _ copy hread
  rcases r with ⟨h, rest⟩
  cases hmay with
  | read => cases hwrites
  | @label stored labeled d _ _ _ hsame =>
    obtain rfl : copy = stored := by simpa using hread
    -- the write is refused whether the provisioner is gone or has another version by now
    cases hcurrent : s.cluster.find? (provisionerAt id) with
    | none =>
      rcases perform_cases s.cluster hwrites with ⟨f, hrefused⟩ | ⟨_, v, _, -, -, -, hdone⟩
      · exact ⟨f, hrefused, nofun⟩
      · have haccepted := hcopied.of_accepted hsame (by decide) (.inl rfl) (congrArg Prod.fst hdone)
        exact absurd haccepted.2 hother
    | some current =>
      have haddr : addressOf labeled = .ok (provisionerAt id) :=
        hsame.addressOf (by decide) hcopied.address
      rcases hcopied.versioned with ⟨m, -, hm⟩
      rcases hs.guarded.tidy.versioned _ _ hcurrent with ⟨n, -, hn⟩
      have hsent : versionOf labeled = some (.text (toString m)) := by
        rw [hsame.versionOf (by decide), hm]
      have hne : toString m ≠ toString n := by
        -- no version is given twice, so an equal version would be an equal object
        intro heq
        have hsameVersion : versionOf current = versionOf copy := by rw [hn, hm, heq]
        rw [hcopied.current current hcurrent hsameVersion] at hcurrent
        exact hother hcurrent
      rcases update_of_other hnameable haddr hcurrent hn hsent hne with ⟨message, hrefused⟩
      exact ⟨_, hrefused, fun _ => rfl⟩

end Late

/-! ## Any run -/

/-- A provisioner is labelled once in a run, from its descriptor, and then left alone. -/
structure LabelledOnce (id : Identity) (states : List System) : Prop where
  /-- A write of the operator gives the provisioner its labels, and there is no other. -/
  write : ∀ later s' s earlier, states = later ++ s' :: s :: earlier → System.Wrote s s' →
    GetsLabels id s.cluster s'.cluster ∧ System.Untouched (later ++ [s']) ∧
      System.Untouched (s :: earlier)
  /-- A pass that nothing gets in the way of makes that write, if there is a descriptor and no `type` label. -/
  labels : ∀ s ∈ states, ∀ stored d, s.cluster.find? (provisionerAt id) = some stored →
    ¬ Labelled stored → Describes stored d → ∀ settings,
      (∃ told c', Undisturbed settings id s.cluster told c') ∧
      ∀ told c', Undisturbed settings id s.cluster told c' →
        told = .done ∧ GetsLabels id s.cluster c'
  /-- When there is a `type` label, wherever it comes from, nothing is written any more. -/
  left : ∀ later s earlier, states = later ++ s :: earlier → LabelledIn id s.cluster →
    System.Untouched (later ++ [s]) ∧ ∀ t ∈ later, LabelledIn id t.cluster
  /-- Without a `type` label and without a descriptor in the grammar nothing is written, and every pass that
  reads the provisioner fails. -/
  barren : (∀ s ∈ states, ∀ v, s.cluster.find? (provisionerAt id) = some v →
      ¬ Labelled v ∧ ∀ d, ¬ Describes v d) →
    System.Untouched states ∧ ∀ s ∈ states, ∀ r ∈ s.passes, ∀ d, r.rest = .done d →
      r.history.reads (provisionerAt id) ≠ [] → ∃ f, d = .failed (some f)
  /-- A write made from a version that is not stored any more has no effect. If it does not fail otherwise, it
  is a conflict. -/
  late : ∀ later s earlier, states = later ++ s :: earlier → ∀ r ∈ s.passes, ∀ call,
    r.calling? = some call → call.writes = true → ∀ copy ∈ r.history.reads (provisionerAt id),
    Outdated id copy (s :: earlier) → ∀ reply c', unreliable s.cluster call reply c' →
      c' = s.cluster ∧ ∃ f, reply = .error f ∧
        (reply = s.cluster.reported call →
          (s.cluster.find? (provisionerAt id)).isSome = true → f.belongsTo .conflict = true)
  /-- A pass that is told of a conflict is made again right away. -/
  conflict : ∀ s ∈ states, ∀ r ∈ s.passes, ∀ d, r.rest = .done d → ∀ call f,
    (call, .error f) ∈ r.history → call.writes = true → f.belongsTo .conflict = true →
      d = .requeueNow

section Run

variable {id : Identity} {c : Cluster} {states later earlier : List System} {s s' : System}

/-- A run over a provisioner, with others at work. -/
abbrev RunOver (id : Identity) (c : Cluster) (states : List System) : Prop :=
  System.Run (System.Step (PassOver id) (Edits id)) (System.idle c) states

/-- All that is known of a system at every moment holds along a whole run, when it holds of the cluster it
starts from. -/
theorem watched_run (hstart : Tidy c)
    (hmaps : ∀ v, c.find? (provisionerAt id) = some v → LabelMap v) (hrun : RunOver id c states) :
    ∀ s ∈ states, Watched id s := by
  have hidle : Watched id (System.idle c) :=
    ⟨System.guarded_idle hstart, System.sound_idle c, by simp [System.idle], hmaps⟩
  exact hrun.invariant hidle fun s s' hs hstep => hs.step hstep

/-- From the moment on at which there is a `type` label, it stays and nothing is written. -/
theorem left_alone (hrun : RunOver id c states) (hwatched : ∀ s ∈ states, Watched id s)
    (hstates : states = later ++ s :: earlier) (hlabelled : LabelledIn id s.cluster) :
    System.Untouched (later ++ [s]) ∧ ∀ t ∈ later, LabelledIn id t.cluster := by
  have hstays : ∀ t ∈ later, LabelledIn id t.cluster :=
    hrun.kept (P := fun t => LabelledIn id t.cluster)
      (fun t ht _ hstep hold => ((hwatched t ht).labelled_step hstep hold).2) hstates hlabelled
  refine ⟨?_, hstays⟩
  intro l t' t r hpart
  -- a step of the part is a step of the run, so the step lemma applies to it
  have hwhole : states = l ++ t' :: t :: (r ++ earlier) := by
    rw [hstates, List.append_cons, hpart]
    simp
  have ht : t ∈ later ++ [s] := by simp [hpart]
  have htLabelled : LabelledIn id t.cluster := by
    rcases List.mem_append.mp ht with ht | ht
    · exact hstays t ht
    · rwa [List.mem_singleton.mp ht]
  have hmem : t ∈ states := by simp [hwhole]
  exact ((hwatched t hmem).labelled_step (hrun.adjacent hwhole) htLabelled).1

/-- Before a write there was none. -/
theorem untouched_before (hrun : RunOver id c states) (hwatched : ∀ s ∈ states, Watched id s)
    (hstates : states = later ++ s' :: s :: earlier) (hwrote : System.Wrote s s') :
    System.Untouched (s :: earlier) := by
  have hs := hwatched s (by simp [hstates])
  have hunlabelled := (hs.wrote (hrun.adjacent hstates) hwrote).not_labelledIn
  intro l t' t r hpart hwrote'
  -- a write before would have left its label
  have hwhole : states = (later ++ s' :: l) ++ t' :: t :: r := by simp [hstates, hpart]
  have ht := hwatched t (by simp [hwhole])
  have hlabelled := (ht.wrote (hrun.adjacent hwhole) hwrote').labelledIn
  have hstays := (left_alone hrun hwatched hwhole hlabelled).2
  cases l with
  | nil =>
    obtain rfl : s = t' := (List.cons.inj hpart).1
    exact hunlabelled hlabelled
  | cons u l =>
    obtain rfl : s = u := (List.cons.inj hpart).1
    exact hunlabelled (hstays s (by simp))

/-- What a finished pass came to. -/
theorem Watched.ends_of_done (hs : Watched id s) {r : Running} (hr : r ∈ s.passes) {d : Directive}
    (hdone : r.rest = .done d) : Ends id r.history d := by
  have hends := hs.ends r hr
  rw [hdone] at hends
  exact hends

/-- A version that was outdated at some moment still is. -/
theorem Outdated.not_stored (hrun : RunOver id c states) (hwatched : ∀ s ∈ states, Watched id s)
    (hstates : states = later ++ s :: earlier) {copy : Value}
    (h : Outdated id copy (s :: earlier)) : s.cluster.find? (provisionerAt id) ≠ some copy := by
  rcases h with ⟨u, hu, ⟨h, hh, hread⟩, hother⟩
  rcases List.mem_cons.mp hu with rfl | hu
  · exact hother
  · rcases List.append_of_mem hu with ⟨between, before, rfl⟩
    have hwhole : states = (later ++ s :: between) ++ u :: before := by simp [hstates]
    have hcopied := (hwatched u (by simp [hwhole])).guarded.copies h hh _ copy hread
    -- what goes on is that versions only get younger
    have hkept := hrun.kept (P := fun t => Copied (provisionerAt id) t.cluster copy ∧
      t.cluster.find? (provisionerAt id) ≠ some copy) (fun t ht t' hstep hold => ?_) hwhole
      ⟨hcopied, hother⟩
    · exact (hkept s (by simp)).2
    · have hrenews := (hwatched t ht).guarded.renews (fun _ _ hedits => hedits.renews)
        (hstep.mono PassOver.operator)
      exact ⟨hold.1.renewed hrenews, not_stored_renews hold.1 hrenews hold.2⟩

/-- However passes over a provisioner get in each other's way, whatever calls fail, with or without having taken
effect, and whatever others do to the provisioner, as long as they do not remove its `type` label: at most one
write of the operator takes effect. It is made to a provisioner without a `type` label, sets the six labels of
the descriptor that is stored with it at that moment, and keeps everything else. -/
theorem provisioner_labelled_once (hstart : Tidy c)
    (hmaps : ∀ v, c.find? (provisionerAt id) = some v → LabelMap v)
    (hnameable : (provisionerAt id).nameable = true) (hrun : RunOver id c states) :
    LabelledOnce id states := by
  have hwatched := watched_run hstart hmaps hrun
  constructor
  case write =>
    intro later s' s earlier hstates hwrote
    -- after the write the label stands, and before it there was none to leave alone
    have hgets := (hwatched s (by simp [hstates])).wrote (hrun.adjacent hstates) hwrote
    exact ⟨hgets, (left_alone hrun hwatched hstates hgets.labelledIn).1,
      untouched_before hrun hwatched hstates hwrote⟩
  case labels =>
    intro s hs stored d hstored hlabelled hdescribes settings
    -- the pass of this moment runs alone, so the cluster it reads is the one it writes to
    refine ⟨exists_undisturbed settings id s.cluster, fun told c' hrun => ?_⟩
    have hcomes := converge_comes hnameable (hwatched s hs).guarded.tidy hstored
      ((hwatched s hs).maps stored hstored) hlabelled hdescribes
    exact (Comes.reconcile (h := handler) settings hcomes).of_leads hrun
  case left =>
    intro later s earlier hstates hlabelled
    exact left_alone hrun hwatched hstates hlabelled
  case barren =>
    intro hbarren
    constructor
    · intro later s' s earlier hstates hwrote
      have hmem : s ∈ states := by simp [hstates]
      rcases (hwatched s hmem).wrote (hrun.adjacent hstates) hwrote with
        ⟨stored, _, d, hstored, -, hdescribes, -⟩
      exact (hbarren s hmem stored hstored).2 d hdescribes
    · intro s hs r hr d hdone hread
      refine ((hwatched s hs).ends_of_done hr hdone).barren hread ?_
      intro v hv
      -- what a pass read was stored at some moment
      have hh : r.history ∈ s.histories := List.mem_map.mpr ⟨r, hr, rfl⟩
      rcases hrun.stored_of_read (fun t ht => (hwatched t ht).sound) s hs r.history hh _ v hv with
        ⟨t, ht, hstored⟩
      exact ⟨(hwatched t ht).maps v hstored, hbarren t ht v hstored⟩
  case late =>
    intro later s earlier hstates r hr call hcall hwrites copy hread houtdated reply c' hanswer
    -- what was outdated once is never stored again
    have hother := houtdated.not_stored hrun hwatched hstates
    rcases (hwatched s (by simp [hstates])).too_late hnameable hr hcall hwrites hread hother with
      ⟨f, hrefused, hconflict⟩
    have hreported : s.cluster.reported call = .error ⟨f, none⟩ := by
      rw [reported, hrefused]
      rfl
    constructor
    · rcases after_unreliable hanswer with hsame | hafter
      · exact hsame
      · rw [hafter, hrefused]
    · rcases hanswer with ⟨hreply, -⟩ | ⟨g, hreply, -⟩
      · rw [hreported] at hreply
        exact ⟨_, hreply, fun _ hstored => hconflict hstored⟩
      · refine ⟨g, hreply, fun hreply' hstored => ?_⟩
        rw [hreported, hreply] at hreply'
        rw [Except.error.inj hreply']
        exact hconflict hstored
  case conflict =>
    intro s hs r hr d hdone call f hmem hwrites hf
    exact ((hwatched s hs).ends_of_done hr hdone).conflict hmem hwrites hf

end Run

/-! ### A descriptor that is edited -/

/-- An edit that gives new versions and leaves the labels of the provisioner as they are is one that others
may make. -/
theorem edits_of_labels {id : Identity} {c c' : Cluster} (hrenews : Renews c c')
    (hlabels : (c'.find? (provisionerAt id)).map (·.part? ["metadata", "labels"]) =
      (c.find? (provisionerAt id)).map (·.part? ["metadata", "labels"])) : Edits id c c' := by
  constructor
  case renews => exact hrenews
  case maps =>
    intro hmaps v hv
    rw [hv, Option.map_some, eq_comm, Option.map_eq_some_iff] at hlabels
    rcases hlabels with ⟨w, hw, hsame⟩
    have hmap := hmaps w hw
    rwa [LabelMap, hsame] at hmap
  case keeps =>
    rintro ⟨w, hw, hlabelled⟩
    rw [hw, Option.map_some, Option.map_eq_some_iff] at hlabels
    rcases hlabels with ⟨v, hv, hsame⟩
    rw [Labelled, labelPath_eq, Value.part?_append, ← hsame, ← Value.part?_append] at hlabelled
    exact ⟨v, hv, hlabelled⟩

/-- Somebody replaces the spec of a provisioner. -/
def respecify (id : Identity) (descriptor : String) (c : Cluster) : Cluster :=
  match c.find? (provisionerAt id) with
  | none => c
  | some stored =>
    match stored.setField "spec" (.object [("typeKindSpecific", .text descriptor)]) with
    | .ok changed => (c.perform (.update changed)).2
    | .error _ => c

/-- Replacing the spec of a provisioner is an edit that others may make. -/
theorem edits_respecify (id : Identity) (descriptor : String) (c : Cluster) :
    Edits id c (respecify id descriptor c) := by
  unfold respecify
  split
  · exact edits_of_labels (.refl c) rfl
  · next stored hstored =>
    split
    · next changed hset =>
      refine edits_of_labels (renews_perform c _) ?_
      rcases update_cases c changed with ⟨f, hrefused⟩ |
        ⟨a, current, status, base, replaced, -, hcurrent, -, hbase, hreplaced, hdone⟩
      · rw [perform, hrefused]
      · rw [perform, hdone, find?_recorded, find?_withObject, find?_bumped]
        split
        · -- neither the new spec nor the version the server gives is under the labels
          have hlabels : replaced.part? ["metadata", "labels"] = stored.part? ["metadata", "labels"] := by
            rw [sameBut_withVersion hreplaced _ (by decide), SameBut.set hbase _ (by decide),
              SameBut.set hset _ (by decide)]
          rw [hstored, Option.map_some, Option.map_some, hlabels]
        · rfl
    · exact edits_of_labels (.refl c) rfl

def postgresId : Identity := ⟨.text "default", .text "postgres"⟩

/-- A cluster with a provisioner that has a label of its own. -/
def unlabelledCluster : Cluster :=
  (Cluster.empty.put (.object [("kind", .text Kind.provisioner),
    ("metadata", .object [("name", .text "postgres"), ("labels", .object [("team", .text "data")])]),
    ("spec", .object [("typeKindSpecific", .text "<Database<SQL<acme:pg:ha:14>>>")])])).2

/-- The descriptor is edited when a pass has read it, so its write is refused; and again when another pass has
made its own. Then a third pass comes. -/
def respecifiedMoves : List System.Move :=
  let pass := handler.reconcile {} postgresId
  .begin pass :: List.replicate 3 (.turn 0) ++
    .outside (respecify postgresId "<Database<SQL<acme:pg:ha:15>>>") :: List.replicate 10 (.turn 0) ++
    .begin pass :: List.replicate 20 (.turn 1) ++
    .outside (respecify postgresId "<Cache<KV<acme:redis:single:7>>>") ::
    .begin pass :: List.replicate 20 (.turn 2)

def respecifiedStates : List System :=
  (System.idle unlabelledCluster).played [] respecifiedMoves

/-- The sample run is made of passes over the provisioner and of edits that others may make. -/
theorem respecifiedMoves_allowed :
    ∀ move ∈ respecifiedMoves, move.Allowed (PassOver postgresId) (Edits postgresId) := by
  have hpass : PassOver postgresId (handler.reconcile {} postgresId) := ⟨{}, rfl⟩
  have hturns : ∀ n i, ∀ move ∈ List.replicate n (System.Move.turn i),
      move.Allowed (PassOver postgresId) (Edits postgresId) := by
    intro n i move hmove
    rcases List.mem_replicate.mp hmove with ⟨-, rfl⟩
    trivial
  simp only [respecifiedMoves, List.forall_mem_append, List.forall_mem_cons]
  exact ⟨⟨⟨⟨hpass, hturns _ _⟩, edits_respecify _ _, hturns _ _⟩, hpass, hturns _ _⟩,
    edits_respecify _ _, hpass, hturns _ _⟩

def told? : SafePass Directive → Option Directive
  | .done d => some d
  | .ask _ _ => none

/-- The labels come from the descriptor that is stored when the second pass writes. -/
theorem respecified_provisioner_labelled_once :
    (respecifiedStates.map fun s => (s.cluster.find? (provisionerAt postgresId)).bind
        (·.part? ["metadata", "labels"])).destutter (· ≠ ·) =
      [some (.object [("team", .text "data"), ("type", .text "Database"), ("kind", .text "SQL"),
        ("vendor", .text "acme"), ("product", .text "pg"), ("variant", .text "ha"),
        ("version", .text "15")]),
       some (.object [("team", .text "data")])] ∧
    (respecifiedStates.head?.map fun s => s.passes.map fun r => told? r.rest) =
      some [some .requeueNow, some .done, some .done] ∧
    LabelledOnce postgresId respecifiedStates := by
  have hstart : Tidy unlabelledCluster := tidy_of_objects (by decide +kernel)
  have hlabels : (unlabelledCluster.find? (provisionerAt postgresId)).bind
      (·.part? ["metadata", "labels"]) = some (.object [("team", .text "data")]) := by
    decide +kernel
  have hmaps : ∀ v, unlabelledCluster.find? (provisionerAt postgresId) = some v → LabelMap v := by
    intro v hv
    rw [hv] at hlabels
    exact .inr (.inr ⟨_, hlabels⟩)
  have hrun := System.run_of_moves respecifiedMoves_allowed (System.idle unlabelledCluster)
  exact ⟨by decide +kernel, by decide +kernel,
    provisioner_labelled_once hstart hmaps (by decide) hrun⟩

end Labelling

end Reconciler
