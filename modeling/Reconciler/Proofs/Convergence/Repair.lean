import Reconciler.Proofs.Convergence.Turns

/-! # Repairing endpoints

Whether an endpoint has drifted and how it is repaired is read from the same field by two functions. One takes
a spec that is null for one without fields, the other cannot change it. So an endpoint whose spec is null is
seen as drifted by every pass and repaired by none. Any other endpoint is repaired when drift is seen, and left
alone when none is.

Main definitions and statements:

* `Reaches`: a pass gets to an endpoint;
* `Follows`: what it does about the endpoint, by the changes that are reported for it;
* `drift_repaired_as_detected`: so it is for every endpoint;
* `not_detectedIsRepaired`: and not every drift that is seen is repaired.
-/

namespace Reconciler

open Cluster Manifest

namespace Convergence

/-! ## Endpoints that a pass gets to -/

/-- A pass over a parent gets to an endpoint that is there, with a spec that is absent, null or an object. -/
structure Reaches (family : Family) (ns : Value) (name : String) (parent : Value) (c : Cluster)
    (child : Child) (existing : Value) : Prop where
  placed : Placed family ns name parent c
  past : ∃ before after, family.children parent ns name = before ++ child :: after ∧
    ∀ other ∈ before, PassedBy c other
  endpoint : child.exposure ≠ none
  found : c.find? child.address = some existing
  spec : Value.ObjectOrNone (existing.field? "spec")

/-- What a pass does about an endpoint for which changes were reported, or none: it leaves the endpoint alone
when there are none; else it replaces the endpoint by itself with the wanted exposure, and makes no other
write; or it fails without any write, and that is when the spec of the endpoint is null. -/
structure Follows (child : Child) (existing desired : Value) (changes : Fields) (writes : History)
    (d : Directive) : Prop where
  spared : changes = [] → ∀ exchange ∈ writes, exchange.1.addressed ≠ .ok child.address
  repaired : changes ≠ [] → existing.field? "spec" ≠ some .null → ∃ changed stored,
    writes = [(.update changed, .ok stored)] ∧ exposureDrift changed desired = .ok [] ∧
      SameBut exposureParts existing changed
  stuck : existing.field? "spec" = some .null →
    changes ≠ [] ∧ writes = [] ∧ d = .failed (some ⟨.noAttribute, none⟩)

section Reaches

variable {family : Family} {ns parent : Value} {name : String} {settings settings' : Settings}
variable {c : Cluster} {child : Child} {existing desired wanted : Value}

/-- Every endpoint is wanted with some exposure, whatever the parent says. -/
theorem exposure_ne_null (hchild : child ∈ family.children parent ns name)
    (hwanted : child.exposure = some wanted) : wanted ≠ .null := by
  -- a value that stands in for itself is truthy, and null is not
  have hchosen : ∀ key, (Family.specField parent key).orElse (.text defaultExposure) ≠ .null := by
    intro key
    unfold Value.orElse
    split
    · next htruthy =>
      intro hnull
      simp [hnull, Value.truthy] at htruthy
    · simp
  have hall : ∀ child ∈ family.children parent ns name, ∀ wanted, child.exposure = some wanted →
      wanted ≠ .null := by
    cases family with
    | service => simp [Family.children, Family.chosen, hchosen]
    | database => simp [Family.children, Family.chosen, hchosen]
  exact hall child hchild wanted hwanted

/-- Only null is the same as null. -/
theorem eq_null_of_same {v : Value} (h : Value.null.same v = true) : v = .null := by
  cases v with
  | null => rfl
  | _ => cases h

/-- The endpoint that a pass gets to is a child of the parent. -/
theorem Reaches.mem (h : Reaches family ns name parent c child existing) :
    child ∈ family.children parent ns name := by
  rcases h.past with ⟨before, after, hchildren, -⟩
  simp [hchildren]

/-- The endpoint that a pass gets to is under the address of the child. -/
theorem Reaches.address (h : Reaches family ns name parent c child existing) :
    addressOf existing = .ok child.address :=
  (h.placed.kept child h.mem existing h.found).address

/-- A spec that is null says nothing of the exposure, so it differs from what is wanted. -/
theorem Reaches.drifted_of_null (h : Reaches family ns name parent c child existing)
    (hwanted : child.exposure = some wanted) (hnull : existing.field? "spec" = some .null) :
    (exposureOf existing).same wanted = false := by
  have hexposure : exposureOf existing = .null := by
    simp only [exposureOf, hnull]
    rfl
  rw [hexposure, Bool.eq_false_iff]
  exact fun hsame => exposure_ne_null h.mem hwanted (eq_null_of_same hsame)

/-- A pass meets the endpoint, and all its further writes are to other children. -/
theorem Reaches.reconcile_meets (h : Reaches family ns name parent c child existing)
    (settings settings' : Settings) :
    SafePass.Ensures overheard (fun _ _ => True)
      (fun s d => ∃ after desired result, Built child desired ∧
        Turn.Meets settings c after s.2.writes result (correction existing desired) ∧
        (∀ writes result, Turn settings c after writes result →
          ∀ exchange ∈ writes, exchange.1.addressed ≠ .ok child.address) ∧
        d = (family.handler settings).directiveOf ⟨ns, .text name⟩ result)
      ((family.handler settings).reconcile settings' ⟨ns, .text name⟩) (c, []) := by
  rcases h.past with ⟨before, after, hchildren, hbefore⟩
  refine (h.placed.reconcile_turns settings settings').mono (fun _ _ hmay => hmay) ?_
  rintro s d ⟨result, hturn, hd⟩
  rw [hchildren] at hturn
  rcases (hturn.past hbefore).meets h.found h.endpoint with ⟨desired, hbuilt, hmeets⟩
  refine ⟨after, desired, result, hbuilt, hmeets, ?_, hd⟩
  intro writes result' hturn' exchange hexchange haddr
  have hafter : ∀ other ∈ after, other ∈ family.children parent ns name := by
    intro other hother
    simp [hchildren, hother]
  rcases hturn'.addressed (fun other hother => h.placed.kept other (hafter other hother)) exchange
    hexchange with ⟨other, hother, haddr'⟩
  -- no two children share an address
  have hnodup := family.nodup_addresses ns name
  rw [← Family.map_address_children parent, hchildren, List.map_append, List.map_cons] at hnodup
  have hnot := (List.nodup_cons.mp (List.nodup_append.mp hnodup).2.1).1
  exact hnot (Except.ok.inj (haddr.symm.trans haddr') ▸ List.mem_map_of_mem hother)

/-- A corrected endpoint has not drifted. -/
theorem Reaches.drift_corrected (h : Reaches family ns name parent c child existing)
    (hbuilt : Built child desired) (hwanted : child.exposure = some wanted) {changed : Value}
    (haddr : addressOf changed = .ok child.address)
    (hspec : ∃ fields, changed.field? "spec" = some (.object fields))
    (hexposure : exposureOf changed = wanted) : exposureDrift changed desired = .ok [] := by
  have hsame : (exposureOf changed).same wanted = true := by
    rw [hexposure]
    exact Value.same_refl wanted (Family.proper_exposure h.placed.proper h.mem hwanted)
  rw [exposureDrift_eq haddr (.inr (.inr hspec)) hbuilt hwanted, if_pos hsame]

/-- A pass that gets to an endpoint with a spec that is absent, null or an object does about it what the
comparison of exposures reports: when no changes are reported, it does not write the endpoint. When some are
reported, it makes one write, an update for which none are reported and that differs from the endpoint in
nothing but the exposure; unless the spec is null. Then changes are always reported, and the pass fails
without having written anything. -/
theorem drift_repaired_as_detected (settings settings' : Settings)
    (h : Reaches family ns name parent c child existing) (hbuilt : Built child desired) :
    ∃ changes, exposureDrift existing desired = .ok changes ∧
      SafePass.Ensures overheard (fun _ _ => True)
        (fun s d => Follows child existing desired changes s.2.writes d)
        ((family.handler settings).reconcile settings' ⟨ns, .text name⟩) (c, []) := by
  rcases Option.ne_none_iff_exists'.mp h.endpoint with ⟨wanted, hwanted⟩
  have hdrift := exposureDrift_eq h.address h.spec hbuilt hwanted
  refine ⟨_, hdrift, (h.reconcile_meets settings settings').mono (fun _ _ hmay => hmay) ?_⟩
  rintro s d ⟨after, desired', result, hbuilt', hmeets, hothers, rfl⟩
  have hcorrects := correction_corrects h.address h.spec hbuilt' hwanted
  have hnull := h.drifted_of_null hwanted
  -- what the pass built may differ from what was compared, but it wants the same exposure
  cases hcorrection : correction existing desired' with
  | error f =>
    rw [hcorrection] at hcorrects hmeets
    -- stuck: the spec is null, so there is drift and nothing is written
    cases hcorrects with | stuck hsame hspec =>
    cases hmeets with | stuck hwrites hresult =>
    rw [if_neg (by simp [hsame])]
    refine ⟨by simp, fun _ hne => absurd hspec hne, fun _ => ⟨by simp, hwrites, ?_⟩⟩
    rw [hresult, Handler.directiveOf_classless _ _ rfl]
  | ok corrected =>
    cases corrected with
    | none =>
      rw [hcorrection] at hcorrects hmeets
      -- the endpoint has the wanted exposure, so no changes are reported and the pass goes on
      cases hcorrects with | same hsame =>
      cases hmeets with | passed hturn =>
      rw [if_pos hsame]
      refine ⟨fun _ => hothers _ _ hturn, fun hne => absurd rfl hne, fun hspec => ?_⟩
      cases hsame.symm.trans (hnull hspec)
    | some changed =>
      have haddr := addressOf_correction hcorrection h.address
      have hsameBut := sameBut_correction hcorrection
      rw [hcorrection] at hcorrects hmeets
      -- the endpoint was corrected, and a further comparison finds nothing
      cases hcorrects with | exposed hsame hspec hfields hexposure =>
      cases hmeets with | corrected hwrites hresult =>
      rw [if_neg (by simp [hsame])]
      refine ⟨by simp, fun _ _ => ⟨changed, _, hwrites, ?_, hsameBut⟩, fun hnull => absurd hnull hspec⟩
      exact h.drift_corrected hbuilt hwanted haddr hfields hexposure

end Reaches

/-! ### The endpoint of a database -/

theorem reaches_clusterWith {endpoint : Value} (haddr : addressOf endpoint = .ok wantedEndpoint.address)
    (hproper : endpoint.Proper) (hspec : Value.ObjectOrNone (endpoint.field? "spec")) :
    Reaches .database (.text "default") "pg" storedDatabase (clusterWith endpoint) wantedEndpoint
      endpoint := by
  refine ⟨placed_clusterWith haddr hproper, ?_, by simp [wantedEndpoint], rfl, hspec⟩
  refine ⟨[⟨⟨.text Kind.claim, .text "default", .text "pg"⟩, none⟩,
    ⟨⟨.text Kind.secret, .text "default", .text "pg"⟩, none⟩,
    ⟨⟨.text Kind.deployment, .text "default", .text "pg"⟩, none⟩], [], rfl, ?_⟩
  simp only [List.forall_mem_cons]
  exact ⟨⟨_, rfl, fun h => absurd rfl h⟩, ⟨_, rfl, fun h => absurd rfl h⟩,
    ⟨_, rfl, fun h => absurd rfl h⟩, by simp⟩

def builtEndpoint : Value :=
  .object [("kind", .text Kind.service),
    ("metadata", .object [("name", .text "pg"), ("namespace", .text "default")]),
    ("spec", .object [("type", .text "ClusterIP")])]

theorem built_builtEndpoint : Built wantedEndpoint builtEndpoint := by
  refine ⟨rfl, ?_⟩
  rintro wanted ⟨⟩
  exact ⟨_, rfl, rfl⟩

theorem drifted_endpoint_repaired :
    exposureDrift driftedEndpoint builtEndpoint = .ok [("type", .text "ClusterIP")] ∧
      ∃ d s, Program.Leads (facing overheard)
          ((Family.database.handler {}).reconcile {} ⟨.text "default", .text "pg"⟩)
          (clusterWith driftedEndpoint, []) (.done d) s ∧
        ∃ changed stored, s.2.writes = [(.update changed, .ok stored)] ∧
          exposureDrift changed builtEndpoint = .ok [] ∧
          SameBut exposureParts driftedEndpoint changed := by
  have hreaches : Reaches .database (.text "default") "pg" storedDatabase (clusterWith driftedEndpoint)
      wantedEndpoint driftedEndpoint :=
    reaches_clusterWith rfl proper_driftedEndpoint (.inr (.inr ⟨_, rfl⟩))
  obtain ⟨changes, hdrift, hensures⟩ := drift_repaired_as_detected {} {} hreaches built_builtEndpoint
  obtain rfl : [("type", .text "ClusterIP")] = changes := Except.ok.inj hdrift
  rcases exists_overheard ((Family.database.handler {}).reconcile {} ⟨.text "default", .text "pg"⟩)
    (clusterWith driftedEndpoint, []) with ⟨d, s, hrun⟩
  have hfollows : Follows _ _ _ _ _ _ := hensures.of_leads hrun
  exact ⟨rfl, d, s, hrun, hfollows.repaired (by simp) (by decide)⟩

/-- Whenever changes are reported for an endpoint that a pass gets to, the pass repairs it. -/
def DetectedIsRepaired : Prop :=
  ∀ (settings settings' : Settings) (family : Family) (ns : Value) (name : String) (parent : Value)
    (c : Cluster) (child : Child) (existing desired : Value) (changes : Fields),
    Reaches family ns name parent c child existing → Built child desired →
    exposureDrift existing desired = .ok changes → changes ≠ [] →
    SafePass.Ensures overheard (fun _ _ => True)
      (fun s _ => ∃ changed stored, s.2.writes = [(.update changed, .ok stored)] ∧
        exposureDrift changed desired = .ok [] ∧ SameBut exposureParts existing changed)
      ((family.handler settings).reconcile settings' ⟨ns, .text name⟩) (c, [])

def nullEndpoint : Value :=
  .object [("apiVersion", .text "v1"), ("kind", .text Kind.service),
    ("metadata", .object [("name", .text "pg"), ("namespace", .text "default"),
      ("resourceVersion", .text "5")]),
    ("spec", .null)]

/-- An endpoint whose spec is null is seen as drifted, and not repaired. -/
theorem not_detectedIsRepaired : ¬ DetectedIsRepaired := by
  intro hclaim
  have hreaches : Reaches .database (.text "default") "pg" storedDatabase (clusterWith nullEndpoint)
      wantedEndpoint nullEndpoint := by
    refine reaches_clusterWith rfl ?_ (.inr (.inl rfl))
    simp [nullEndpoint, Value.Proper, Value.ProperFields, Fields.names]
  have hrepaired := hclaim {} {} _ _ _ _ _ _ _ _ _ hreaches built_builtEndpoint rfl (by decide)
  rcases exists_overheard ((Family.database.handler {}).reconcile {} ⟨.text "default", .text "pg"⟩)
    (clusterWith nullEndpoint, []) with ⟨d, s, hrun⟩
  obtain ⟨changed, stored, hwrites, -⟩ := hrepaired.of_leads hrun
  obtain ⟨after, desired, result, hbuilt, hmeets, -⟩ := (hreaches.reconcile_meets {} {}).of_leads hrun
  -- the pass meets an endpoint that it cannot correct, so there is no write
  have hcorrects := correction_corrects hreaches.address hreaches.spec hbuilt rfl
  cases hcorrection : correction nullEndpoint desired with
  | error f =>
    rw [hcorrection] at hmeets
    cases hmeets with | stuck hnone _ =>
    cases hnone.symm.trans hwrites
  | ok corrected =>
    rw [hcorrection] at hcorrects
    cases hcorrects with
    | same hsame => exact absurd hsame (by decide)
    | exposed _ hspec => exact absurd rfl hspec

end Convergence

end Reconciler
