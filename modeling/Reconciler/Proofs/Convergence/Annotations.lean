import Reconciler.Proofs.Convergence.FixedPoint
import Reconciler.Proofs.Ownership.Effects

/-! # Annotations of a parent

A parent is woken by an annotation. What is built for a parent is read off its name, its namespace, its uid
and its spec; so an annotation, and the version that comes with it, makes no difference to any of its tiers.

Main definitions and statements:

* `Annotated`: an object that differs in annotations and version only;
* `Annotated.tiers`, `Annotated.children`: what is built for a parent is what is built for it when it is annotated;
* `Fits.annotated`: a cluster that fits a parent fits it when it is annotated.
-/

namespace Reconciler

open Cluster Manifest

/-! ## Reads of what is the same -/

namespace Value

variable {v w x y : Value} {k key : String}

/-- Objects that have the same in a field are asked for it with the same result. -/
theorem require_congr (hv : v.field? k = some x) (hw : w.field? k = some y)
    (h : w.field? key = v.field? key) : w.require key = v.require key := by
  cases v with
  | object fields =>
    cases w with
    | object fields' =>
      have hfind : Fields.find? key fields' = Fields.find? key fields := h
      simp only [require, hfind]
    | _ => simp [field?] at hw
  | _ => simp [field?] at hv

/-- Objects that both have a field are read alike where they have the same field. -/
theorem fieldOr_congr (hv : v.field? k = some x) (hw : w.field? k = some y)
    (h : w.field? key = v.field? key) (default : Value) : w.fieldOr key default = v.fieldOr key default := by
  rw [fieldOr_eq_getD hv, fieldOr_eq_getD hw, h]

end Value

/-! ## Annotated objects -/

/-- The second object is the first, with other annotations and another version. -/
def Annotated (v w : Value) : Prop :=
  SameBut [["metadata", "annotations"], versionPart] v w

section Annotated

variable {v w : Value} {a : Address}

/-- Other annotations do not move an object. -/
theorem Annotated.addressOf (h : Annotated v w) (haddr : addressOf v = .ok a) : addressOf w = .ok a :=
  SameBut.addressOf h (by decide) haddr

/-- Outside of its metadata an annotated object is what it was. -/
theorem Annotated.field? (h : Annotated v w) {key : String} (hkey : key ≠ "metadata") :
    w.field? key = v.field? key := by
  have happart : Apart [["metadata", "annotations"], versionPart] [key] := by
    simp [Apart, versionPart, hkey, hkey.symm]
  simpa [Value.part?] using h [key] happart

/-- Of the metadata everything else is the same. -/
theorem Annotated.metadata (h : Annotated v w) (haddr : Cluster.addressOf v = .ok a) :
    ∃ m m', v.field? "metadata" = some m ∧ w.field? "metadata" = some m' ∧
      m.field? "name" = some a.name ∧ m'.field? "name" = some a.name ∧
      ∀ key, key ≠ "annotations" → key ≠ "resourceVersion" → m'.field? key = m.field? key := by
  rcases addressOf_eq_ok.mp haddr with ⟨m, hm, -, -, hname⟩
  rcases addressOf_eq_ok.mp (h.addressOf haddr) with ⟨m', hm', -, -, hname'⟩
  refine ⟨m, m', hm, hm', hname, hname', fun key hannotations hversion => ?_⟩
  have happart : Apart [["metadata", "annotations"], versionPart] ["metadata", key] := by
    simp [Apart, versionPart, hannotations, hannotations.symm, hversion, hversion.symm]
  simpa [Value.part?, hm, hm'] using h ["metadata", key] happart

theorem Annotated.nameOf (h : Annotated v w) (haddr : Cluster.addressOf v = .ok a) :
    Manifest.nameOf w = Manifest.nameOf v := by
  rcases h.metadata haddr with ⟨m, m', hm, hm', hname, hname', -⟩
  rw [nameOf_eq_ok.mpr ⟨m, hm, hname⟩, nameOf_eq_ok.mpr ⟨m', hm', hname'⟩]

theorem Annotated.specOf (h : Annotated v w) (haddr : Cluster.addressOf v = .ok a) :
    Manifest.specOf w = Manifest.specOf v := by
  rcases h.metadata haddr with ⟨m, m', hm, hm', -⟩
  simp only [Manifest.specOf, Value.fieldOrNull,
    Value.fieldOr_congr hm hm' (h.field? (by decide : "spec" ≠ "metadata"))]

theorem Annotated.objectMeta (h : Annotated v w) (haddr : Cluster.addressOf v = .ok a)
    (name labels : Value) (owned : Bool) :
    Manifest.objectMeta w name labels owned = Manifest.objectMeta v name labels owned := by
  rcases h.metadata haddr with ⟨m, m', hm, hm', hname, hname', hsame⟩
  have hns := Value.fieldOr_congr hname hname' (hsame "namespace" (by decide) (by decide))
  have huid := Value.fieldOr_congr hname hname' (hsame "uid" (by decide) (by decide))
  have hown : m'.require "name" = m.require "name" :=
    Value.require_congr hname hname' (hsame "name" (by decide) (by decide))
  have hversion : w.require "apiVersion" = v.require "apiVersion" :=
    Value.require_congr hm hm' (h.field? (by decide))
  have hkind : w.require "kind" = v.require "kind" := Value.require_congr hm hm' (h.field? (by decide))
  simp only [Manifest.objectMeta, metadataOf, ownerReference, Value.require_eq_ok.mpr hm,
    Value.require_eq_ok.mpr hm', Value.fieldOr_of_field? hm, Value.fieldOr_of_field? hm',
    Value.fieldOrNull, hns, huid, hown, hversion, hkind, bind, Except.bind]

theorem Annotated.server (h : Annotated v w) (haddr : Cluster.addressOf v = .ok a) (images : Images) :
    Starlane.deployment images w = Starlane.deployment images v := by
  rcases h.metadata haddr with ⟨m, m', hm, hm', hname, hname', hsame⟩
  have hns := Value.fieldOr_congr hname hname' (hsame "namespace" (by decide) (by decide))
  simp only [Starlane.deployment, metadataOf, Value.require_eq_ok.mpr hm, Value.require_eq_ok.mpr hm',
    Value.require_eq_ok.mpr hname, Value.require_eq_ok.mpr hname', hns, Starlane.keycloakName,
    Starlane.named, credentialName, Workload.manifest, h.nameOf haddr, h.objectMeta haddr, bind,
    Except.bind]

/-- What is built for a parent does not depend on its annotations. -/
theorem Annotated.tiers (h : Annotated v w) (haddr : Cluster.addressOf v = .ok a) (family : Family)
    (images : Images) : family.tiers images w = family.tiers images v := by
  have hname := h.nameOf haddr
  have hspec := h.specOf haddr
  have hmeta := h.objectMeta haddr
  have hserver := h.server haddr images
  -- the builders read the name, the spec and the metadata, and the server reads its own
  cases family with
  | database =>
    simp only [Family.tiers, databaseTiers, credentialName, buildCredential, credential, Postgres.storage,
      Postgres.deployment, Postgres.service, databaseClaim, databaseWorkload, databaseEndpoint,
      Storage.manifest, Workload.manifest, Endpoint.manifest, hname, hspec, hmeta]
  | service =>
    simp only [Family.tiers, serviceTiers, credentialName, buildCredential, credential, hserver,
      Starlane.databaseName, Starlane.keycloakName, Starlane.webName, Starlane.gatewayName,
      Starlane.named, Starlane.databaseStorage, Starlane.databaseDeployment, Starlane.databaseService,
      Starlane.keycloakDeployment, Starlane.keycloakService, Starlane.webService,
      Starlane.gatewayService, databaseClaim, databaseWorkload, databaseEndpoint,
      Storage.manifest, Workload.manifest, Endpoint.manifest, hname, hspec, hmeta]

/-- Nor does what is wanted for it. -/
theorem Annotated.children (h : Annotated v w) (haddr : Cluster.addressOf v = .ok a) (family : Family)
    (ns : Value) (name : String) : family.children w ns name = family.children v ns name := by
  cases family <;>
    simp only [Family.children, Family.chosen, Family.specField, h.specOf haddr]

/-- Children can be built for a parent with other annotations whenever they can be for the parent. -/
theorem Annotated.wellFormed (h : Annotated v w) (hv : WellFormed v) : WellFormed w := by
  rcases hv.address with ⟨a, haddr⟩
  refine ⟨⟨a, h.addressOf haddr⟩, ?_, ?_⟩
  · rw [h.field? (by decide)]
    exact hv.apiVersion
  · rw [h.field? (by decide)]
    exact hv.spec

end Annotated

/-! ## Annotating -/

namespace Cluster

/-- What annotating leaves: the stored object with annotations, under the next version. -/
theorem annotated_of_annotate {c c' : Cluster} {a : Address} {annotations v : Value}
    (h : c.annotate a annotations = (.ok v, c')) :
    ∃ stored, c.find? a = some stored ∧ Annotated stored v ∧
      c' = (c.bumped.withObject a v).recorded "annotate" a := by
  rcases annotate_cases c a annotations with
    ⟨f, hrefused⟩ | ⟨changes, stored, marked, replaced, -, hstored, hsame, -, hreplaced, hdone⟩
  · rw [hrefused] at h
    cases h
  · rw [hdone] at h
    cases h
    refine ⟨stored, hstored, ?_, rfl⟩
    exact (hsame.mono (by simp)).trans ((sameBut_withVersion hreplaced).mono (by simp))

/-- What is settled without a fault was computed without one. -/
theorem of_settle {c c' : Cluster} {result : Except Fault (Value × Cluster)} {v : Value}
    (h : c.settle result = (.ok v, c')) : result = .ok (v, c') := by
  cases result with
  | error f => cases h
  | ok r => cases h; rfl

/-- A proper object stays one. -/
theorem proper_of_annotate {c c' : Cluster} {a : Address} {annotations : Fields} {stored v : Value}
    (h : c.annotate a (.object annotations) = (.ok v, c')) (hstored : c.find? a = some stored)
    (hproper : stored.Proper) (hannotations : Value.ProperFields annotations) : v.Proper := by
  have hresult := of_settle h
  simp only [bind_eq_ok] at hresult
  rcases hresult with ⟨b, hb, hresult⟩
  rcases checked_eq_ok.mp hb with ⟨-, rfl⟩
  simp only [hstored, bind_eq_ok, Value.require_eq_ok, Value.asObject, Except.ok.injEq, pure,
    Except.pure, Prod.mk.injEq] at hresult
  -- one annotation fills in the annotations, merges the new ones, puts them back and gives a new version
  rcases hresult with ⟨metadata, hmeta, filled, hfilled, held, hheld, _, rfl, merged, hmerged,
    annotated, hannotated, marked, hmarked, replaced, hreplaced, rfl, -⟩
  have hempty : (Value.object []).Proper := ⟨List.nodup_nil, trivial⟩
  have hversion : c.nextVersion.Proper := trivial
  have hfilledProper : filled.Proper := (hproper.field? hmeta).withDefault hempty hfilled
  have hheldProper : held.Proper := hfilledProper.field? hheld
  have hmergedProper : merged.Proper := by
    cases held with
    | object fields =>
      obtain rfl := Except.ok.inj hmerged
      exact hheldProper.merge hannotations
    | _ => cases hmerged
  have hmarkedProper : marked.Proper :=
    hproper.setField (hfilledProper.setField hmergedProper hannotated) hmarked
  -- the version is a text in the metadata
  rcases withVersion_eq_ok hreplaced with ⟨before, after, hbefore, -, hset, ho⟩
  exact hmarkedProper.setField ((hmarkedProper.field? hbefore).setField hversion hset) ho

end Cluster

namespace Convergence

variable {family : Family} {ns parent v : Value} {name : String} {c c' : Cluster}

/-- A cluster that fits a parent fits it when it is annotated, and nothing else is wanted then. -/
theorem Fits.annotated {annotations : Fields} (hfits : Fits family ns name parent c)
    (h : c.annotate (family.parentAt ns name) (.object annotations) = (.ok v, c'))
    (hannotations : Value.ProperFields annotations) :
    Fits family ns name v c' ∧ Annotated parent v := by
  rcases annotated_of_annotate h with ⟨stored, hstored, hsame, rfl⟩
  obtain rfl : parent = stored := Option.some.inj (hfits.stored.symm.trans hstored)
  refine ⟨⟨?_, hsame.addressOf hfits.address, hsame.wellFormed hfits.wellFormed, ?_, hfits.nameable,
    ?_⟩, hsame⟩
  · simp [find?_withObject]
  · exact proper_of_annotate h hstored hfits.proper hannotations
  · intro child hchild object hobject
    rw [hsame.children hfits.address] at hchild
    have hne := (Family.parentAt_ne (mem_addresses hchild)).symm
    refine hfits.holds child hchild object ?_
    simpa [find?_withObject, hne] using hobject

/-- Annotating another object that is no child changes nothing that matters. -/
theorem Fits.annotated_of_ne {a : Address} {annotations : Value} (hfits : Fits family ns name parent c)
    (h : c.annotate a annotations = (.ok v, c')) (hne : a ≠ family.parentAt ns name)
    (hnot : a ∉ family.addresses ns name) : Fits family ns name parent c' := by
  rcases annotated_of_annotate h with ⟨stored, -, -, rfl⟩
  refine { hfits with stored := ?_, holds := ?_ }
  · simpa [find?_withObject, hne.symm] using hfits.stored
  · intro child hchild object hobject
    have hchildNe : child.address ≠ a := by
      rintro rfl
      exact hnot (mem_addresses hchild)
    refine hfits.holds child hchild object ?_
    simpa [find?_withObject, hchildNe] using hobject

end Convergence

end Reconciler
