import Reconciler.Proofs.Value
import Reconciler.Store.Cluster
import Std.Data.String.ToNat

/-! # What the calls of the cluster do

Every call either changes nothing but the version counter or does exactly one thing, and says so: these
are the inversion lemmas that everything about clusters is derived from.

* `get_snd`, `find?_of_get`: a read changes nothing and answers with the stored object;
* `create_cases`, `update_cases`, `updateStatus_cases`: what a write can do;
* `addressOf_setField`: only kind and metadata address an object.
-/

namespace Reconciler.Cluster

/-! ## Stored objects -/

/-- What is stored at an address is found there, and what is stored elsewhere as before. -/
theorem lookup_place (a b : Address) (object : Value) (objects : List (Address × Value)) :
    (place a object objects).lookup b = if b = a then some object else objects.lookup b := by
  induction objects with
  | nil =>
    by_cases h : b = a
    · simp [place, h]
    · simp [place, h, List.lookup_cons, beq_false_of_ne h]
  | cons entry rest ih =>
    rcases entry with ⟨c, other⟩
    -- an object is stored over the one at its address, or after all others
    by_cases hc : c = a
    · subst hc
      by_cases h : b = c
      · simp [place, h]
      · simp [place, List.lookup_cons, beq_false_of_ne h, h]
    · by_cases h : b = c
      · subst h
        simp [place, hc]
      · simp only [place, if_neg hc, List.lookup_cons, beq_false_of_ne h, ih]

/-- An object that is stored is found at its address. -/
theorem find?_withObject (c : Cluster) (a b : Address) (object : Value) :
    (c.withObject a object).find? b = if b = a then some object else c.find? b :=
  lookup_place a b object c.objects

/-- An object that is found is one of the objects. -/
theorem mem_objects_of_find? {c : Cluster} {a : Address} {object : Value} (h : c.find? a = some object) :
    (a, object) ∈ c.objects := by
  rcases List.lookup_eq_some_iff.mp h with ⟨before, after, hobjects, -⟩
  simp [hobjects]

@[simp] theorem find?_bumped (c : Cluster) (a : Address) : c.bumped.find? a = c.find? a := rfl

@[simp] theorem find?_recorded (c : Cluster) (operation : String) (a b : Address) :
    (c.recorded operation a).find? b = c.find? b := rfl

@[simp] theorem version_withObject (c : Cluster) (a : Address) (object : Value) :
    (c.withObject a object).version = c.version := rfl

@[simp] theorem version_bumped (c : Cluster) : c.bumped.version = c.version + 1 := rfl

@[simp] theorem version_recorded (c : Cluster) (operation : String) (a : Address) :
    (c.recorded operation a).version = c.version := rfl

@[simp] theorem journal_withObject (c : Cluster) (a : Address) (object : Value) :
    (c.withObject a object).journal = c.journal := rfl

@[simp] theorem journal_bumped (c : Cluster) : c.bumped.journal = c.journal := rfl

@[simp] theorem journal_recorded (c : Cluster) (operation : String) (a : Address) :
    (c.recorded operation a).journal = c.journal ++ [⟨operation, a⟩] := rfl

/-! ## Addresses and versions of objects -/

/-- The version an object carries, if it carries one. -/
def versionOf (object : Value) : Option Value := do
  (← object.field? "metadata").field? "resourceVersion"

/-- An object has an address if it says its kind and its name; the namespace has a default. -/
theorem addressOf_eq_ok {object : Value} {a : Address} :
    addressOf object = .ok a ↔
      ∃ metadata, object.field? "metadata" = some metadata ∧ object.field? "kind" = some a.kind ∧
        metadata.fieldOr "namespace" (.text "default") = .ok a.ns ∧
        metadata.field? "name" = some a.name := by
  rcases a with ⟨kind, ns, name⟩
  simp only [addressOf, bind_eq_ok, Value.require_eq_ok, pure_eq_ok,
    Address.mk.injEq]
  constructor
  · rintro ⟨metadata, hmeta, k, hk, n, hn, m, hm, rfl, rfl, rfl⟩
    exact ⟨metadata, hmeta, hk, hn, hm⟩
  · rintro ⟨metadata, hmeta, hk, hn, hm⟩
    exact ⟨metadata, hmeta, kind, hk, ns, hn, name, hm, rfl, rfl, rfl⟩

/-- Only kind and metadata address an object. -/
theorem addressOf_setField {object o value : Value} {key : String}
    (h : object.setField key value = .ok o) (hmeta : key ≠ "metadata") (hkind : key ≠ "kind") :
    addressOf o = addressOf object := by
  simp only [addressOf, Value.require_setField_of_ne h hmeta.symm,
    Value.require_setField_of_ne h hkind.symm]

/-- The version is in the metadata. -/
theorem versionOf_setField {object o value : Value} {key : String}
    (h : object.setField key value = .ok o) (hmeta : key ≠ "metadata") :
    versionOf o = versionOf object := by
  simp only [versionOf, Value.field?_setField_of_ne h hmeta.symm]

/-- Giving an object a version changes its metadata, and there only the version. -/
theorem withVersion_eq_ok {object o version : Value} (h : withVersion object version = .ok o) :
    ∃ before after, object.field? "metadata" = some before ∧ o.field? "metadata" = some after ∧
      before.setField "resourceVersion" version = .ok after ∧
      object.setField "metadata" after = .ok o := by
  simp only [withVersion, bind_eq_ok, Value.require_eq_ok] at h
  rcases h with ⟨before, hbefore, after, hafter, hset⟩
  exact ⟨before, after, hbefore, Value.field?_setField hset, hafter, hset⟩

/-- An object that is given a version carries it. -/
theorem versionOf_withVersion {object o version : Value} (h : withVersion object version = .ok o) :
    versionOf o = some version := by
  rcases withVersion_eq_ok h with ⟨before, after, -, hafter, hset, -⟩
  simp [versionOf, hafter, Value.field?_setField hset]

/-- An object with another version keeps its address. -/
theorem addressOf_withVersion {object o version : Value} (h : withVersion object version = .ok o) :
    addressOf o = addressOf object := by
  rcases withVersion_eq_ok h with ⟨before, after, hbefore, hafter, hset, ho⟩
  have hm : o.require "metadata" = .ok after := Value.require_eq_ok.mpr hafter
  have hm' : object.require "metadata" = .ok before := Value.require_eq_ok.mpr hbefore
  simp only [addressOf, hm, hm', Value.require_setField_of_ne ho (by decide : "kind" ≠ "metadata")]
  simp only [bind, Except.bind, Value.fieldOr_setField_of_ne hset
    (by decide : "namespace" ≠ "resourceVersion"), Value.require_setField_of_ne hset
    (by decide : "name" ≠ "resourceVersion")]

/-- Everything beside the metadata stays the same. -/
theorem field?_withVersion {object o version : Value} {key : String}
    (h : withVersion object version = .ok o) (hkey : key ≠ "metadata") :
    o.field? key = object.field? key := by
  rcases withVersion_eq_ok h with ⟨before, after, -, -, -, ho⟩
  exact Value.field?_setField_of_ne ho hkey

/-- An object with a version that was given out by a cluster. -/
def Versioned (c : Cluster) (object : Value) : Prop :=
  ∃ n ≤ c.version, versionOf object = some (.text (toString n))

/-- A version that was given out stays given out. -/
theorem Versioned.mono {c c' : Cluster} {object : Value} (h : Versioned c object)
    (hle : c.version ≤ c'.version) : Versioned c' object := by
  rcases h with ⟨n, hn, hversion⟩
  exact ⟨n, Nat.le_trans hn hle, hversion⟩

/-- A version that is yet to be given out is nobody's. -/
theorem Versioned.ne_of_lt {c : Cluster} {object : Value} {n : Nat} (h : Versioned c object)
    (hn : c.version < n) : versionOf object ≠ some (.text (toString n)) := by
  rcases h with ⟨m, hm, hversion⟩
  rw [hversion]
  intro heq
  have hmn : m = n := Nat.repr_inj.mp (by simpa using heq)
  omega

/-! ## Reads -/

/-- Only addresses that can be looked up are. -/
theorem checked_eq_ok {a b : Address} : checked a = .ok b ↔ a.nameable = true ∧ a = b := by
  by_cases h : a.nameable <;> simp [checked, h]

/-- A read changes nothing. -/
theorem get_snd (c : Cluster) (a : Address) : (c.get a).2 = c := by
  unfold get settle
  cases h : c.find? a with
  | none => by_cases hn : a.nameable <;> simp [checked, hn, h, bind, Except.bind, throw, throwThe,
      MonadExceptOf.throw]
  | some object => by_cases hn : a.nameable <;> simp [checked, hn, h, bind, Except.bind, pure,
      Except.pure]

/-- Fetching what is stored comes to it. -/
theorem get_of_find? {c : Cluster} {a : Address} {object : Value} (hn : a.nameable = true)
    (h : c.find? a = some object) : c.get a = (.ok object, c) := by
  simp [get, settle, checked, hn, h, bind, Except.bind, pure, Except.pure]

/-- Fetching what is not stored says that it is missing. -/
theorem get_of_absent {c : Cluster} {a : Address} (hn : a.nameable = true)
    (h : c.find? a = none) : c.get a = (.error (Fault.missing a), c) := by
  simp [get, settle, checked, hn, h, bind, Except.bind, throw, throwThe, MonadExceptOf.throw]

/-- What a read answers with is stored. -/
theorem find?_of_get {c : Cluster} {a : Address} {object : Value} (h : (c.get a).1 = .ok object) :
    c.find? a = some object := by
  by_cases hn : a.nameable
  · cases hf : c.find? a with
    | none => simp [get_of_absent hn hf] at h
    | some stored => simpa [get_of_find? hn hf] using h
  · simp [get, settle, checked, hn, bind, Except.bind] at h

/-! ## Creations -/

/-- What a stored object keeps of the one that was sent: everything but the metadata that the cluster
fills in. -/
structure Completes (object stored : Value) : Prop where
  fields : ∀ key, key ≠ "metadata" → stored.field? key = object.field? key
  metadata : ∃ before after, object.field? "metadata" = some before ∧
    stored.field? "metadata" = some after ∧
    ∀ key, key ≠ "namespace" → key ≠ "uid" → key ≠ "resourceVersion" →
      after.field? key = before.field? key

/-- An object with an address can be completed, and keeps its address. -/
theorem exists_completed {object : Value} {a : Address} (h : addressOf object = .ok a) :
    ∃ o, completed object = .ok o ∧ addressOf o = .ok a ∧ Completes object o := by
  -- the metadata that is filled in step by step, and what it still says
  rcases addressOf_eq_ok.mp h with ⟨m, hm, hkind, hns, hname⟩
  rcases Value.fieldOr_eq_ok.mp hns with ⟨fields, rfl, hget⟩
  rcases Value.exists_withDefault hm "metadata" (.object []) with ⟨o, ho⟩
  -- an object with an address has metadata, so none is added
  have hom : o.field? "metadata" = some (.object fields) := by
    simp [Value.field?_withDefault ho, hm]
  rcases Value.exists_withDefault hname "namespace" (.text "default") with ⟨m₁, hm₁⟩
  have hname₁ : m₁.field? "name" = some a.name := by
    rw [Value.field?_withDefault_of_ne hm₁ (by decide), hname]
  have hns₁ : m₁.field? "namespace" = some a.ns := by
    rw [Value.field?_withDefault hm₁]
    exact congrArg some hget
  rcases Value.exists_withDefault hname₁ "uid" (.text s!"uid-{a.name.shown}") with ⟨m₂, hm₂⟩
  rcases Value.exists_setField hom "metadata" m₂ with ⟨o', ho'⟩
  have hcompleted : completed object = .ok o' := by
    simp only [completed, ho, Value.require_eq_ok.mpr hom, hm₁, Value.require_eq_ok.mpr hname₁, hm₂,
      bind, Except.bind]
    exact ho'
  refine ⟨o', hcompleted, ?_, ?_, ?_⟩
  · refine addressOf_eq_ok.mpr ⟨m₂, Value.field?_setField ho', ?_, ?_, ?_⟩
    · rw [Value.field?_setField_of_ne ho' (by decide), Value.field?_withDefault_of_ne ho (by decide),
        hkind]
    · refine Value.fieldOr_of_field? ?_ _
      rw [Value.field?_withDefault_of_ne hm₂ (by decide), hns₁]
    · rw [Value.field?_withDefault_of_ne hm₂ (by decide), hname₁]
  · intro key hkey
    rw [Value.field?_setField_of_ne ho' hkey, Value.field?_withDefault_of_ne ho hkey]
  · refine ⟨.object fields, m₂, hm, Value.field?_setField ho', ?_⟩
    intro key hkns hkuid _
    rw [Value.field?_withDefault_of_ne hm₂ hkuid, Value.field?_withDefault_of_ne hm₁ hkns]

/-- Giving a version keeps what completing kept. -/
theorem Completes.withVersion {object o stored version : Value} (h : Completes object o)
    (hv : Cluster.withVersion o version = .ok stored) : Completes object stored := by
  rcases withVersion_eq_ok hv with ⟨before, after, hbefore, hafter, hset, ho⟩
  rcases h.metadata with ⟨m, m', hm, hm', hkeys⟩
  obtain rfl : m' = before := Option.some.inj (hm'.symm.trans hbefore)
  refine ⟨?_, m, after, hm, hafter, ?_⟩
  · intro key hkey
    rw [field?_withVersion hv hkey, h.fields key hkey]
  · intro key hns huid hver
    rw [Value.field?_setField_of_ne hset hver, hkeys key hns huid hver]

/-- Whatever has an address can be given a version. -/
theorem exists_withVersion {object : Value} {a : Address} (h : addressOf object = .ok a)
    (version : Value) : ∃ o, withVersion object version = .ok o := by
  rcases addressOf_eq_ok.mp h with ⟨m, hm, -, -, hname⟩
  rcases Value.exists_setField hname "resourceVersion" version with ⟨m', hm'⟩
  rcases Value.exists_setField hm "metadata" m' with ⟨o, ho⟩
  refine ⟨o, ?_⟩
  simp only [withVersion, Value.require_eq_ok.mpr hm, hm', bind, Except.bind]
  exact ho

/-- An object with a name is stored, whatever is there. -/
theorem put_of_address {c : Cluster} {object : Value} {a : Address}
    (haddr : addressOf object = .ok a) (hn : a.nameable = true) :
    ∃ stored, addressOf stored = .ok a ∧ versionOf stored = some c.nextVersion ∧
      Completes object stored ∧ c.put object = (.ok stored, c.bumped.withObject a stored) := by
  rcases exists_completed haddr with ⟨o, hcompleted, hoaddr, hcomp⟩
  rcases exists_withVersion hoaddr c.nextVersion with ⟨stored, hstored⟩
  have hsaddr : addressOf stored = .ok a := by rw [addressOf_withVersion hstored, hoaddr]
  have hchecked : checked a = .ok a := checked_eq_ok.mpr ⟨hn, rfl⟩
  refine ⟨stored, hsaddr, versionOf_withVersion hstored, hcomp.withVersion hstored, ?_⟩
  simp only [put, hcompleted, hstored, hsaddr, hchecked, bind, Except.bind, pure, Except.pure, settle]

/-- An object with a name that is free is created. -/
theorem create_of_absent {c : Cluster} {object : Value} {a : Address}
    (haddr : addressOf object = .ok a) (hn : a.nameable = true) (hfree : c.find? a = none) :
    ∃ stored, addressOf stored = .ok a ∧ versionOf stored = some c.nextVersion ∧
      Completes object stored ∧
      c.create object = (.ok stored, (c.bumped.withObject a stored).recorded "create" a) := by
  obtain ⟨stored, hsaddr, hversion, hcomp, hput⟩ := put_of_address (c := c) haddr hn
  have hchecked : checked a = .ok a := checked_eq_ok.mpr ⟨hn, rfl⟩
  refine ⟨stored, hsaddr, hversion, hcomp, ?_⟩
  simp only [create, haddr, hchecked, bind, Except.bind, hfree, hput]
  rfl

/-- An object whose name is taken is refused, and nothing changes. -/
theorem create_of_present {c : Cluster} {object : Value} {a : Address}
    (haddr : addressOf object = .ok a) (hn : a.nameable = true) (htaken : (c.find? a).isSome) :
    c.create object = (.error (.alreadyExists s!"{a.shown} already exists"), c) := by
  have hchecked : checked a = .ok a := checked_eq_ok.mpr ⟨hn, rfl⟩
  simp only [create, haddr, hchecked, bind, Except.bind, htaken, if_true]

/-- A creation is refused and changes nothing, or stores a new object where there was none. -/
theorem create_cases (c : Cluster) (object : Value) :
    (∃ f, c.create object = (.error f, c)) ∨
      ∃ a stored, addressOf object = .ok a ∧ c.find? a = none ∧ addressOf stored = .ok a ∧
        versionOf stored = some c.nextVersion ∧ Completes object stored ∧
        c.create object = (.ok stored, (c.bumped.withObject a stored).recorded "create" a) := by
  cases haddr : addressOf object with
  | error f => exact .inl ⟨f, by simp [create, haddr, bind, Except.bind]⟩
  | ok a =>
    by_cases hn : a.nameable
    · cases hfind : c.find? a with
      | none =>
        rcases create_of_absent haddr hn hfind with ⟨stored, h⟩
        exact .inr ⟨a, stored, rfl, hfind, h⟩
      | some other => exact .inl ⟨_, create_of_present haddr hn (by simp [hfind])⟩
    · exact .inl ⟨.wrongShape, by simp [create, haddr, checked, hn, bind, Except.bind]⟩

/-- A creation whose name is taken fails and changes nothing. -/
theorem create_taken {c : Cluster} {object : Value} {a : Address} (haddr : addressOf object = .ok a)
    (htaken : (c.find? a).isSome = true) : ∃ f, c.create object = (.error f, c) := by
  rcases create_cases c object with hrefused | ⟨b, _, hb, hnone, -⟩
  · exact hrefused
  · obtain rfl : a = b := Except.ok.inj (haddr.symm.trans hb)
    simp [hnone] at htaken

/-! ## Replacements -/

/-- A call changes nothing, or its answer and the new cluster are those it was settled with. -/
theorem settle_cases (c : Cluster) (result : Except Fault (Value × Cluster)) :
    (∃ f, c.settle result = (.error f, c)) ∨
      ∃ v after, result = .ok (v, after) ∧ c.settle result = (.ok v, after) := by
  cases result with
  | error f => exact .inl ⟨f, rfl⟩
  | ok r => exact .inr ⟨r.1, r.2, rfl, rfl⟩

/-- A replacement is meant for the stored object, and a version it sends is that of the stored one. -/
theorem of_current {c : Cluster} {a : Address} {object stored : Value}
    (h : c.current a object = .ok stored) :
    c.find? a = some stored ∧ ∀ sent, versionOf object = some sent → sent.isNull = false →
      ∃ version, versionOf stored = some version ∧ sent.same version = true := by
  simp only [current, bind_eq_ok] at h
  rcases h with ⟨b, hb, h⟩
  rcases checked_eq_ok.mp hb with ⟨-, rfl⟩
  cases hfind : c.find? a with
  | none => simp [hfind, throw, throwThe, MonadExceptOf.throw] at h
  | some other =>
    simp only [hfind, bind_eq_ok, Value.require_eq_ok] at h
    rcases h with ⟨metadata, hmeta, sent, hsent, h⟩
    -- the version that is compared is the one that is sent
    have hread : ∀ v, versionOf object = some v → v = sent := by
      intro v hv
      have hfield : metadata.field? "resourceVersion" = some v := by
        simpa [versionOf, hmeta] using hv
      rw [Value.fieldOrNull, Value.fieldOr_of_field? hfield] at hsent
      simpa using hsent
    -- who sends no version replaces whatever is there
    by_cases hnull : sent.isNull = true
    · simp only [hnull, if_true, pure_eq_ok] at h
      refine ⟨congrArg some h, ?_⟩
      intro v hv hgiven
      simp [hread v hv, hnull] at hgiven
    · rw [if_neg hnull] at h
      simp only [bind_eq_ok, Value.require_eq_ok] at h
      rcases h with ⟨m, hm, version, hversion, h⟩
      -- who sends one replaces that version only
      by_cases hsame : sent.same version = true
      · simp only [hsame, if_true, pure_eq_ok] at h
        subst h
        refine ⟨rfl, ?_⟩
        intro v hv _
        exact ⟨version, by simp [versionOf, hm, hversion], by rw [hread v hv, hsame]⟩
      · simp [hsame, throw, throwThe, MonadExceptOf.throw] at h

/-- Only a text equals a text. -/
theorem eq_of_same_text {s : String} {v : Value} (h : (Value.text s).same v = true) :
    v = .text s := by
  cases v with
  | text t =>
    have hst : (s == t) = true := h
    rw [eq_of_beq hst]
  | _ => cases h

/-- An object with a version is only stored in place of one with that version. -/
theorem versionOf_of_current {c c' : Cluster} {a : Address} {object stored : Value}
    (hversioned : Versioned c' object) (h : c.current a object = .ok stored) :
    versionOf stored = versionOf object := by
  rcases hversioned with ⟨n, -, hn⟩
  rcases of_current h with ⟨-, hsent⟩
  -- the versions that are given out are texts, and equal texts are the same
  rcases hsent _ hn rfl with ⟨version, hversion, hsame⟩
  rw [hversion, hn, eq_of_same_text hsame]

/-- A replacement that is not refused stores the sent object with the status of the stored one. -/
theorem update_cases (c : Cluster) (object : Value) :
    (∃ f, c.update object = (.error f, c)) ∨
      ∃ a stored status base replaced, addressOf object = .ok a ∧ c.current a object = .ok stored ∧
        stored.fieldOrNull "status" = .ok status ∧ object.setField "status" status = .ok base ∧
        withVersion base c.nextVersion = .ok replaced ∧
        c.update object = (.ok replaced, (c.bumped.withObject a replaced).recorded "update" a) := by
  refine (settle_cases c _).imp_right ?_
  rintro ⟨v, after, h, hsettle⟩
  simp only [bind_eq_ok, pure_eq_ok, Prod.mk.injEq] at h
  rcases h with ⟨a, ha, stored, hstored, status, hstatus, base, hbase, replaced, hreplaced, rfl, rfl⟩
  exact ⟨a, stored, status, base, replaced, ha, hstored, hstatus, hbase, hreplaced, hsettle⟩

/-- A replacement of the status that is not refused stores the stored object with the sent status. -/
theorem updateStatus_cases (c : Cluster) (object : Value) :
    (∃ f, c.updateStatus object = (.error f, c)) ∨
      ∃ a stored status base replaced, addressOf object = .ok a ∧ c.current a object = .ok stored ∧
        object.fieldOrNull "status" = .ok status ∧ stored.setField "status" status = .ok base ∧
        withVersion base c.nextVersion = .ok replaced ∧
        c.updateStatus object =
          (.ok replaced, (c.bumped.withObject a replaced).recorded "update_status" a) := by
  refine (settle_cases c _).imp_right ?_
  rintro ⟨v, after, h, hsettle⟩
  simp only [bind_eq_ok, pure_eq_ok, Prod.mk.injEq] at h
  rcases h with ⟨a, ha, stored, hstored, status, hstatus, base, hbase, replaced, hreplaced, rfl, rfl⟩
  exact ⟨a, stored, status, base, replaced, ha, hstored, hstatus, hbase, hreplaced, hsettle⟩

/-- The address is read from the metadata and the kind. -/
theorem addressOf_congr {v w : Value} (hmeta : v.field? "metadata" = w.field? "metadata")
    (hkind : v.field? "kind" = w.field? "kind") {a : Address} (h : addressOf w = .ok a) :
    addressOf v = .ok a := by
  rcases addressOf_eq_ok.mp h with ⟨metadata, hm, hk, hns, hname⟩
  exact addressOf_eq_ok.mpr ⟨metadata, hmeta.trans hm, hkind.trans hk, hns, hname⟩

theorem metadata_of_versionOf {object version : Value} (h : versionOf object = some version) :
    ∃ metadata, object.field? "metadata" = some metadata ∧
      metadata.field? "resourceVersion" = some version := by
  simpa [versionOf, Option.bind_eq_some_iff] using h

/-- An object that carries the version of the stored one may replace it. -/
theorem current_of_version {c : Cluster} {a : Address} {object stored : Value} {version : String}
    (hn : a.nameable = true) (hstored : c.find? a = some stored)
    (hversion : versionOf stored = some (.text version))
    (hsent : versionOf object = some (.text version)) : c.current a object = .ok stored := by
  rcases metadata_of_versionOf hsent with ⟨metadata, hmeta, hfield⟩
  rcases metadata_of_versionOf hversion with ⟨storedMeta, hstoredMeta, hstoredField⟩
  have hnull : (Value.text version).isNull = false := rfl
  have hsame : (Value.text version).same (.text version) = true := by simp [Value.same]
  simp only [current, checked_eq_ok.mpr ⟨hn, rfl⟩, hstored, Value.require_eq_ok.mpr hmeta,
    Value.fieldOrNull, Value.fieldOr_of_field? hfield, hnull, Value.require_eq_ok.mpr hstoredMeta,
    Value.require_eq_ok.mpr hstoredField, hsame, bind, Except.bind]
  rfl

/-- An object that carries another version than the stored one may not. -/
theorem update_of_other {c : Cluster} {a : Address} {object stored : Value} {version other : String}
    (hn : a.nameable = true) (haddr : addressOf object = .ok a) (hstored : c.find? a = some stored)
    (hversion : versionOf stored = some (.text version))
    (hsent : versionOf object = some (.text other)) (hne : other ≠ version) :
    ∃ message, c.update object = (.error (.conflict message), c) := by
  rcases metadata_of_versionOf hsent with ⟨metadata, hmeta, hfield⟩
  rcases metadata_of_versionOf hversion with ⟨storedMeta, hstoredMeta, hstoredField⟩
  have hnull : (Value.text other).isNull = false := rfl
  have hsame : (Value.text other).same (.text version) = false := by simpa [Value.same] using hne
  refine ⟨s!"{a.shown} was modified concurrently", ?_⟩
  simp only [update, haddr, current, checked_eq_ok.mpr ⟨hn, rfl⟩, hstored,
    Value.require_eq_ok.mpr hmeta, Value.fieldOrNull, Value.fieldOr_of_field? hfield, hnull,
    Value.require_eq_ok.mpr hstoredMeta, Value.require_eq_ok.mpr hstoredField, hsame, bind, Except.bind]
  rfl

/-- An object that carries the version of the stored one is stored, with the status of that one. -/
theorem update_of_version {c : Cluster} {a : Address} {object stored : Value} {version : String}
    (hn : a.nameable = true) (haddr : addressOf object = .ok a) (hstored : c.find? a = some stored)
    (hversion : versionOf stored = some (.text version))
    (hsent : versionOf object = some (.text version)) :
    ∃ status base replaced, object.setField "status" status = .ok base ∧
      withVersion base c.nextVersion = .ok replaced ∧
      c.update object = (.ok replaced, (c.bumped.withObject a replaced).recorded "update" a) := by
  rcases metadata_of_versionOf hversion with ⟨_, hread, -⟩
  rcases addressOf_eq_ok.mp haddr with ⟨_, hread', -⟩
  -- the status is the stored one, whatever is sent
  have hstatus : stored.fieldOrNull "status" = .ok ((stored.field? "status").getD .null) :=
    Value.fieldOr_eq_getD hread
  obtain ⟨base, hbase⟩ := Value.exists_setField hread' "status" ((stored.field? "status").getD .null)
  have hbaseAddr : addressOf base = .ok a := by
    rw [addressOf_setField hbase (by decide) (by decide), haddr]
  rcases exists_withVersion hbaseAddr c.nextVersion with ⟨replaced, hreplaced⟩
  refine ⟨_, base, replaced, hbase, hreplaced, ?_⟩
  simp only [update, haddr, current_of_version hn hstored hversion hsent, hstatus, hbase, hreplaced,
    bind, Except.bind]
  rfl

/-- An object that was read and changed without touching its metadata is stored. -/
theorem update_of_read {c : Cluster} {a : Address} {existing changed : Value} {version : String}
    (hn : a.nameable = true) (hstored : c.find? a = some existing)
    (haddr : addressOf existing = .ok a) (hversion : versionOf existing = some (.text version))
    (hmeta : changed.field? "metadata" = existing.field? "metadata")
    (hkind : changed.field? "kind" = existing.field? "kind") :
    ∃ replaced, addressOf replaced = .ok a ∧ versionOf replaced = some c.nextVersion ∧
      (∀ key, key ≠ "metadata" → key ≠ "status" → replaced.field? key = changed.field? key) ∧
      c.update changed = (.ok replaced, (c.bumped.withObject a replaced).recorded "update" a) := by
  have haddr' : addressOf changed = .ok a :=
    addressOf_congr hmeta hkind haddr
  -- the version that was read is sent back with the metadata
  have hversion' : versionOf changed = some (.text version) := by
    rw [← hversion]
    simp only [versionOf, hmeta]
  rcases update_of_version hn haddr' hstored hversion hversion' with
    ⟨status, base, replaced, hbase, hreplaced, hupdate⟩
  have hbaseAddr : addressOf base = .ok a := by
    rw [addressOf_setField hbase (by decide) (by decide), haddr']
  refine ⟨replaced, (addressOf_withVersion hreplaced).trans hbaseAddr,
    versionOf_withVersion hreplaced, ?_, hupdate⟩
  intro key hmetaKey hstatusKey
  rw [field?_withVersion hreplaced hmetaKey, Value.field?_setField_of_ne hbase hstatusKey]

/-- An object that was read and given another status is stored with it. -/
theorem updateStatus_of_read {c : Cluster} {a : Address} {existing changed status : Value}
    {version : String} (hn : a.nameable = true) (hstored : c.find? a = some existing)
    (haddr : addressOf existing = .ok a) (hversion : versionOf existing = some (.text version))
    (hset : existing.setField "status" status = .ok changed) :
    ∃ replaced, addressOf replaced = .ok a ∧ replaced.field? "status" = some status ∧
      withVersion changed c.nextVersion = .ok replaced ∧
      c.updateStatus changed =
        (.ok replaced, (c.bumped.withObject a replaced).recorded "update_status" a) := by
  have haddr' : addressOf changed = .ok a := by
    rw [addressOf_setField hset (by decide) (by decide), haddr]
  have hversion' : versionOf changed = some (.text version) := by
    rw [versionOf_setField hset (by decide), hversion]
  -- nobody was faster, since the version is still the stored one
  have hcurrent := current_of_version hn hstored hversion hversion'
  have hstatus : changed.fieldOrNull "status" = .ok status :=
    Value.fieldOr_of_field? (Value.field?_setField hset) _
  rcases exists_withVersion haddr' c.nextVersion with ⟨replaced, hreplaced⟩
  refine ⟨replaced, (addressOf_withVersion hreplaced).trans haddr', ?_, hreplaced, ?_⟩
  · rw [field?_withVersion hreplaced (by decide), Value.field?_setField hset]
  · simp only [updateStatus, haddr', hcurrent, hstatus, hset, hreplaced, bind, Except.bind]
    rfl

/-! ## Removals -/

/-- What is removed from its address is not found there, and what is stored elsewhere is found as before. -/
theorem lookup_filter_ne (a b : Address) (objects : List (Address × Value)) :
    (objects.filter fun entry => !decide (entry.1 = a)).lookup b =
      if b = a then none else objects.lookup b := by
  induction objects with
  | nil => simp
  | cons entry rest ih =>
    rcases entry with ⟨c, object⟩
    by_cases hc : c = a
    · -- the entry is removed, and it is not the one that is looked up
      subst hc
      by_cases h : b = c
      · simpa [h] using ih
      · simpa [List.lookup_cons, beq_false_of_ne h, h] using ih
    · by_cases h : b = c
      · simp [hc, h]
      · simpa [hc, List.lookup_cons, beq_false_of_ne h] using ih

/-- What is removed is gone, and nothing else. -/
theorem find?_delete (c : Cluster) (a b : Address) :
    (c.delete a).find? b = if b = a then none else c.find? b := by
  simpa [delete, find?] using lookup_filter_ne a b c.objects

/-! ## Edits in place -/

/-- The cluster after an object was edited in place, as far as that is possible. -/
def edited (a : Address) (change : Value → Except Fault Value) (c : Cluster) : Cluster :=
  match c.edit a change with
  | .ok (some after) => after
  | _ => c

/-- An edit in place changes one object, and there is one there before and after. -/
theorem edited_cases (a : Address) (change : Value → Except Fault Value) (c : Cluster) :
    edited a change c = c ∨
      ∃ before after, c.find? a = some before ∧ change before = .ok after ∧
        edited a change c = c.withObject a after := by
  unfold edited edit
  cases hfind : c.find? a with
  | none => exact .inl rfl
  | some before =>
    cases hchange : change before with
    | ok after => exact .inr ⟨before, after, rfl, hchange, by simp [bind, Except.bind, hchange, pure,
        Except.pure]⟩
    | error f => exact .inl (by simp [bind, Except.bind, hchange])

end Reconciler.Cluster
