import Reconciler.Proofs.Cluster

/-! # Parts of objects

A part of an object is reached by a path of field names. What a change leaves alone is said by naming the
parts it may touch: whatever is neither in one of them nor around one is as it was.

Main definitions and statements:

* `Value.part?`, `Apart`, `SameBut`: objects that differ in some parts at most;
* `SameBut.within`, `sameBut_merge`: how the parts of an object make up the whole;
* `SameBut.addressOf`, `SameBut.versionOf`: changes that do not move an object or make it another version.
-/

namespace Reconciler

/-- Names of fields that lead to a part of an object. -/
abbrev Path := List String

/-- The part at the end of a path, if there is one. -/
def Value.part? : Path → Value → Option Value
  | [], v => some v
  | key :: rest, v => (v.field? key).bind (part? rest)

/-- A path that neither leads into one of some parts nor ends around one. -/
def Apart (parts : List Path) (path : Path) : Prop :=
  ∀ p ∈ parts, ¬ p <+: path ∧ ¬ path <+: p

instance (parts : List Path) (path : Path) : Decidable (Apart parts path) :=
  inferInstanceAs (Decidable (∀ p ∈ parts, ¬ p <+: path ∧ ¬ path <+: p))

/-- Objects that differ in some parts at most. -/
def SameBut (parts : List Path) (v w : Value) : Prop :=
  ∀ path, Apart parts path → w.part? path = v.part? path

/-- Objects of which everything but some parts reads the same; what is absent reads as null. -/
def ReadsSameBut (parts : List Path) (v w : Value) : Prop :=
  ∀ path, Apart parts path → (w.part? path).getD .null = (v.part? path).getD .null

variable {parts parts' : List Path} {v w u x y o : Value} {key : String}

/-! ## Paths -/

/-- A path is followed step by step. -/
theorem Value.part?_append (path rest : Path) (v : Value) :
    v.part? (path ++ rest) = (v.part? path).bind (·.part? rest) := by
  induction path generalizing v with
  | nil => rfl
  | cons key path ih =>
    rw [List.cons_append, part?, part?, Option.bind_assoc]
    exact congrArg _ (funext ih)

theorem Apart.mono {path : Path} (h : Apart parts' path) (hsub : ∀ p ∈ parts, p ∈ parts') :
    Apart parts path :=
  fun p hp => h p (hsub p hp)

/-- The whole is around all parts. -/
theorem not_apart_nil (hne : parts ≠ []) : ¬ Apart parts [] := by
  intro h
  rcases List.exists_mem_of_ne_nil _ hne with ⟨p, hp⟩
  exact (h p hp).2 List.nil_prefix

/-- Inside a field, parts are apart if they are apart in what it holds. -/
theorem apart_cons_self {path : Path} :
    Apart (parts.map (key :: ·)) (key :: path) ↔ Apart parts path := by
  simp [Apart]

/-- Nothing is apart from the object itself. -/
theorem not_apart_singleton (path : Path) : ¬ Apart [[]] path := by
  intro h
  exact (h [] (by simp)).1 List.nil_prefix

/-! ## Changes -/

namespace SameBut

theorem trans (h : SameBut parts v w) (h' : SameBut parts w u) : SameBut parts v u :=
  fun path hpath => (h' path hpath).trans (h path hpath)

theorem mono (h : SameBut parts v w) (hsub : ∀ p ∈ parts, p ∈ parts') : SameBut parts' v w :=
  fun path hpath => h path (hpath.mono hsub)

theorem reads (h : SameBut parts v w) : ReadsSameBut parts v w :=
  fun path hpath => congrArg (·.getD .null) (h path hpath)

/-- A field that is set to something that differs from it in some parts. -/
theorem of_setField (hne : parts ≠ []) (hset : v.setField key x = .ok o)
    (hx : ∀ path, Apart parts path → x.part? path = (v.field? key).bind (·.part? path)) :
    SameBut (parts.map (key :: ·)) v o := by
  intro path hpath
  cases path with
  | nil => exact absurd hpath (not_apart_nil (by simpa using hne))
  | cons k rest =>
    -- only the path through the field sees the change
    by_cases hk : k = key
    · subst hk
      rw [Value.part?, Value.part?, Value.field?_setField hset]
      exact hx rest (apart_cons_self.mp hpath)
    · rw [Value.part?, Value.part?, Value.field?_setField_of_ne hset hk]

/-- A field that is replaced by one that differs from it in some parts. -/
theorem within (hne : parts ≠ []) (hx : v.field? key = some x) (hset : v.setField key y = .ok o)
    (hxy : SameBut parts x y) : SameBut (parts.map (key :: ·)) v o := by
  refine of_setField hne hset ?_
  intro path hpath
  rw [hx]
  exact hxy path hpath

/-- A field that is set is all that changes. -/
theorem set (hset : v.setField key x = .ok o) : SameBut [[key]] v o := by
  have hall : SameBut ([[]].map (key :: ·)) v o :=
    of_setField (by simp) hset fun path hpath => absurd hpath (not_apart_singleton path)
  exact hall

/-- An empty object in place of an absent field has no parts of its own. -/
theorem filled (h : v.withDefault key (.object []) = .ok o) (rest : Path) :
    SameBut [key :: rest] v o := by
  intro path hpath
  cases path with
  | nil => exact absurd hpath (not_apart_nil (by simp))
  | cons k path =>
    by_cases hk : k = key
    · subst hk
      rw [Value.part?, Value.part?, Value.field?_withDefault h]
      cases hfield : v.field? k with
      | some w => rfl
      | none =>
        -- the field itself is around the part, so the path goes on
        cases path with
        | nil =>
          have haround : [k] <+: k :: rest := List.cons_prefix_cons.mpr ⟨rfl, List.nil_prefix⟩
          exact absurd haround (hpath (k :: rest) (by simp)).2
        | cons l path => rfl
    · rw [Value.part?, Value.part?, Value.field?_withDefault_of_ne h hk]

end SameBut

/-- Fields that are set at once are all that changes. -/
theorem sameBut_merge (fields changes : Fields) :
    SameBut (changes.map fun change => [change.1]) (.object fields)
      (.object (Fields.merge fields changes)) := by
  intro path hpath
  cases path with
  | nil =>
    cases changes with
    | nil => rfl
    | cons change rest => exact absurd hpath (not_apart_nil (by simp))
  | cons k rest =>
    -- a path that is apart from all changed fields starts with none of their keys
    have hnot : ∀ change ∈ changes, change.1 ≠ k := by
      rintro change hchange rfl
      exact (hpath [change.1] (List.mem_map_of_mem hchange)).1 (by simp)
    simp only [Value.part?, Value.field?, Fields.find?_merge_of_not_mem changes hnot]

/-- What stands in for an absent object has the same parts. -/
theorem Value.part?_orElse (v : Value) (key : String) (rest : Path) :
    (v.orElse (.object [])).part? (key :: rest) = v.part? (key :: rest) := by
  unfold orElse
  split
  · rfl
  · next hfalsy =>
    -- a value that does not count as given has no fields
    cases v with
    | object fields =>
      cases fields with
      | nil => rfl
      | cons field fields => simp [truthy] at hfalsy
    | _ => rfl

/-! ## Addresses and versions -/

namespace Cluster

/-- The parts that say where an object is stored. -/
def addressParts : List Path := [["kind"], ["metadata", "namespace"], ["metadata", "name"]]

/-- The part that says which version of an object it is. -/
def versionPart : Path := ["metadata", "resourceVersion"]

/-- The version is one part of an object. -/
theorem versionOf_eq_part? (object : Value) : versionOf object = object.part? versionPart := by
  cases hmeta : object.field? "metadata" with
  | none => simp [versionOf, Value.part?, versionPart, hmeta]
  | some metadata =>
    cases hversion : metadata.field? "resourceVersion" <;>
      simp [versionOf, Value.part?, versionPart, hmeta, hversion]

end Cluster

open Cluster

/-- Changes elsewhere do not make an object another version. -/
theorem SameBut.versionOf (h : SameBut parts v w) (hversion : Apart parts versionPart) :
    Cluster.versionOf w = Cluster.versionOf v := by
  rw [versionOf_eq_part?, versionOf_eq_part?, h _ hversion]

/-- Changes elsewhere do not move an object. -/
theorem SameBut.addressOf {a : Address} (h : SameBut parts v w)
    (haddress : ∀ path ∈ addressParts, Apart parts path) (hv : Cluster.addressOf v = .ok a) :
    Cluster.addressOf w = .ok a := by
  rcases addressOf_eq_ok.mp hv with ⟨metadata, hmeta, hkind, hns, hname⟩
  have hkind' := h ["kind"] (haddress _ (by decide))
  have hns' := h ["metadata", "namespace"] (haddress _ (by decide))
  have hname' := h ["metadata", "name"] (haddress _ (by decide))
  simp only [Value.part?, hkind, hmeta, hname, Option.bind_some] at hkind' hns' hname'
  -- an object with a name has metadata to read the namespace from
  cases hmeta' : w.field? "metadata" with
  | none => simp [hmeta'] at hname'
  | some metadata' =>
    simp only [hmeta', Option.bind_some, Option.bind_fun_some] at hns' hname'
    refine addressOf_eq_ok.mpr ⟨metadata', hmeta', by simpa using hkind', ?_, by simpa using hname'⟩
    have hfield : metadata'.field? "name" = some a.name := by simpa using hname'
    rw [Value.fieldOr_eq_getD hfield, ← hns, Value.fieldOr_eq_getD hname]
    simp [hns']

/-- A new version changes nothing but the version. -/
theorem sameBut_withVersion {version : Value} (h : withVersion v version = .ok o) :
    SameBut [versionPart] v o := by
  rcases withVersion_eq_ok h with ⟨before, after, hbefore, -, hset, ho⟩
  have hmeta : SameBut ([["resourceVersion"]].map ("metadata" :: ·)) v o :=
    .within (by simp) hbefore ho (.set hset)
  exact hmeta

end Reconciler
