import Mathlib.Data.List.Perm.Subperm
import Reconciler.Proofs.Value

/-! # Equality of contents is an equivalence

Conditions are found by their types, and types are compared by their contents. On values in which no object
names a field twice, this is an equivalence: `Value.same_refl`, `Value.same_symm`, `Value.same_trans`. Of
objects it is decided by looking up the fields of the one in the other, so that turning it around takes a
count of the names.
-/

namespace Reconciler

namespace Value

/-! ## What a value is the same as -/

/-- Only null equals null. -/
theorem same_null_iff {w : Value} : Value.null.same w = true ↔ w = .null := by
  cases w <;> simp [same, number?]

/-- Only a text equals a text, and it is the same. -/
theorem same_text_iff {s : String} {w : Value} : (Value.text s).same w = true ↔ w = .text s := by
  cases w with
  | text t => rw [same, beq_iff_eq, text.injEq, eq_comm]
  | _ => simp [same, number?]

/-- A number is the same as what counts as that number. -/
theorem same_number_iff {v w : Value} {p : Rat} (h : v.number? = some p) :
    v.same w = true ↔ w.number? = some p := by
  have hpq : ∀ q : Rat, (p == q) = true ↔ some q = some p := by
    intro q
    rw [beq_iff_eq, Option.some.injEq, eq_comm]
  cases v with
  | null | text _ | list _ | object _ => cases h
  | bool _ | integer _ | real _ =>
    obtain rfl := Option.some.inj h
    cases w with
    | null | text _ | list _ | object _ => simp [same, number?]
    | bool _ | integer _ | real _ => exact hpq _

theorem ProperFields.of_mem {key : String} {v : Value} {fields : Fields} (h : ProperFields fields)
    (hmem : (key, v) ∈ fields) : v.Proper := by
  induction fields with
  | nil => simp at hmem
  | cons field rest ih =>
    rcases List.mem_cons.mp hmem with rfl | hrest
    · exact h.1
    · exact ih h.2 hrest

/-- Every field of the first list is found in the second. -/
theorem sameFields_iff {xs ys : Fields} :
    sameFields xs ys = true ↔
      ∀ key v, (key, v) ∈ xs → ∃ w, Fields.find? key ys = some w ∧ v.same w = true := by
  -- the induction is on the fields of the first list, and the keys of the second are looked up
  induction xs with
  | nil => simp [sameFields]
  | cons field rest ih =>
    rcases field with ⟨key, v⟩
    rw [sameFields, Bool.and_eq_true, ih]
    cases hfind : Fields.find? key ys with
    | none =>
      refine ⟨fun h => absurd h.1 (by simp), fun h => ?_⟩
      rcases h key v (by simp) with ⟨w, hw, -⟩
      rw [hfind] at hw
      cases hw
    | some w =>
      constructor
      · rintro ⟨hsame, hrest⟩ k u hmem
        rcases List.mem_cons.mp hmem with heq | hmem
        · rcases Prod.mk.inj heq with ⟨rfl, rfl⟩
          exact ⟨w, hfind, hsame⟩
        · exact hrest k u hmem
      · intro h
        rcases h key v (by simp) with ⟨w', hw', hsame⟩
        -- a key is found once
        obtain rfl : w = w' := Option.some.inj (hfind.symm.trans hw')
        exact ⟨hsame, fun k u hmem => h k u (List.mem_cons_of_mem _ hmem)⟩

/-- Of two lists of fields of one length, with no name twice, the second has no names beside those of the
first if it has all of these. -/
theorem names_subset {xs ys : Fields} (hnodup : (Fields.names xs).Nodup)
    (hlength : xs.length = ys.length) (hsub : Fields.names xs ⊆ Fields.names ys) :
    Fields.names ys ⊆ Fields.names xs := by
  have hperm : (Fields.names xs).Perm (Fields.names ys) :=
    (hnodup.subperm hsub).perm_of_length_le (by simp [Fields.names, hlength])
  exact hperm.symm.subset

/-- Equality of objects is turned around field by field. -/
theorem sameFields_symm_of {xs ys : Fields} (hxs : (Fields.names xs).Nodup)
    (hys : (Fields.names ys).Nodup) (hlength : xs.length = ys.length)
    (hfields : ∀ key v, (key, v) ∈ xs → ∀ w, (key, w) ∈ ys → v.same w = true → w.same v = true)
    (h : sameFields xs ys = true) : sameFields ys xs = true := by
  rw [sameFields_iff] at h ⊢
  -- as many keys on both sides, so the keys of the one are those of the other
  have hsub : Fields.names xs ⊆ Fields.names ys := by
    intro key hkey
    rcases List.mem_map.mp hkey with ⟨⟨_, v⟩, hmem, rfl⟩
    rcases h _ v hmem with ⟨w, hw, -⟩
    exact List.mem_map.mpr ⟨_, Fields.mem_of_find? hw, rfl⟩
  intro key w hmem
  rcases List.mem_map.mp (names_subset hxs hlength hsub (List.mem_map.mpr ⟨_, hmem, rfl⟩)) with
    ⟨⟨_, v⟩, hv, rfl⟩
  rcases h _ v hv with ⟨w', hw', hsame⟩
  obtain rfl : w' = w := Option.some.inj (hw'.symm.trans (find?_of_mem hys hmem))
  exact ⟨v, find?_of_mem hxs hv, hfields _ v hv w' hmem hsame⟩

mutual

/-- Equality of proper values can be turned around: numbers by their value, lists item by item, objects field
by field. -/
theorem same_symm : (v w : Value) → v.Proper → w.Proper → v.same w = true → w.same v = true
  | .null, _, _, _, h => by
    obtain rfl := same_null_iff.mp h
    exact h
  | .text _, _, _, _, h => by
    obtain rfl := same_text_iff.mp h
    exact h
  | .bool _, _, _, _, h => (same_number_iff ((same_number_iff rfl).mp h)).mpr rfl
  | .integer _, _, _, _, h => (same_number_iff ((same_number_iff rfl).mp h)).mpr rfl
  | .real _, _, _, _, h => (same_number_iff ((same_number_iff rfl).mp h)).mpr rfl
  | .list xs, w, hv, hw, h => by
    cases w with
    | list ys =>
      rw [same] at h ⊢
      exact sameItems_symm xs ys hv hw h
    | _ => simp [same, number?] at h
  | .object xs, w, hv, hw, h => by
    cases w with
    | object ys =>
      rw [same, Bool.and_eq_true, beq_iff_eq] at h ⊢
      refine ⟨h.1.symm, sameFields_symm_of hv.1 hw.1 h.1 ?_ h.2⟩
      intro key v hmem w hmem'
      -- a field of each, which are smaller than the objects
      exact same_symm_of_mem xs hv.2 key v hmem w (hw.2.of_mem hmem')
    | _ => simp [same, number?] at h

/-- Lists are turned around item by item. -/
theorem sameItems_symm : (xs ys : List Value) → ProperItems xs → ProperItems ys →
    sameItems xs ys = true → sameItems ys xs = true
  | [], [], _, _, _ => rfl
  | [], _ :: _, _, _, h => by simp [sameItems] at h
  | _ :: _, [], _, _, h => by simp [sameItems] at h
  | x :: xs, y :: ys, hxs, hys, h => by
    rw [sameItems, Bool.and_eq_true] at h ⊢
    exact ⟨same_symm x y hxs.1 hys.1 h.1, sameItems_symm xs ys hxs.2 hys.2 h.2⟩

theorem same_symm_of_mem : (xs : List (String × Value)) → ProperFields xs → ∀ key v, (key, v) ∈ xs →
    ∀ w, w.Proper → v.same w = true → w.same v = true
  | [], _, _, _, hmem, _, _, _ => by simp at hmem
  | (k, x) :: rest, hxs, key, v, hmem, w, hw, h => by
    rcases List.mem_cons.mp hmem with heq | hrest
    · rcases Prod.mk.inj heq with ⟨-, rfl⟩
      exact same_symm v w hxs.1 hw h
    · exact same_symm_of_mem rest hxs.2 key v hrest w hw h

end

mutual

/-- Values equal to the same one are equal. -/
theorem same_trans : (u v w : Value) → u.same v = true → v.same w = true → u.same w = true
  | .null, _, _, h, h' => by
    obtain rfl := same_null_iff.mp h
    exact h'
  | .text _, _, _, h, h' => by
    obtain rfl := same_text_iff.mp h
    exact h'
  | .bool _, _, _, h, h' =>
    (same_number_iff rfl).mpr ((same_number_iff ((same_number_iff rfl).mp h)).mp h')
  | .integer _, _, _, h, h' =>
    (same_number_iff rfl).mpr ((same_number_iff ((same_number_iff rfl).mp h)).mp h')
  | .real _, _, _, h, h' =>
    (same_number_iff rfl).mpr ((same_number_iff ((same_number_iff rfl).mp h)).mp h')
  | .list xs, v, w, h, h' => by
    cases v with
    | list ys =>
      cases w with
      | list zs =>
        rw [same] at h h' ⊢
        exact sameItems_trans xs ys zs h h'
      | _ => simp [same, number?] at h'
    | _ => simp [same, number?] at h
  | .object xs, v, w, h, h' => by
    cases v with
    | object ys =>
      cases w with
      | object zs =>
        rw [same, Bool.and_eq_true, beq_iff_eq] at h h' ⊢
        refine ⟨h.1.trans h'.1, sameFields_iff.mpr ?_⟩
        intro key v hmem
        rcases sameFields_iff.mp h.2 key v hmem with ⟨y, hy, hvy⟩
        rcases sameFields_iff.mp h'.2 key y (Fields.mem_of_find? hy) with ⟨z, hz, hyz⟩
        -- the field is looked up in the second object, and what is found there in the third
        exact ⟨z, hz, same_trans_of_mem xs key v hmem y z hvy hyz⟩
      | _ => simp [same, number?] at h'
    | _ => simp [same, number?] at h

/-- For lists, this is so item by item. -/
theorem sameItems_trans : (xs ys zs : List Value) → sameItems xs ys = true →
    sameItems ys zs = true → sameItems xs zs = true
  | [], [], [], _, _ => rfl
  | x :: xs, y :: ys, z :: zs, h, h' => by
    rw [sameItems, Bool.and_eq_true] at h h' ⊢
    exact ⟨same_trans x y z h.1 h'.1, sameItems_trans xs ys zs h.2 h'.2⟩

theorem same_trans_of_mem : (xs : List (String × Value)) → ∀ key v, (key, v) ∈ xs → ∀ y z,
    v.same y = true → y.same z = true → v.same z = true
  | [], _, _, hmem, _, _, _, _ => by simp at hmem
  | (k, x) :: rest, key, v, hmem, y, z, h, h' => by
    rcases List.mem_cons.mp hmem with heq | hrest
    · rcases Prod.mk.inj heq with ⟨-, rfl⟩
      exact same_trans v y z h h'
    · exact same_trans_of_mem rest key v hrest y z h h'

end

end Value

end Reconciler
