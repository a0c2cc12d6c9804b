import Reconciler.Access

/-! # Reading back what was set

Setting a field of an object is seen by reads of that field and by no others. Reads and changes succeed
exactly on the shapes they are made for, so a change that succeeded says what it was made to.
-/

namespace Reconciler

/-- A sequence of reads succeeds when the first does and the second does with its value. -/
theorem bind_eq_ok {ε α β : Type} {read : Except ε α} {next : α → Except ε β} {b : β} :
    (read >>= next) = .ok b ↔ ∃ a, read = .ok a ∧ next a = .ok b := by
  cases read with
  | ok a => simp [bind, Except.bind]
  | error f => simp [bind, Except.bind]

/-- A read that fails nowhere comes to its value. -/
theorem pure_eq_ok {ε α : Type} {a b : α} : (pure a : Except ε α) = .ok b ↔ a = b := by
  simp [pure, Except.pure]

theorem toOption_eq_some {ε α : Type} {read : Except ε α} {a : α} :
    read.toOption = some a ↔ read = .ok a := by
  cases read with
  | ok b => simp [Except.toOption]
  | error f => simp [Except.toOption]

namespace Fields

/-- What is found is there. -/
theorem mem_of_find? {key : String} {v : Value} {fields : Fields} (h : find? key fields = some v) :
    (key, v) ∈ fields := by
  induction fields with
  | nil => simp [find?] at h
  | cons field rest ih =>
    rcases field with ⟨k, w⟩
    by_cases hk : k = key
    · obtain rfl : w = v := by simpa [find?, hk] using h
      simp [hk]
    · exact List.mem_cons_of_mem _ (ih (by simpa [find?, hk] using h))

/-- A field that is set is found. -/
theorem find?_insert (key : String) (value : Value) (fields : Fields) :
    find? key (insert key value fields) = some value := by
  induction fields with
  | nil => simp [insert, find?]
  | cons field rest ih =>
    rcases field with ⟨k, v⟩
    -- the field is set where its name is first found
    by_cases hk : k = key
    · simp [insert, find?, hk]
    · simpa [insert, find?, hk] using ih

/-- Fields of other names are found as before. -/
theorem find?_insert_of_ne {key other : String} (h : other ≠ key) (value : Value)
    (fields : Fields) : find? other (insert key value fields) = find? other fields := by
  induction fields with
  | nil => simp [insert, find?, h.symm]
  | cons field rest ih =>
    rcases field with ⟨k, v⟩
    by_cases hk : k = key
    · have hkey : key ≠ other := h.symm
      simp [insert, find?, hk, hkey]
    · simp only [insert, if_neg hk, find?]
      rw [ih]

/-- Of a field that is set twice, the second value stays. -/
theorem insert_insert (key : String) (first second : Value) (fields : Fields) :
    insert key second (insert key first fields) = insert key second fields := by
  induction fields with
  | nil => simp [insert]
  | cons field rest ih =>
    rcases field with ⟨k, v⟩
    by_cases hk : k = key
    · simp [insert, hk]
    · simp [insert, hk, ih]

theorem insert_ne_nil (key : String) (value : Value) (fields : Fields) :
    insert key value fields ≠ [] := by
  cases fields with
  | nil => simp [insert]
  | cons field rest =>
    rcases field with ⟨k, v⟩
    by_cases hk : k = key
    · simp [insert, hk]
    · simp [insert, hk]

/-- Setting many fields at once leaves the others alone. -/
theorem find?_merge_of_not_mem {key : String} (changes : Fields)
    (h : ∀ change ∈ changes, change.1 ≠ key) (fields : Fields) :
    find? key (merge fields changes) = find? key fields := by
  induction changes generalizing fields with
  | nil => rfl
  | cons change rest ih =>
    rcases change with ⟨k, v⟩
    have hk : key ≠ k := fun e => h (k, v) (by simp) e.symm
    rw [merge, ih (fun c hc => h c (by simp [hc])), find?_insert_of_ne hk]

/-- Of fields that are set at once, each under a name of its own, all are found, and the others as before. -/
theorem find?_merge {changes : Fields} (h : (changes.map Prod.fst).Nodup) (key : String)
    (fields : Fields) :
    find? key (merge fields changes) = (find? key changes).or (find? key fields) := by
  induction changes generalizing fields with
  | nil => rfl
  | cons change rest ih =>
    rcases change with ⟨k, v⟩
    rcases List.nodup_cons.mp h with ⟨hfresh, hrest⟩
    rw [merge, ih hrest]
    by_cases hk : key = k
    · subst hk
      -- the name does not come up again
      have hnone : find? key rest = none := by
        refine Option.eq_none_iff_forall_ne_some.mpr fun w hw => hfresh ?_
        exact List.mem_map.mpr ⟨_, mem_of_find? hw, rfl⟩
      simp [hnone, find?_insert, find?]
    · simp [find?_insert_of_ne hk, find?, Ne.symm hk]

theorem merge_ne_nil {changes : Fields} (h : changes ≠ []) (fields : Fields) :
    merge fields changes ≠ [] := by
  induction changes generalizing fields with
  | nil => exact absurd rfl h
  | cons change rest ih =>
    rcases change with ⟨k, v⟩
    cases rest with
    | nil => exact insert_ne_nil k v fields
    -- whatever is set first, something is set last
    | cons next rest => exact ih (by simp) _

end Fields

namespace Value

/-! ## Reads -/

/-- Asking for a field comes to its value, if it is there. -/
theorem require_eq_ok {v w : Value} {key : String} :
    v.require key = .ok w ↔ v.field? key = some w := by
  cases v with
  | object fields =>
    simp only [require, field?]
    cases Fields.find? key fields <;> simp
  | _ => simp [require, field?]

/-- Asking for a field with a default only fails where there are no fields at all. -/
theorem fieldOr_eq_ok {v w default : Value} {key : String} :
    v.fieldOr key default = .ok w ↔
      ∃ fields, v = .object fields ∧ (Fields.find? key fields).getD default = w := by
  cases v <;> simp [fieldOr]

theorem fieldOr_of_field? {v w : Value} {key : String} (h : v.field? key = some w)
    (default : Value) : v.fieldOr key default = .ok w := by
  cases v with
  | object fields =>
    have hfind : Fields.find? key fields = some w := h
    simp [fieldOr, hfind]
  | _ => simp [field?] at h

/-- An object that has any field at all can be asked for any other. -/
theorem fieldOr_eq_getD {v w default : Value} {key other : String} (h : v.field? key = some w) :
    v.fieldOr other default = .ok ((v.field? other).getD default) := by
  cases v with
  | object fields => rfl
  | _ => simp [field?] at h

/-! ## Changes -/

/-- Setting a field only fails where there are no fields at all. -/
theorem setField_eq_ok {v o value : Value} {key : String} :
    v.setField key value = .ok o ↔
      ∃ fields, v = .object fields ∧ o = .object (Fields.insert key value fields) := by
  cases v with
  | object fields => simp [setField, eq_comm]
  | _ => simp [setField]

/-- A field that is set has the value it is set to. -/
theorem field?_setField {v o value : Value} {key : String} (h : v.setField key value = .ok o) :
    o.field? key = some value := by
  rcases setField_eq_ok.mp h with ⟨fields, rfl, rfl⟩
  exact Fields.find?_insert key value fields

/-- No other field changes. -/
theorem field?_setField_of_ne {v o value : Value} {key other : String}
    (h : v.setField key value = .ok o) (hne : other ≠ key) : o.field? other = v.field? other := by
  rcases setField_eq_ok.mp h with ⟨fields, rfl, rfl⟩
  exact Fields.find?_insert_of_ne hne value fields

theorem require_setField_of_ne {v o value : Value} {key other : String}
    (h : v.setField key value = .ok o) (hne : other ≠ key) : o.require other = v.require other := by
  rcases setField_eq_ok.mp h with ⟨fields, rfl, rfl⟩
  simp only [require, Fields.find?_insert_of_ne hne]

theorem fieldOr_setField_of_ne {v o value default : Value} {key other : String}
    (h : v.setField key value = .ok o) (hne : other ≠ key) :
    o.fieldOr other default = v.fieldOr other default := by
  rcases setField_eq_ok.mp h with ⟨fields, rfl, rfl⟩
  simp only [fieldOr, Fields.find?_insert_of_ne hne]

/-- A default is filled in where the field is absent. -/
theorem withDefault_eq_ok {v o default : Value} {key : String} :
    v.withDefault key default = .ok o ↔
      ∃ fields, v = .object fields ∧
        o = .object (if Fields.contains key fields then fields else Fields.insert key default fields) := by
  cases v with
  | object fields =>
    constructor
    · rintro ⟨⟩
      exact ⟨fields, rfl, rfl⟩
    · rintro ⟨_, ⟨⟩, rfl⟩
      rfl
  | _ => simp [withDefault]

/-- A default is what is read of a field that was absent. -/
theorem field?_withDefault {v o default : Value} {key : String}
    (h : v.withDefault key default = .ok o) : o.field? key = some ((v.field? key).getD default) := by
  rcases withDefault_eq_ok.mp h with ⟨fields, rfl, rfl⟩
  -- a field that is there is kept, one that is not is added
  by_cases hkey : Fields.contains key fields
  · rcases Option.isSome_iff_exists.mp hkey with ⟨w, hw⟩
    simp [field?, hkey, hw]
  · have hnone : Fields.find? key fields = none := by simpa [Fields.contains] using hkey
    simp [field?, hkey, hnone, Fields.find?_insert]

/-- No other field changes when a default is filled in. -/
theorem field?_withDefault_of_ne {v o default : Value} {key other : String}
    (h : v.withDefault key default = .ok o) (hne : other ≠ key) :
    o.field? other = v.field? other := by
  rcases withDefault_eq_ok.mp h with ⟨fields, rfl, rfl⟩
  split
  · rfl
  · exact Fields.find?_insert_of_ne hne default fields

/-- An object has fields to set; it has one as soon as it can be read. -/
theorem exists_setField {v w : Value} {key : String} (h : v.field? key = some w) (other : String)
    (value : Value) : ∃ o, v.setField other value = .ok o := by
  cases v with
  | object fields => exact ⟨_, rfl⟩
  | _ => simp [field?] at h

/-- What has a field has fields, so a default can be filled in. -/
theorem exists_withDefault {v w : Value} {key : String} (h : v.field? key = some w) (other : String)
    (default : Value) : ∃ o, v.withDefault other default = .ok o := by
  cases v with
  | object fields => exact ⟨_, rfl⟩
  | _ => simp [field?] at h

/-- A field that is there keeps its value. -/
theorem withDefault_of_field? {v w : Value} {key : String} (h : v.field? key = some w) (default : Value) :
    v.withDefault key default = .ok v := by
  cases v with
  | object fields =>
    have hkey : Fields.contains key fields = true := Option.isSome_iff_exists.mpr ⟨w, h⟩
    simp [withDefault, hkey]
  | _ => simp [field?] at h

/-- Of two values for the same field the second stays. -/
theorem setField_setField {v o first : Value} {key : String} (h : v.setField key first = .ok o)
    (second : Value) : o.setField key second = v.setField key second := by
  rcases setField_eq_ok.mp h with ⟨fields, rfl, rfl⟩
  simp [setField, Fields.insert_insert]

theorem spread_eq_ok {v : Value} {fields : Fields} : v.spread = .ok fields ↔ v = .object fields := by
  cases v <;> simp [spread]

/-- A value that stands in for an absent one is an object only if the value was an object or absent. -/
theorem orElse_of_truthy {v default : Value} (h : v.truthy = true) : v.orElse default = v := by
  simp [orElse, h]

theorem truthy_object {fields : Fields} (h : fields ≠ []) : (object fields).truthy = true := by
  cases fields with
  | nil => exact absurd rfl h
  | cons field rest => rfl

@[simp] theorem nameable_text (s : String) : (text s).nameable = true := rfl

/-! ## Parts that may be absent -/

/-- A part that is an object, null or absent. -/
def ObjectOrNone (part : Option Value) : Prop :=
  part = none ∨ part = some .null ∨ ∃ fields, part = some (.object fields)

/-- A part that is a list, null or absent. -/
def ListOrNone (part : Option Value) : Prop :=
  part = none ∨ part = some .null ∨ ∃ items, part = some (.list items)

/-- What is absent is read as an object without fields. -/
theorem ObjectOrNone.read {part : Option Value} (h : ObjectOrNone part) :
    ∃ fields, (part.getD .null).orElse (.object []) = .object fields ∧
      ∀ key, Fields.find? key fields = part.bind (·.field? key) := by
  rcases h with rfl | rfl | ⟨fields, rfl⟩
  · exact ⟨[], rfl, fun key => rfl⟩
  · exact ⟨[], rfl, fun key => rfl⟩
  · refine ⟨fields, ?_, fun key => rfl⟩
    cases fields with
    | nil => rfl
    | cons field rest => rfl

/-- What is absent is gone through like an empty list. -/
theorem ListOrNone.read {part : Option Value} (h : ListOrNone part) :
    ∃ items, ((part.getD .null).orElse (.list [])).elements = .ok items ∧
      (items = [] ∨ part = some (.list items)) := by
  rcases h with rfl | rfl | ⟨items, rfl⟩
  · exact ⟨[], rfl, .inl rfl⟩
  · exact ⟨[], rfl, .inl rfl⟩
  · refine ⟨items, ?_, .inr rfl⟩
    cases items with
    | nil => rfl
    | cons item rest => rfl

/-! ## Equality of contents

Objects are equal when they have the same fields; so an object that names a field twice need not equal
itself. Objects of a cluster never do. -/

mutual

/-- A value in which no object names a field twice. -/
def Proper : Value → Prop
  | .list items => ProperItems items
  | .object fields => (Fields.names fields).Nodup ∧ ProperFields fields
  | _ => True

def ProperItems : List Value → Prop
  | [] => True
  | v :: rest => v.Proper ∧ ProperItems rest

def ProperFields : List (String × Value) → Prop
  | [] => True
  | (_, v) :: rest => v.Proper ∧ ProperFields rest

end

/-- Where no field is named twice, every field is found. -/
theorem find?_of_mem {key : String} {v : Value} {fields : Fields}
    (hnodup : (Fields.names fields).Nodup) (h : (key, v) ∈ fields) :
    Fields.find? key fields = some v := by
  induction fields with
  | nil => simp at h
  | cons field rest ih =>
    rcases field with ⟨k, w⟩
    simp only [Fields.names, List.map_cons, List.nodup_cons] at hnodup
    -- a later field is not hidden, because no name comes twice
    rcases List.mem_cons.mp h with heq | hmem
    · rcases Prod.mk.inj heq with ⟨rfl, rfl⟩
      simp [Fields.find?]
    · have hne : k ≠ key := by
        rintro rfl
        exact hnodup.1 (List.mem_map.mpr ⟨_, hmem, rfl⟩)
      simpa [Fields.find?, hne] using ih hnodup.2 hmem

mutual

/-- A proper value is the same as itself. -/
theorem same_refl : (v : Value) → v.Proper → v.same v = true
  | .null, _ => rfl
  | .bool b, _ => by simp [same, number?]
  | .integer n, _ => by simp [same, number?]
  | .real x, _ => by simp [same, number?]
  | .text s, _ => by simp [same]
  | .list items, h => by
    rw [same]
    exact sameItems_refl items h
  | .object fields, h => by
    rw [same, beq_self_eq_true, Bool.true_and]
    -- every field is looked up among all fields, so the whole list stays in sight
    exact sameFields_refl fields fields h.2 fun key v hmem => find?_of_mem h.1 hmem

/-- A list of proper values equals itself. -/
theorem sameItems_refl : (items : List Value) → ProperItems items → sameItems items items = true
  | [], _ => rfl
  | v :: rest, h => by
    rw [sameItems, same_refl v h.1, sameItems_refl rest h.2]
    rfl

/-- Fields whose values are proper are all found equal to themselves. -/
theorem sameFields_refl : (fields all : List (String × Value)) → ProperFields fields →
    (∀ key v, (key, v) ∈ fields → Fields.find? key all = some v) → sameFields fields all = true
  | [], _, _, _ => rfl
  | (key, v) :: rest, all, h, hall => by
    have hfind := hall key v (by simp)
    simp only [sameFields, hfind, same_refl v h.1, Bool.true_and]
    exact sameFields_refl rest all h.2 fun k w hmem => hall k w (by simp [hmem])

end

theorem ProperFields.find? {key : String} {v : Value} {fields : Fields} (h : ProperFields fields)
    (hfind : Fields.find? key fields = some v) : v.Proper := by
  induction fields with
  | nil => simp [Fields.find?] at hfind
  | cons field rest ih =>
    rcases field with ⟨k, w⟩
    by_cases hk : k = key
    · obtain rfl : w = v := by simpa [Fields.find?, hk] using hfind
      exact h.1
    · exact ih h.2 (by simpa [Fields.find?, hk] using hfind)

/-- Parts of proper values are proper. -/
theorem Proper.field? {v w : Value} {key : String} (h : v.Proper) (hfield : v.field? key = some w) :
    w.Proper := by
  cases v with
  | object fields => exact ProperFields.find? h.2 hfield
  | _ => simp [Value.field?] at hfield

theorem Proper.orElse {v default : Value} (h : v.Proper) (hdefault : default.Proper) :
    (v.orElse default).Proper := by
  unfold Value.orElse
  split
  · exact h
  · exact hdefault

/-! ### Changes of proper values -/

/-- Setting a field adds its name, and no other. -/
theorem mem_names_insert {key name : String} {value : Value} {fields : Fields} :
    name ∈ Fields.names (Fields.insert key value fields) ↔ name = key ∨ name ∈ Fields.names fields := by
  induction fields with
  | nil => simp [Fields.insert, Fields.names]
  | cons field rest ih =>
    rcases field with ⟨k, v⟩
    by_cases hk : k = key
    · simp [Fields.insert, Fields.names, hk]
    · simp only [Fields.insert, if_neg hk, Fields.names, List.map_cons, List.mem_cons] at ih ⊢
      rw [ih]
      exact or_left_comm

/-- Setting a field names none twice. -/
theorem nodup_names_insert {fields : Fields} (h : (Fields.names fields).Nodup) (key : String)
    (value : Value) : (Fields.names (Fields.insert key value fields)).Nodup := by
  induction fields with
  | nil => simp [Fields.insert, Fields.names]
  | cons field rest ih =>
    rcases field with ⟨k, v⟩
    have hcons : k ∉ Fields.names rest ∧ (Fields.names rest).Nodup := List.nodup_cons.mp h
    by_cases hk : k = key
    · subst hk
      simpa [Fields.insert, Fields.names] using hcons
    · -- the name of the first field is not the one that is set, so it stays the only one
      have hnot : k ∉ Fields.names (Fields.insert key value rest) := by
        rw [mem_names_insert]
        simp [hk, hcons.1]
      have hrest : (k :: Fields.names (Fields.insert key value rest)).Nodup :=
        List.nodup_cons.mpr ⟨hnot, ih hcons.2⟩
      simpa [Fields.insert, hk, Fields.names] using hrest

theorem ProperFields.insert {fields : Fields} (h : ProperFields fields) (key : String) {value : Value}
    (hvalue : value.Proper) : ProperFields (Fields.insert key value fields) := by
  induction fields with
  | nil => exact ⟨hvalue, trivial⟩
  | cons field rest ih =>
    rcases field with ⟨k, v⟩
    by_cases hk : k = key
    · rw [Fields.insert, if_pos hk]
      exact ⟨hvalue, h.2⟩
    · rw [Fields.insert, if_neg hk]
      exact ⟨h.1, ih h.2⟩

theorem Proper.insert {fields : Fields} (h : (object fields).Proper) (key : String) {value : Value}
    (hvalue : value.Proper) : (object (Fields.insert key value fields)).Proper :=
  ⟨nodup_names_insert h.1 key value, h.2.insert key hvalue⟩

/-- Setting proper values one after the other leaves an object proper. -/
theorem Proper.merge {fields changes : Fields} (h : (object fields).Proper)
    (hchanges : ProperFields changes) : (object (Fields.merge fields changes)).Proper := by
  induction changes generalizing fields with
  | nil => exact h
  | cons change rest ih => exact ih (h.insert _ hchanges.1) hchanges.2

/-- Setting a field to a proper value leaves an object proper. -/
theorem Proper.setField {v o value : Value} {key : String} (h : v.Proper) (hvalue : value.Proper)
    (hset : v.setField key value = .ok o) : o.Proper := by
  rcases setField_eq_ok.mp hset with ⟨fields, rfl, rfl⟩
  exact h.insert key hvalue

/-- Filling in a proper default leaves an object proper. -/
theorem Proper.withDefault {v o default : Value} {key : String} (h : v.Proper)
    (hdefault : default.Proper) (hset : v.withDefault key default = .ok o) : o.Proper := by
  rcases withDefault_eq_ok.mp hset with ⟨fields, rfl, rfl⟩
  split
  · exact h
  · exact h.insert key hdefault

end Value

end Reconciler
