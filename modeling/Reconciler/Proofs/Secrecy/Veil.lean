import Reconciler.Proofs.Interleaving

/-! # Stores that differ in passwords

Two objects may be the same but for the password in their `stringData`. Two clusters are twins when their
objects are the same but for the passwords of some Secrets. A call never looks at a password: twins answer
the same call alike, and are twins afterwards.

Main definitions and statements:

* `Value.veiled`: a value without its password;
* `Cluster.secretsSince`: where Secrets were created;
* `Twins`: clusters that differ in the passwords at some addresses only;
* `Twins.get`, `Twins.create`, `Twins.update`: calls to twins.
-/

namespace Reconciler

/-! ## Values -/

namespace Fields

def adjust (key : String) (change : Value → Value) : Fields → Fields
  | [] => []
  | (k, v) :: rest => (k, if k = key then change v else v) :: adjust key change rest

variable {key other : String} {change : Value → Value}

/-- Fields of other names are as they were. -/
theorem find?_adjust_of_ne (hne : other ≠ key) (fields : Fields) :
    find? other (adjust key change fields) = find? other fields := by
  induction fields with
  | nil => rfl
  | cons f rest ih =>
    rcases f with ⟨k, v⟩
    by_cases hk : k = other
    · have hkey : k ≠ key := fun h => hne (hk.symm.trans h)
      simp [adjust, find?, hk, hk ▸ hkey]
    · simpa [adjust, find?, hk] using ih

theorem contains_adjust_of_ne (hne : other ≠ key) (fields : Fields) :
    contains other (adjust key change fields) = contains other fields := by
  rw [contains, find?_adjust_of_ne hne, contains]

theorem adjust_insert_of_ne (hne : other ≠ key) (value : Value) (fields : Fields) :
    adjust key change (insert other value fields) = insert other value (adjust key change fields) := by
  induction fields with
  | nil => simp [adjust, insert, hne]
  | cons f rest ih =>
    rcases f with ⟨k, v⟩
    by_cases hk : k = other
    · simp [adjust, insert, hk, hne]
    · simp [adjust, insert, hk, ih]

/-- A change that is made once and for all can be made again. -/
theorem adjust_adjust (hchange : ∀ v, change (change v) = change v) (fields : Fields) :
    adjust key change (adjust key change fields) = adjust key change fields := by
  induction fields with
  | nil => rfl
  | cons f rest ih =>
    rcases f with ⟨k, v⟩
    by_cases hk : k = key
    · simp [adjust, hk, hchange, ih]
    · simp [adjust, hk, ih]

end Fields

namespace Value

/-- A value with null at the end of a path of field names, if it has anything there. -/
def veiledAt : List String → Value → Value
  | [], _ => .null
  | key :: path, .object fields => .object (Fields.adjust key (veiledAt path) fields)
  | _ :: _, v => v

/-- What is veiled stays veiled. -/
theorem veiledAt_veiledAt (path : List String) (v : Value) :
    veiledAt path (veiledAt path v) = veiledAt path v := by
  induction path generalizing v with
  | nil => rfl
  | cons key path ih =>
    cases v with
    | object fields => simp only [veiledAt, Fields.adjust_adjust ih]
    | _ => rfl

/-- A value without the password in its `stringData`. -/
def veiled (v : Value) : Value :=
  v.veiledAt ["stringData", passwordKey]

theorem veiled_veiled (v : Value) : v.veiled.veiled = v.veiled :=
  veiledAt_veiledAt _ v

/-! ### Everything else is seen through the veil -/

variable {key : String}

/-- Fields but the plain data are read as if there were no veil. -/
theorem require_veiled (hkey : key ≠ "stringData") (v : Value) : v.veiled.require key = v.require key := by
  cases v with
  | object fields => simp only [veiled, veiledAt, require, Fields.find?_adjust_of_ne hkey]
  | _ => rfl

theorem fieldOr_veiled (hkey : key ≠ "stringData") (v default : Value) :
    v.veiled.fieldOr key default = v.fieldOr key default := by
  cases v with
  | object fields => simp only [veiled, veiledAt, fieldOr, Fields.find?_adjust_of_ne hkey]
  | _ => rfl

/-- Fields but the plain data are set as if there were no veil. -/
theorem setField_veiled (hkey : key ≠ "stringData") (v value : Value) :
    v.veiled.setField key value = veiled <$> v.setField key value := by
  cases v with
  | object fields =>
    exact congrArg (fun f => Except.ok (object f)) (Fields.adjust_insert_of_ne hkey value fields).symm
  | _ => rfl

/-- Fields but the plain data are filled in as if there were no veil. -/
theorem withDefault_veiled (hkey : key ≠ "stringData") (v default : Value) :
    v.veiled.withDefault key default = veiled <$> v.withDefault key default := by
  cases v with
  | object fields =>
    simp only [veiled, veiledAt, withDefault, Fields.contains_adjust_of_ne hkey]
    by_cases hthere : Fields.contains key fields = true
    · rw [if_pos hthere, if_pos hthere]
      rfl
    · rw [if_neg hthere, if_neg hthere]
      exact congrArg (fun f => Except.ok (object f)) (Fields.adjust_insert_of_ne hkey default fields).symm
  | _ => rfl

end Value

/-! ## Objects -/

namespace Cluster

/-- The address is not behind the veil. -/
theorem addressOf_veiled (object : Value) : addressOf object.veiled = addressOf object := by
  simp only [addressOf, Value.require_veiled (by decide : "metadata" ≠ "stringData"),
    Value.require_veiled (by decide : "kind" ≠ "stringData")]

/-- Nor is the version. -/
theorem withVersion_veiled (object version : Value) :
    withVersion object.veiled version = Value.veiled <$> withVersion object version := by
  simp only [withVersion, map_bind, Value.require_veiled (by decide : "metadata" ≠ "stringData"),
    Value.setField_veiled (by decide : "metadata" ≠ "stringData")]

/-- Nor is anything that is completed. -/
theorem completed_veiled (object : Value) :
    completed object.veiled = Value.veiled <$> completed object := by
  simp only [completed, map_bind, bind_map_left,
    Value.withDefault_veiled (by decide : "metadata" ≠ "stringData"),
    Value.require_veiled (by decide : "metadata" ≠ "stringData"),
    Value.setField_veiled (by decide : "metadata" ≠ "stringData")]

/-- An object as it is stored when it is put. -/
def stamped (version object : Value) : Except Fault Value := do
  withVersion (← completed object) version

/-- An object behind a veil is stored behind a veil. -/
theorem stamped_veiled (version object : Value) :
    stamped version object.veiled = Value.veiled <$> stamped version object := by
  simp only [stamped, completed_veiled, map_bind, bind_map_left, withVersion_veiled]

/-- What a create stores is the object that was stamped. -/
theorem create_of_free {c : Cluster} {object : Value} {a : Address}
    (haddr : addressOf object = .ok a) (hn : a.nameable = true) (hfree : c.find? a = none) :
    ∃ stored, stamped c.nextVersion object = .ok stored ∧
      c.create object = (.ok stored, (c.bumped.withObject a stored).recorded "create" a) := by
  obtain ⟨o, hcompleted, hoaddr, -⟩ := exists_completed haddr
  obtain ⟨stored, hstored⟩ := exists_withVersion hoaddr c.nextVersion
  have hsaddr : addressOf stored = .ok a := by rw [addressOf_withVersion hstored, hoaddr]
  have hchecked : checked a = .ok a := checked_eq_ok.mpr ⟨hn, rfl⟩
  refine ⟨stored, by rw [stamped, hcompleted]; exact hstored, ?_⟩
  simp only [create, put, haddr, hchecked, hfree, hcompleted, hstored, hsaddr, settle, bind,
    Except.bind, pure, Except.pure]
  rfl

end Cluster

/-! ## Twins -/

/-- An object behind a veil, when it is a Secret at one of the given addresses. -/
def veilAt (secrets : List Address) (a : Address) (object : Value) : Value :=
  if a ∈ secrets then object.veiled else object

/-- The clusters without the passwords at some addresses. -/
def Cluster.veiled (secrets : List Address) (c : Cluster) : Cluster :=
  { c with objects := c.objects.map fun e => (e.1, veilAt secrets e.1 e.2) }

/-- Clusters that differ in the passwords at some addresses only. -/
def Twins (secrets : List Address) (c c' : Cluster) : Prop :=
  c.veiled secrets = c'.veiled secrets

section Twins

open Cluster

variable {secrets : List Address} {c c' : Cluster} {a : Address} {v v' : Value}

/-- An object is found behind its veil. -/
theorem lookup_veiled (a : Address) (objects : List (Address × Value)) :
    (objects.map fun e => (e.1, veilAt secrets e.1 e.2)).lookup a =
      (objects.lookup a).map (veilAt secrets a) := by
  induction objects with
  | nil => rfl
  | cons e rest ih =>
    rcases e with ⟨b, other⟩
    by_cases hb : a = b
    · simp [hb]
    · simp only [List.map_cons, List.lookup_cons, beq_false_of_ne hb]
      exact ih

/-- An object is put behind its veil. -/
theorem place_veiled (a : Address) (object : Value) (objects : List (Address × Value)) :
    (place a object objects).map (fun e => (e.1, veilAt secrets e.1 e.2)) =
      place a (veilAt secrets a object) (objects.map fun e => (e.1, veilAt secrets e.1 e.2)) := by
  induction objects with
  | nil => rfl
  | cons e rest ih =>
    rcases e with ⟨b, other⟩
    by_cases hb : b = a
    · simp [place, hb]
    · simp [place, hb, ih]

/-- More addresses veil more. -/
theorem veilAt_mono {more : List Address} (hsub : secrets ⊆ more) (a : Address) (object : Value) :
    veilAt more a (veilAt secrets a object) = veilAt more a object := by
  unfold veilAt
  by_cases hsecret : a ∈ secrets
  · simp [hsecret, hsub hsecret, Value.veiled_veiled]
  · simp [hsecret]

/-- Twins stay twins when more is veiled. -/
theorem Twins.mono {more : List Address} (h : Twins secrets c c') (hsub : secrets ⊆ more) :
    Twins more c c' := by
  have hveiled : ∀ c : Cluster, (c.veiled secrets).veiled more = c.veiled more := by
    intro c
    simp only [Cluster.veiled, List.map_map, Function.comp_def, veilAt_mono hsub]
  rw [Twins, ← hveiled c, ← hveiled c']
  exact congrArg _ h

theorem Twins.refl (c : Cluster) : Twins secrets c c := rfl

theorem Twins.version (h : Twins secrets c c') : c.version = c'.version := by
  have hversion := congrArg Cluster.version h
  exact hversion

theorem Twins.journal (h : Twins secrets c c') : c.journal = c'.journal := by
  have hjournal := congrArg Cluster.journal h
  exact hjournal

theorem Twins.nextVersion (h : Twins secrets c c') : c.nextVersion = c'.nextVersion := by
  rw [Cluster.nextVersion, Cluster.nextVersion, h.version]

/-- At every address twins have objects that differ behind the veil at most. -/
theorem Twins.find? (h : Twins secrets c c') (a : Address) :
    (c.find? a).map (veilAt secrets a) = (c'.find? a).map (veilAt secrets a) := by
  have hobjects := congrArg (fun c => Cluster.find? c a) h
  exact (lookup_veiled a c.objects).symm.trans (hobjects.trans (lookup_veiled a c'.objects))

/-- Two objects that differ behind the veil at most are put into twins. -/
theorem Twins.withObject (h : Twins secrets c c') (hv : veilAt secrets a v = veilAt secrets a v') :
    Twins secrets (c.withObject a v) (c'.withObject a v') := by
  have hplaced : ∀ (c : Cluster) v, (c.withObject a v).veiled secrets =
      (c.veiled secrets).withObject a (veilAt secrets a v) := by
    intro c v
    simp only [Cluster.veiled, Cluster.withObject, place_veiled]
  rw [Twins, hplaced, hplaced, hv]
  exact congrArg (fun c => Cluster.withObject c a (veilAt secrets a v')) h

theorem Twins.bumped (h : Twins secrets c c') : Twins secrets c.bumped c'.bumped :=
  congrArg Cluster.bumped h

theorem Twins.recorded (h : Twins secrets c c') (operation : String) (a : Address) :
    Twins secrets (c.recorded operation a) (c'.recorded operation a) :=
  congrArg (fun c => Cluster.recorded c operation a) h

/-! ### Calls -/

/-- Replies that differ in a password at most. -/
def Alike {ε : Type} (r r' : Except ε Value) : Prop :=
  Value.veiled <$> r = Value.veiled <$> r'

/-- Either both replies are the same failure, or both are objects that differ in a password at most. -/
theorem alike_iff {ε : Type} {r r' : Except ε Value} :
    Alike r r' ↔ (∃ f, r = .error f ∧ r' = .error f) ∨
      ∃ v v', r = .ok v ∧ r' = .ok v' ∧ v.veiled = v'.veiled := by
  cases r with
  | error f =>
    cases r' with
    | error f' => simp [Alike, Functor.map, Except.map, eq_comm]
    | ok v' => simp [Alike, Functor.map, Except.map]
  | ok v =>
    cases r' with
    | error f' => simp [Alike, Functor.map, Except.map]
    | ok v' => simp [Alike, Functor.map, Except.map]

/-- What is stored at an address of twins. -/
theorem Twins.found (h : Twins secrets c c') (a : Address) :
    (c.find? a = none ∧ c'.find? a = none) ∨
      ∃ v v', c.find? a = some v ∧ c'.find? a = some v' ∧ v.veiled = v'.veiled ∧
        (a ∉ secrets → v = v') := by
  have hfind := h.find? a
  cases hv : c.find? a with
  | none =>
    rw [hv] at hfind
    exact .inl ⟨rfl, Option.map_eq_none_iff.mp hfind.symm⟩
  | some v =>
    cases hv' : c'.find? a with
    | none => simp [hv, hv'] at hfind
    | some v' =>
      -- behind the veil the two objects are one
      have hveil : veilAt secrets a v = veilAt secrets a v' := by simpa [hv, hv'] using hfind
      refine .inr ⟨v, v', rfl, rfl, ?_⟩
      by_cases hsecret : a ∈ secrets
      · have hveiled : v.veiled = v'.veiled := by simpa [veilAt, hsecret] using hveil
        exact ⟨hveiled, fun hnot => absurd hsecret hnot⟩
      · have hsame : v = v' := by simpa [veilAt, hsecret] using hveil
        exact ⟨congrArg _ hsame, fun _ => hsame⟩

/-- Twins answer a fetch alike, and the same when it is not from where a password is. -/
theorem Twins.get (h : Twins secrets c c') (a : Address) :
    Alike (c.get a).1 (c'.get a).1 ∧ (a ∉ secrets → (c.get a).1 = (c'.get a).1) := by
  by_cases hn : a.nameable = true
  · rcases h.found a with ⟨hnone, hnone'⟩ | ⟨v, v', hv, hv', hveiled, hsame⟩
    · rw [get_of_absent hn hnone, get_of_absent hn hnone']
      exact ⟨rfl, fun _ => rfl⟩
    · rw [get_of_find? hn hv, get_of_find? hn hv']
      exact ⟨congrArg Except.ok hveiled, fun hnot => congrArg Except.ok (hsame hnot)⟩
  · have hrefused : ∀ c : Cluster, c.get a = (.error .wrongShape, c) := by
      intro c
      simp [Cluster.get, settle, checked, hn, bind, Except.bind]
    rw [hrefused, hrefused]
    exact ⟨rfl, fun _ => rfl⟩

/-- Twins that get objects that differ in their passwords at most stay twins, behind a veil over the
address at which those objects are created. -/
theorem Twins.create {object object' : Value} {more : List Address} (h : Twins secrets c c')
    (hobject : object.veiled = object'.veiled) (hsub : secrets ⊆ more)
    (hmore : ∀ a, (c.create object).2.journal = c.journal ++ [⟨"create", a⟩] →
      object = object' ∨ a ∈ more) :
    Alike (c.create object).1 (c'.create object').1 ∧
      Twins more (c.create object).2 (c'.create object').2 := by
  have haddr : addressOf object = addressOf object' := by
    rw [← addressOf_veiled, hobject, addressOf_veiled]
  cases ha : addressOf object with
  | error f =>
    have ha' := haddr.symm.trans ha
    simp only [Cluster.create, ha, ha', bind, Except.bind]
    exact ⟨rfl, h.mono hsub⟩
  | ok a =>
    have ha' := haddr.symm.trans ha
    by_cases hn : a.nameable = true
    · rcases h.found a with ⟨hnone, hnone'⟩ | ⟨v, v', hv, hv', -, -⟩
      · obtain ⟨stored, hstored, hcreate⟩ := create_of_free ha hn hnone
        obtain ⟨stored', hstored', hcreate'⟩ := create_of_free ha' hn hnone'
        rw [h.nextVersion] at hstored
        -- both are stored with the same version, since twins give out the same
        have hveiled : stored.veiled = stored'.veiled := by
          have hstamped : Value.veiled <$> stamped c'.nextVersion object =
              Value.veiled <$> stamped c'.nextVersion object' := by
            rw [← stamped_veiled, hobject, stamped_veiled]
          rw [hstored, hstored'] at hstamped
          exact Except.ok.inj hstamped
        -- if the objects are not the same, the address is one of those that are veiled afterwards
        have hveil : veilAt more a stored = veilAt more a stored' := by
          rw [hcreate] at hmore
          rcases hmore a rfl with rfl | hsecret
          · exact congrArg _ (Except.ok.inj (hstored.symm.trans hstored'))
          · simp only [veilAt, hsecret, if_true, hveiled]
        rw [hcreate, hcreate']
        exact ⟨congrArg Except.ok hveiled, ((h.mono hsub).bumped.withObject hveil).recorded _ _⟩
      · rw [create_of_present ha hn (by simp [hv]), create_of_present ha' hn (by simp [hv'])]
        exact ⟨rfl, h.mono hsub⟩
    · have hrefused : ∀ (c : Cluster) o, addressOf o = .ok a → c.create o = (.error .wrongShape, c) := by
        intro c o ho
        simp [Cluster.create, ho, checked, hn, bind, Except.bind]
      rw [hrefused c _ ha, hrefused c' _ ha']
      exact ⟨rfl, h.mono hsub⟩

/-- Whether a replacement is meant for the stored object, no password decides. -/
theorem Twins.current (h : Twins secrets c c') (a : Address) (object : Value) :
    Alike (c.current a object) (c'.current a object) := by
  unfold Cluster.current
  cases hchecked : checked a with
  | error f => exact rfl
  | ok b =>
    obtain ⟨-, rfl⟩ := checked_eq_ok.mp hchecked
    rcases h.found a with ⟨hnone, hnone'⟩ | ⟨v, v', hv, hv', hveiled, -⟩
    · simp only [bind, Except.bind, hnone, hnone']
      rfl
    · -- the veil leaves the metadata alone
      have hmeta : v.require "metadata" = v'.require "metadata" := by
        rw [← Value.require_veiled (by decide), hveiled, Value.require_veiled (by decide)]
      simp only [bind, Except.bind, hv, hv', hmeta]
      -- the versions that are compared are the same, and so is what comes of it
      cases object.require "metadata" with
      | error f => exact rfl
      | ok metadata =>
        dsimp only
        cases metadata.fieldOrNull "resourceVersion" with
        | error f => exact rfl
        | ok sent =>
          dsimp only
          split
          · exact congrArg Except.ok hveiled
          · cases v'.require "metadata" with
            | error f => exact rfl
            | ok metadata =>
              dsimp only
              cases metadata.require "resourceVersion" with
              | error f => exact rfl
              | ok version =>
                dsimp only
                split
                · exact congrArg Except.ok hveiled
                · exact rfl

/-- Twins answer a replacement the same, and stay twins. -/
theorem Twins.update (h : Twins secrets c c') (object : Value) :
    (c.update object).1 = (c'.update object).1 ∧
      Twins secrets (c.update object).2 (c'.update object).2 := by
  unfold Cluster.update
  cases addressOf object with
  | error f => exact ⟨rfl, h⟩
  | ok a =>
    rcases alike_iff.mp (h.current a object) with ⟨f, hf, hf'⟩ | ⟨v, v', hv, hv', hveiled⟩
    · simp only [bind, Except.bind, hf, hf']
      exact ⟨rfl, h⟩
    · -- the status is not behind the veil, so both put the same into the object that is sent
      have hstatus : v.fieldOrNull "status" = v'.fieldOrNull "status" := by
        rw [Value.fieldOrNull, ← Value.fieldOr_veiled (by decide), hveiled,
          Value.fieldOr_veiled (by decide), Value.fieldOrNull]
      simp only [bind, Except.bind, hv, hv', hstatus, h.nextVersion]
      cases v'.fieldOrNull "status" with
      | error f => exact ⟨rfl, h⟩
      | ok status =>
        dsimp only
        cases object.setField "status" status with
        | error f => exact ⟨rfl, h⟩
        | ok replaced =>
          dsimp only
          cases withVersion replaced c'.nextVersion with
          | error f => exact ⟨rfl, h⟩
          | ok replaced => exact ⟨rfl, (h.bumped.withObject rfl).recorded _ _⟩

end Twins

/-! ## New Secrets -/

/-- Where Secrets were created after the first `n` writes. -/
def Cluster.secretsSince (n : Nat) (c : Cluster) : List Address :=
  (c.journal.drop n).filterMap fun w =>
    if w.operation = "create" ∧ w.address.kind = .text Kind.secret then some w.address else none

section SecretsSince

variable {n : Nat} {c c' : Cluster} {a : Address}

/-- The Secrets since a moment are those of the creations that are not among the first writes. -/
theorem mem_secretsSince : a ∈ c.secretsSince n ↔
    ⟨"create", a⟩ ∈ c.journal.drop n ∧ a.kind = .text Kind.secret := by
  simp only [Cluster.secretsSince, List.mem_filterMap]
  constructor
  · rintro ⟨⟨operation, b⟩, hw, hsome⟩
    split at hsome
    · next hcreated =>
      obtain rfl := Option.some.inj hsome
      obtain ⟨rfl, hkind⟩ := hcreated
      exact ⟨hw, hkind⟩
    · cases hsome
  · rintro ⟨hw, hkind⟩
    exact ⟨_, hw, if_pos ⟨rfl, hkind⟩⟩

/-- What was created stays created. -/
theorem secretsSince_subset {more : List Write} (hjournal : c'.journal = c.journal ++ more) :
    c.secretsSince n ⊆ c'.secretsSince n := by
  intro a ha
  obtain ⟨hw, hkind⟩ := mem_secretsSince.mp ha
  refine mem_secretsSince.mpr ⟨?_, hkind⟩
  rw [hjournal, List.drop_append]
  exact List.mem_append_left _ hw

/-- A Secret that was just created is one of them. -/
theorem mem_secretsSince_created (hn : n ≤ c.journal.length)
    (hjournal : c'.journal = c.journal ++ [⟨"create", a⟩]) (hkind : a.kind = .text Kind.secret) :
    a ∈ c'.secretsSince n := by
  refine mem_secretsSince.mpr ⟨?_, hkind⟩
  rw [hjournal, List.drop_append_of_le_length hn]
  exact List.mem_append_right _ List.mem_cons_self

end SecretsSince

end Reconciler
