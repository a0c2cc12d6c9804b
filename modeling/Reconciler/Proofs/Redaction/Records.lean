import Reconciler.Observe.Log
import Reconciler.Proofs.Value
import Reconciler.Text.Line

/-! # Credentials in log records

What is handed to the log is a tree of values. Fields whose names say that they hold credentials are
replaced as a whole, wherever they are in the tree, and everything else keeps its place.

Main definitions and statements:

* `Matching`: trees of the same shape that differ under secret fields only;
* `redactFields_matching`: nothing is left of what they differ in;
* `Value.at?`: what a path through objects and lists leads to; a path is `Open` when it does not go
  through a secret field;
* `at?_redactValue`: open paths lead to the same places as before;
* `Scrubbed`: what is at such a place afterwards;
* `credentials_never_logged`: both for the records of resource events.
-/

namespace Reconciler

/-! ## Two trees -/

mutual

/-- Values of the same shape that differ in what is under secret fields only, at any depth. -/
inductive Matching : Value → Value → Prop where
  | null : Matching .null .null
  | bool (b : Bool) : Matching (.bool b) (.bool b)
  | integer (n : Int) : Matching (.integer n) (.integer n)
  | real (x : Binary64) : Matching (.real x) (.real x)
  | text (s : String) : Matching (.text s) (.text s)
  | list {items others : List Value} :
      MatchingItems items others → Matching (.list items) (.list others)
  | object {fields others : Fields} :
      MatchingFields fields others → Matching (.object fields) (.object others)

inductive MatchingItems : List Value → List Value → Prop where
  | nil : MatchingItems [] []
  | cons {v w : Value} {items others : List Value} :
      Matching v w → MatchingItems items others → MatchingItems (v :: items) (w :: others)

/-- Objects with the same names, whose values match unless the name is that of a secret field. -/
inductive MatchingFields : List (String × Value) → List (String × Value) → Prop where
  | nil : MatchingFields [] []
  | secret {name : String} {v w : Value} {fields others : List (String × Value)} :
      name ∈ secretFields → MatchingFields fields others →
      MatchingFields ((name, v) :: fields) ((name, w) :: others)
  | plain (name : String) {v w : Value} {fields others : List (String × Value)} :
      Matching v w → MatchingFields fields others →
      MatchingFields ((name, v) :: fields) ((name, w) :: others)

end

mutual

/-- Redacting values that match leaves the same value. -/
theorem redactValue_matching : (v w : Value) → Matching v w → redactValue v = redactValue w
  | .null, _, .null | .bool _, _, .bool _ | .integer _, _, .integer _ | .real _, _, .real _
  | .text _, _, .text _ => rfl
  | .list items, .list others, .list h => by
    rw [redactValue, redactValue, redactItems_matching items others h]
  | .object fields, .object others, .object h => by
    rw [redactValue, redactValue, redactFields_matching fields others h]

/-- Redacting lists that match leaves the same list. -/
theorem redactItems_matching : (items others : List Value) → MatchingItems items others →
    redactItems items = redactItems others
  | [], [], .nil => rfl
  | v :: items, w :: others, .cons hv h => by
    rw [redactItems, redactItems, redactValue_matching v w hv, redactItems_matching items others h]

/-- Redacting objects that match leaves the same fields. -/
theorem redactFields_matching : (fields others : List (String × Value)) → MatchingFields fields others →
    redactFields fields = redactFields others
  | [], [], .nil => rfl
  | (name, v) :: fields, (_, w) :: others, .secret hname h => by
    have hsecret : secretFields.contains name = true := by simpa using hname
    rw [redactFields, redactFields, redactFields_matching fields others h, if_pos hsecret,
      if_pos hsecret]
  | (name, v) :: fields, (_, w) :: others, .plain _ hv h => by
    rw [redactFields, redactFields, redactFields_matching fields others h, redactValue_matching v w hv]

end

/-! ## Places in a tree -/

/-- One step into a tree: to a field of an object, or to an item of a list. -/
inductive PathStep where
  | field (name : String)
  | item (index : Nat)
deriving DecidableEq, Repr

/-- What a path through objects and lists leads to, if anything. -/
def Value.at? : List PathStep → Value → Option Value
  | [], v => some v
  | .field name :: path, .object fields => (Fields.find? name fields).bind (at? path)
  | .item index :: path, .list items => items[index]?.bind (at? path)
  | _ :: _, _ => none

/-- A path that does not go through a secret field. -/
def Open (path : List PathStep) : Prop :=
  ∀ name ∈ secretFields, .field name ∉ path

instance (path : List PathStep) : Decidable (Open path) :=
  inferInstanceAs (Decidable (∀ name ∈ secretFields, .field name ∉ path))

/-- The items of a list are redacted in their places. -/
theorem getElem?_redactItems (items : List Value) (index : Nat) :
    (redactItems items)[index]? = items[index]?.map redactValue := by
  induction items generalizing index with
  | nil => rfl
  | cons v items ih =>
    cases index with
    | zero => rfl
    | succ index => exact ih index

theorem length_redactItems (items : List Value) : (redactItems items).length = items.length := by
  induction items with
  | nil => rfl
  | cons v items ih => rw [redactItems, List.length_cons, List.length_cons, ih]

/-- A field that is not secret is redacted in its place. -/
theorem find?_redactFields {name : String} (h : name ∉ secretFields) (fields : Fields) :
    Fields.find? name (redactFields fields) = (Fields.find? name fields).map redactValue := by
  induction fields with
  | nil => rfl
  | cons field fields ih =>
    obtain ⟨key, v⟩ := field
    rw [redactFields, Fields.find?, Fields.find?]
    split
    case isTrue hkey =>
      -- this is the field that is asked for, and its name is not secret
      have hplain : secretFields.contains key = false := by simpa [hkey] using h
      rw [hplain]
      rfl
    case isFalse => exact ih

/-- An object keeps the names of its fields. -/
theorem names_redactFields (fields : Fields) :
    Fields.names (redactFields fields) = Fields.names fields := by
  induction fields with
  | nil => rfl
  | cons field fields ih => exact congrArg (field.1 :: ·) ih

/-- A secret field is replaced, whatever it holds. -/
theorem secretMark_of_mem {name : String} {v : Value} {fields : Fields}
    (h : (name, v) ∈ redactFields fields) (hname : name ∈ secretFields) : v = secretMark := by
  induction fields with
  | nil => cases h
  | cons field fields ih =>
    obtain ⟨key, w⟩ := field
    rw [redactFields] at h
    rcases List.mem_cons.mp h with hhere | hlater
    · obtain ⟨rfl, rfl⟩ := Prod.mk.inj hhere
      exact if_pos (by simpa using hname)
    · exact ih hlater

/-- Open paths lead to the same places as before, and what is there is redacted. -/
theorem at?_redactValue (path : List PathStep) (h : Open path) (v : Value) :
    (redactValue v).at? path = (v.at? path).map redactValue := by
  induction path generalizing v with
  | nil => rfl
  | cons step path ih =>
    have hrest : Open path := fun name hname hmem => h name hname (List.mem_cons_of_mem step hmem)
    -- what holds below a step holds of whatever is found by it
    have hbelow : ∀ found : Option Value,
        (found.map redactValue).bind (Value.at? path) =
          (found.bind (Value.at? path)).map redactValue := by
      intro found
      cases found with
      | none => rfl
      | some w => exact ih hrest w
    cases step with
    | field name =>
      have hname : name ∉ secretFields := fun hname => h name hname List.mem_cons_self
      cases v with
      | object fields =>
        rw [redactValue, Value.at?, Value.at?, find?_redactFields hname]
        exact hbelow _
      | null | bool _ | integer _ | real _ | text _ | list _ => rfl
    | item index =>
      cases v with
      | list items =>
        rw [redactValue, Value.at?, Value.at?, getElem?_redactItems]
        exact hbelow _
      | null | bool _ | integer _ | real _ | text _ | object _ => rfl

/-! ## Records -/

/-- What a value outside the secret fields becomes. An object keeps its names, and its secret fields are
replaced; a list keeps its length; a text is sanitized; anything else stays as it is. -/
def Scrubbed : (before after : Value) → Prop
  | .object fields, after => ∃ left, after = .object left ∧ Fields.names left = Fields.names fields ∧
      ∀ name v, (name, v) ∈ left → name ∈ secretFields → v = secretMark
  | .list items, after => ∃ left, after = .list left ∧ left.length = items.length
  | .text s, after => after = .text (sanitize s)
  | before, after => after = before

/-- Redaction makes of a value what it is to be without its secret fields. -/
theorem scrubbed_redactValue (v : Value) : Scrubbed v (redactValue v) := by
  cases v with
  | object fields =>
    exact ⟨redactFields fields, rfl, names_redactFields fields, fun _ _ => secretMark_of_mem⟩
  | list items => exact ⟨redactItems items, rfl, length_redactItems items⟩
  | null | bool _ | integer _ | real _ | text _ => rfl

/-- Further fields that match make the same line of the log. On every open path into them a value is
found afterwards exactly when one was there before, and it is what that value becomes. -/
theorem credentials_never_logged (e : ResourceEvent) {extra other : Fields}
    (h : MatchingFields extra other) :
    Line.print (.object (e.fields extra)) = Line.print (.object (e.fields other)) ∧
      ∀ path, Open path → Option.Rel Scrubbed (Value.at? path (.object extra))
        (Value.at? path (.object (redactFields extra))) := by
  refine ⟨?_, fun path hopen => ?_⟩
  · rw [ResourceEvent.fields, ResourceEvent.fields, redactFields_matching extra other h]
  · have hat : Value.at? path (.object (redactFields extra)) =
        (Value.at? path (.object extra)).map redactValue := at?_redactValue path hopen (.object extra)
    rw [hat]
    cases Value.at? path (.object extra) with
    | none => exact .none
    | some v => exact .some (scrubbed_redactValue v)

/-- A Secret in a list of lists, and a text that quotes a token. -/
def toldManifests (password : String) : Fields :=
  [("manifests", .list [.list [secret], .text "token=abc"])]
where
  /-- The Secret. -/
  secret : Value := .object [("kind", .text "Secret"), ("stringData", .text password)]

/-- Two of these records with different passwords match. -/
theorem matching_toldManifests (password other : String) :
    MatchingFields (toldManifests password) (toldManifests other) := by
  have hsecret : Matching (toldManifests.secret password) (toldManifests.secret other) :=
    .object (.plain "kind" (.text _) (.secret (by decide) .nil))
  exact .plain "manifests" (.list (.cons (.list (.cons hsecret .nil)) (.cons (.text _) .nil))) .nil

/-- Two passwords make one line, and the text beside them is still there, without its token. -/
theorem two_passwords_on_one_line :
    let e : ResourceEvent := ⟨.text "starlane-operator", .text "Starlane", .text "app", .text "default",
      .text "1", .text "info", .text "Created", "created"⟩
    Line.print (.object (e.fields (toldManifests "first"))) =
        Line.print (.object (e.fields (toldManifests "second"))) ∧
      Option.Rel Scrubbed (some (.text "token=abc"))
        (Value.at? [.field "manifests", .item 1] (.object (redactFields (toldManifests "first")))) := by
  intro e
  have h := credentials_never_logged e (matching_toldManifests "first" "second")
  exact ⟨h.1, h.2 [.field "manifests", .item 1] (by decide)⟩

end Reconciler
