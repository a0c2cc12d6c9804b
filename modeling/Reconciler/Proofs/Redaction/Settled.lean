import Reconciler.Proofs.Redaction.Contexts

/-! # Texts that a form leaves as they are

A form is settled in a text when it finds only marks in it. It leaves such a text as it is. A pass of the form
settles it, if what the pass leaves in front of a mark is not found together with the mark.

Main definitions and statements:

* `Form.redact_induct`: the passes over a text, one match after another;
* `Form.Settled`: a text in which a form finds nothing but marks, and `Form.Settled.redact_eq`: it is left as
  it is;
* `matchAt_in_mark`: no form starts within a mark;
* `Form.settled_redact`: when one pass settles a form;
* `Masked.run_none`: where a form with one name and a run of characters finds nothing, it finds nothing after
  masking the text.
-/

namespace Reconciler

/-! ## Settled texts -/

namespace Form

/-- The passes over a text, one match after another. -/
theorem redact_induct (form : Form) {motive : List Char → List Char → Prop} (nil : motive [] [])
    (next : ∀ c text, form.matchAt (c :: text) = none → motive text (form.redact text) →
      motive (c :: text) (c :: form.redact text))
    (found : ∀ before secret after,
      form.matchAt (before ++ secret ++ after) = some (before, secret) →
      motive after (form.redact after) →
      motive (before ++ secret ++ after) (redacted before secret ++ form.redact after))
    (text : List Char) : motive text (form.redact text) := by
  induction hlength : text.length using Nat.strong_induction_on generalizing text with
  | _ k ih =>
    cases text with
    | nil => exact nil
    | cons c text =>
      cases hmatch : form.matchAt (c :: text) with
      | none =>
        rw [redact_of_none hmatch]
        exact next c text hmatch (ih text.length (by simp [← hlength]) text rfl)
      | some match_ =>
        obtain ⟨before, secret⟩ := match_
        obtain ⟨after, htext, hsecret⟩ := text_of_matchAt hmatch
        have hpos := List.length_pos_iff.mpr hsecret
        -- what is left after a match is shorter, since something was found
        have hshorter : after.length < k := by
          rw [← hlength, htext]
          simp only [List.length_append]
          omega
        rw [redact_of_matchAt hmatch htext]
        rw [htext] at hmatch ⊢
        exact found before secret after hmatch (ih after.length hshorter after rfl)

/-- All that a form finds in a text, wherever it is looked for, is the mark. -/
def Settled (form : Form) (text : List Char) : Prop :=
  ∀ z, z <:+ text → ∀ before secret, form.matchAt z = some (before, secret) → secret = redactionMark

/-- What is found in the rest of a text is found in the text. -/
theorem Settled.of_suffix {form : Form} {text z : List Char} (h : form.Settled text) (hz : z <:+ text) :
    form.Settled z :=
  fun y hy => h y (hy.trans hz)

theorem settled_nil (form : Form) : form.Settled [] := by
  intro z hz before secret hmatch
  obtain ⟨after, htext, hsecret⟩ := text_of_matchAt hmatch
  rw [htext] at hz
  simp [hsecret] at hz

/-- A character in front of a settled text may only begin a match that is the mark. -/
theorem Settled.cons {form : Form} {c : Char} {text : List Char} (h : form.Settled text)
    (hhere : ∀ before secret, form.matchAt (c :: text) = some (before, secret) → secret = redactionMark) :
    form.Settled (c :: text) := by
  intro z hz before secret hmatch
  rcases List.suffix_cons_iff.mp hz with rfl | hlater
  · exact hhere before secret hmatch
  · exact h z hlater before secret hmatch

end Form

/-- Putting a text in its own place changes nothing. -/
theorem replaceFrom_self {old : List Char} (hold : old ≠ []) (text : List Char) :
    ∀ skip, replaceFrom old old skip text = text.drop skip := by
  induction text with
  | nil => simp [replaceFrom]
  | cons c text ih =>
    intro skip
    cases skip with
    | succ skip => exact ih skip
    | zero =>
      simp only [replaceFrom, List.drop_zero]
      split
      case isTrue hbegins =>
        obtain ⟨rest, hrest⟩ := List.isPrefixOf_iff_prefix.mp hbegins
        rw [ih, drop_of_cons_eq hrest.symm hold, hrest]
      case isFalse => rw [ih, List.drop_zero]

/-- A settled text is left as it is. -/
theorem Form.Settled.redact_eq {form : Form} {text : List Char} (h : form.Settled text) :
    form.redact text = text := by
  refine form.redact_induct (motive := fun text out => form.Settled text → out = text) ?_ ?_ ?_ text h
  · exact fun _ => rfl
  · intro c text _ ih h
    rw [ih (h.of_suffix (List.suffix_cons c text))]
  · intro before secret after hmatch ih h
    obtain rfl := h _ List.suffix_rfl _ _ hmatch
    have hmark : redacted before redactionMark = before ++ redactionMark :=
      replaceFrom_self (by decide) _ 0
    rw [ih (h.of_suffix (List.suffix_append _ _)), hmark]

/-! ## Marks -/

/-- A word that is matched has the letters of the name, in some case. -/
theorem foldCase_zip {word w rest behind : List Char} (h : afterWord word (w ++ rest) = some behind) :
    ∀ d ∈ w.zip word, foldCase d.1 = d.2 := by
  induction word generalizing w with
  | nil => simp
  | cons l word ih =>
    cases w with
    | nil => simp
    | cons c w =>
      simp only [List.cons_append, afterWord] at h
      split at h
      case isTrue hc =>
        simp only [List.zip_cons_cons, List.forall_mem_cons]
        exact ⟨hc, ih h⟩
      case isFalse => cases h

theorem foldCase_of_withName {value : ValueForm} {l c : Char} {word rest : List Char}
    {found : List Char × List Char} (h : Form.withName value (c :: rest) (l :: word) = some found) :
    foldCase c = l := by
  obtain ⟨written, _, _, _, htext, hwritten, -⟩ := Form.withName_eq_some.mp h
  cases written with
  | nil => cases hwritten
  | cons d written =>
    obtain ⟨rfl, -⟩ := List.cons.inj htext
    exact (List.cons.inj hwritten).1

/-- No form starts within a mark. -/
theorem matchAt_in_mark {form : Form} (hform : form ∈ sensitiveForms) {w : List Char}
    (hw : w <:+ redactionMark) (hne : w ≠ []) (rest : List Char) : form.matchAt (w ++ rest) = none := by
  -- every name has a letter that no rest of the mark has at that place
  have hdiffer : ∀ form ∈ sensitiveForms, ∀ name ∈ form.names, ∀ w ∈ redactionMark.tails, w ≠ [] →
      ∃ d ∈ w.zip name, foldCase d.1 ≠ d.2 := by
    decide
  cases hmatch : form.matchAt (w ++ rest) with
  | none => rfl
  | some found =>
    obtain ⟨name, hname, hfound⟩ := List.exists_of_findSome?_eq_some hmatch
    simp only [Form.withName, Option.bind_eq_bind, Option.bind_eq_some_iff] at hfound
    obtain ⟨behind, hbehind, -⟩ := hfound
    obtain ⟨d, hd, hdiffers⟩ := hdiffer form hform name hname w ((List.mem_tails _ _).mpr hw) hne
    exact absurd (foldCase_zip hbehind d hd) hdiffers

/-- What is found in a masked text is found where an end of the text was masked. -/
theorem Masked.exists_suffix {form : Form} {ok : Char → Bool} {text out z : List Char}
    {found : List Char × List Char} (h : Masked ok text out) (hform : form ∈ sensitiveForms) (hz : z <:+ out)
    (hmatch : form.matchAt z = some found) : ∃ y, y <:+ text ∧ Masked ok y z := by
  rcases h.suffix hz with hback | ⟨w, rest, hw, hne, rfl⟩
  · exact hback
  · rw [matchAt_in_mark hform hw hne] at hmatch
    cases hmatch

/-- What is found in front of a mark has the beginning of its value in front of it. -/
theorem exists_front_of_matchAt {form : Form} {d : Char} {front rest before secret : List Char}
    (h : form.matchAt (front ++ (redactionMark ++ rest)) = some (before, d :: secret))
    (hbefore : '[' ∉ before) (hd : '[' ≠ d) : ∃ more, front = before ++ d :: more := by
  obtain ⟨after, htext, -⟩ := Form.text_of_matchAt h
  have hnone : '[' ∉ before ++ [d] := by simpa [hbefore] using hd
  have hsplit : before ++ [d] ++ (secret ++ after) = front ++ (redactionMark ++ rest) := by
    simp [htext]
  obtain ⟨more, rfl, -⟩ := exists_append_of_not_mem hnone hsplit
  exact ⟨more, by simp⟩

/-- A text with a mark in it is settled when what follows the mark is, and in front of it nothing else is
found. -/
theorem settled_of_parts {form : Form} (hform : form ∈ sensitiveForms) {front rest : List Char}
    (hrest : form.Settled rest)
    (hfront : ∀ c w, c :: w <:+ front → ∀ before secret,
      form.matchAt (c :: w ++ (redactionMark ++ rest)) = some (before, secret) → secret = redactionMark) :
    form.Settled (front ++ redactionMark ++ rest) := by
  intro z hz before secret hmatch
  rw [List.append_assoc] at hz
  -- a match starts in what follows the mark, in the mark, or in front of it
  rcases suffix_append_cases hz with hin | ⟨w, rfl, hw⟩
  · rcases suffix_append_cases hin with hlater | ⟨w, rfl, hw⟩
    · exact hrest z hlater before secret hmatch
    · by_cases hne : w = []
      case pos =>
        rw [hne, List.nil_append] at hmatch
        exact hrest rest List.suffix_rfl before secret hmatch
      case neg =>
        rw [matchAt_in_mark hform hw hne] at hmatch
        cases hmatch
  · cases w with
    | nil =>
      rw [List.nil_append, matchAt_in_mark hform List.suffix_rfl (by decide)] at hmatch
      cases hmatch
    | cons c w => exact hfront c w hw before secret hmatch

/-- One pass settles a form, when it is not found after masking a text where it was not found before, and when
in front of the mark that is left of a match it finds nothing but that mark. -/
theorem Form.settled_redact {form : Form} {ok : Char → Bool} {text : List Char} (hform : form ∈ sensitiveForms)
    (hstart : form.StartsWith ok)
    (hnone : ∀ {text out}, Masked ok text out → form.matchAt text = none → form.matchAt out = none)
    (hfound : ∀ before secret after, before ++ secret ++ after <:+ text →
      form.matchAt (before ++ secret ++ after) = some (before, secret) →
      ∃ front, redacted before secret = front ++ redactionMark ∧ ∀ rest, Masked ok after rest →
        ∀ c w, c :: w <:+ front → ∀ before' secret',
          form.matchAt (c :: w ++ (redactionMark ++ rest)) = some (before', secret') →
            secret' = redactionMark) :
    form.Settled (form.redact text) := by
  refine form.redact_induct (motive := fun z out => z <:+ text → form.Settled out) ?_ ?_ ?_ text
    List.suffix_rfl
  · exact fun _ => settled_nil form
  · -- nothing is found here, and masking the rest does not change that
    intro c z hbefore ih hz
    refine (ih ((List.suffix_cons c z).trans hz)).cons fun before secret hmatch => ?_
    rw [hnone (.keep c (masked_redact hstart z)) hbefore] at hmatch
    cases hmatch
  · -- a match is replaced by a mark, and the rest is settled by induction
    intro before secret after hmatch ih hz
    obtain ⟨front, hredacted, hfront⟩ := hfound before secret after hz hmatch
    rw [hredacted]
    exact settled_of_parts hform (ih ((List.suffix_append _ _).trans hz))
      (hfront _ (masked_redact hstart after))

/-! ## Forms with one name and a run of characters -/

section Runs

variable {name text out before secret after : List Char} {ok : Char → Bool}

/-- What stands in front of a value that is a run is a lead, and the value consists of the class. -/
theorem lead_of_run (h : Form.matchAt ⟨[name], .run ok⟩ text = some (before, secret)) :
    Lead name before ∧ ∀ c ∈ secret, ok c := by
  rw [matchAt_singleton] at h
  exact lead_of_withName h

theorem startsWith_run : Form.StartsWith ⟨[name], .run ok⟩ ok := by
  intro text before secret hmatch c hc
  exact (lead_of_run hmatch).2 c (List.mem_of_mem_head? hc)

/-- A lead with a character of the class behind it is found. -/
theorem Lead.exists_matchAt (h : Lead name before) (hquotes : ∀ c, ok c → isQuote c = false) {c : Char}
    (hc : ok c) (rest : List Char) :
    ∃ found, Form.matchAt ⟨[name], .run ok⟩ (before ++ c :: rest) = some found := by
  rw [matchAt_singleton]
  exact exists_withName hquotes h hc rest

/-- A run is taken as far as it goes. -/
theorem stops_of_run (hquotes : ∀ c, ok c → isQuote c = false)
    (h : Form.matchAt ⟨[name], .run ok⟩ (before ++ secret ++ after) = some (before, secret)) :
    ∀ c ∈ after.head?, ok c = false := by
  rw [matchAt_singleton] at h
  exact stops_of_withName hquotes h rfl

/-- Where nothing is found at the beginning of a text, nothing is found there after masking it. -/
theorem Masked.run_none (h : Masked ok text out) (hname : '[' ∉ name)
    (hquotes : ∀ c, ok c → isQuote c = false) (hnone : Form.matchAt ⟨[name], .run ok⟩ text = none) :
    Form.matchAt ⟨[name], .run ok⟩ out = none := by
  cases hmatch : Form.matchAt ⟨[name], .run ok⟩ out with
  | none => rfl
  | some found =>
    obtain ⟨before, secret⟩ := found
    obtain ⟨after, htext, hne⟩ := Form.text_of_matchAt hmatch
    obtain ⟨hlead, hsecret⟩ := lead_of_run hmatch
    obtain ⟨c, secret, rfl⟩ := List.exists_cons_of_ne_nil hne
    rw [htext, List.append_assoc, List.cons_append] at h
    -- a character of the class followed the lead before
    obtain ⟨d, rest, rfl, hd⟩ :=
      h.kept_start before (hlead.bracket_not_mem hname) (hsecret c List.mem_cons_self)
    obtain ⟨found, hfound⟩ := hlead.exists_matchAt hquotes hd rest
    rw [hfound] at hnone
    cases hnone

end Runs

end Reconciler
