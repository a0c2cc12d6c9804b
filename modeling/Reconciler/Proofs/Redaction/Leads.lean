import Reconciler.Proofs.Redaction.Marks

/-! # What stands before a value

In front of a value there are a name, an optional quote, separators and another optional quote. Behind them
a form is found as soon as a character of its class follows. So what is found in a text after some of it was
replaced by marks can be traced back to the text before, since none of these characters is in a mark.

Main definitions and statements:

* `Lead`: what may stand before a value;
* `lead_of_withName`, `lead_of_braced`, `exists_withName`: a value is found behind a lead only, and behind every
  lead where a character of its class follows;
* `withName_of_run`: and a run that starts there is found as it is;
* `Masked.kept`, `Masked.suffix`: a part that has no bracket in it, or does not start within a mark, stood there
  before.
-/

namespace Reconciler

/-! ## Letters, separators and quotes -/

section Characters

variable {c : Char}

/-- Beside capital letters and three odd characters, folding case changes nothing. -/
theorem foldCase_of_toNat
    (h : c.toNat < 65 ∨ 90 < c.toNat ∧ c.toNat < 0x130 ∨
      0x131 < c.toNat ∧ c.toNat ≠ 0x17F ∧ c.toNat ≠ 0x212A) : foldCase c = c := by
  have hlower : c.toLower = c := by
    have hnot : ¬ (c.val ≥ 'A'.val ∧ c.val ≤ 'Z'.val) := by
      rintro ⟨hfrom, hto⟩
      have hfrom : 65 ≤ c.toNat := UInt32.le_iff_toNat_le.mp hfrom
      have hto : c.toNat ≤ 90 := UInt32.le_iff_toNat_le.mp hto
      omega
    exact dif_neg hnot
  simp only [foldCase, hlower]
  grind

theorem toNat_of_blank (h : blank c) : c.toNat < 0x21 ∨ 0x84 < c.toNat ∧ c.toNat < 0xA1 ∨
    0x131 < c.toNat ∧ c.toNat ≠ 0x17F ∧ c.toNat ≠ 0x212A := by
  simp only [blank, Bool.or_eq_true, Bool.and_eq_true, decide_eq_true_eq, beq_iff_eq] at h
  omega

/-- There are two quotes. -/
theorem isQuote_iff : isQuote c ↔ c = '"' ∨ c = '\x27' := by
  simp only [isQuote, Bool.or_eq_true, decide_eq_true_eq]
  exact or_congr_right ⟨fun h => Char.toNat_inj.mp h, fun h => h ▸ rfl⟩

/-- Separators have no case. -/
theorem foldCase_of_separator (h : isSeparator c) : foldCase c = c := by
  simp only [isSeparator, Bool.or_eq_true, decide_eq_true_eq] at h
  rcases h with (rfl | rfl) | hblank
  · rfl
  · rfl
  · have hcode := toNat_of_blank hblank
    exact foldCase_of_toNat (by omega)

/-- Quotes have no case. -/
theorem foldCase_of_quote (h : isQuote c) : foldCase c = c := by
  rcases isQuote_iff.mp h with rfl | rfl
  · rfl
  · rfl

/-- A quote is no separator. -/
theorem not_separator_of_quote (h : isQuote c) : isSeparator c = false := by
  rcases isQuote_iff.mp h with rfl | rfl
  · rfl
  · rfl

theorem not_quote_of_separator (h : isSeparator c) : isQuote c = false := by
  rw [Bool.eq_false_iff]
  intro hquote
  rw [not_separator_of_quote hquote] at h
  cases h

/-- The value of a password has no quotes in it. -/
theorem not_quote_of_secret (h : isSecretChar c) : isQuote c = false := by
  simp only [isSecretChar, Bool.not_eq_true', Bool.or_eq_false_iff] at h
  exact h.2

/-- A token has no white space in it. -/
theorem not_blank_of_token (h : isTokenChar c) : blank c = false := by
  rw [Bool.eq_false_iff]
  intro hblank
  have hcode := toNat_of_blank hblank
  -- white space is none of the characters that folding case changes
  have hfold : foldCase c = c := foldCase_of_toNat (by omega)
  have hle : ∀ {a b : Char}, a ≤ b → a.toNat ≤ b.toNat := fun hab => UInt32.le_iff_toNat_le.mp hab
  simp only [isTokenChar, hfold, Bool.or_eq_true, Bool.and_eq_true, decide_eq_true_eq] at h
  rcases h with (((((⟨hfrom, hto⟩ | ⟨hfrom, hto⟩) | rfl) | rfl) | rfl) | rfl)
  · have hfrom : 97 ≤ c.toNat := hle hfrom
    have hto : c.toNat ≤ 122 := hle hto
    omega
  · have hfrom : 48 ≤ c.toNat := hle hfrom
    have hto : c.toNat ≤ 57 := hle hto
    omega
  all_goals exact absurd hblank (by decide)

/-- Every character of a token is one of a password. -/
theorem secret_of_token (h : isTokenChar c) : isSecretChar c := by
  by_contra hnot
  simp only [isSecretChar, not_blank_of_token h, Bool.false_or, Bool.not_eq_true', Bool.not_eq_false,
    Bool.or_eq_true, decide_eq_true_eq, isQuote_iff] at hnot
  rcases hnot with ((rfl | rfl) | rfl) | rfl | rfl
  all_goals exact absurd h (by decide)

/-- Of the separators, only the equals sign may be in a token. -/
theorem eq_of_token_separator (h : isTokenChar c) (hseparator : isSeparator c) : c = '=' := by
  simp only [isSeparator, not_blank_of_token h, Bool.or_false, Bool.or_eq_true,
    decide_eq_true_eq] at hseparator
  rcases hseparator with rfl | rfl
  · exact absurd h (by decide)
  · rfl

/-- There are no separators in the names of the forms. -/
theorem not_separator_of_mem_name {form : Form} (hform : form ∈ sensitiveForms) {name : List Char}
    (hname : name ∈ form.names) (hc : c ∈ name) : isSeparator c = false := by
  have hall : sensitiveForms.all (fun form => form.names.all fun name => name.all (!isSeparator ·)) = true := by
    decide
  simp only [List.all_eq_true, Bool.not_eq_true'] at hall
  exact hall form hform name hname c hc

end Characters

/-! ## Leads -/

/-- What may stand before a value: a name, an optional quote, separators, and an optional quote. -/
inductive Lead (word : List Char) : List Char → Prop where
  | mk {written quote separators quote' : List Char} : written.map foldCase = word →
      OptionalQuote quote → separators ≠ [] → (∀ c ∈ separators, isSeparator c) →
      OptionalQuote quote' → Lead word (written ++ quote ++ separators ++ quote')

section Leads

variable {word written quote separators quote' before : List Char}

theorem isQuote_of_mem {c : Char} (h : OptionalQuote quote) (hc : c ∈ quote) : isQuote c := by
  rcases h with rfl | ⟨q, hq, rfl⟩
  · cases hc
  · rwa [List.mem_singleton.mp hc]

/-- A character of a lead is a letter of the name in some case, a separator or a quote. -/
theorem foldCase_ne_of_mem {l c : Char} (hwritten : written.map foldCase = word)
    (hquote : OptionalQuote quote) (hall : ∀ c ∈ separators, isSeparator c)
    (hquote' : OptionalQuote quote') (hc : c ∈ written ++ quote ++ separators ++ quote') (hl : l ∉ word)
    (hseparator : isSeparator l = false) (hnone : isQuote l = false) : foldCase c ≠ l := by
  -- a quote folded is a quote, and the letter is none
  have hquotes : isQuote c → foldCase c ≠ l := by
    intro hq hfold
    rw [foldCase_of_quote hq] at hfold
    rw [← hfold, hq] at hnone
    cases hnone
  simp only [List.mem_append] at hc
  rcases hc with ((hc | hc) | hc) | hc
  · rintro rfl
    exact hl (hwritten ▸ List.mem_map_of_mem hc)
  · exact hquotes (isQuote_of_mem hquote hc)
  · intro hfold
    rw [foldCase_of_separator (hall c hc)] at hfold
    rw [← hfold, hall c hc] at hseparator
    cases hseparator
  · exact hquotes (isQuote_of_mem hquote' hc)

/-- A letter that is not in the name is not before the value. -/
theorem Lead.foldCase_ne {l : Char} (h : Lead word before) (hl : l ∉ word)
    (hseparator : isSeparator l = false) (hquote : isQuote l = false) :
    ∀ c ∈ before, foldCase c ≠ l := by
  cases h with
  | mk hwritten hquote₁ _ hall hquote₂ =>
    intro c hc
    exact foldCase_ne_of_mem hwritten hquote₁ hall hquote₂ hc hl hseparator hquote

/-- A lead has no bracket in it, so it does not reach into a mark. -/
theorem Lead.bracket_not_mem (h : Lead word before) (hword : '[' ∉ word) : '[' ∉ before :=
  fun hmem => h.foldCase_ne hword rfl rfl '[' hmem rfl

/-- The first letter of a name that it has only once is before the value only once, at the beginning. -/
theorem Lead.eq_of_suffix {l : Char} (h : Lead (l :: word) before) (hl : l ∉ word)
    (hseparator : isSeparator l = false) (hquote : isQuote l = false) {c : Char} {rest : List Char}
    (hsuffix : c :: rest <:+ before) (hc : foldCase c = l) : c :: rest = before := by
  cases h with
  | @mk written quote separators quote' hwritten hquote₁ _ hall hquote₂ =>
    cases written with
    | nil => cases hwritten
    | cons d written =>
      obtain ⟨-, hwritten⟩ := List.cons.inj hwritten
      rcases List.suffix_cons_iff.mp hsuffix with heq | hlater
      · exact heq
      · have hmem := hlater.subset List.mem_cons_self
        exact absurd hc (foldCase_ne_of_mem hwritten hquote₁ hall hquote₂ hmem hl hseparator hquote)

/-- The second quote may be left out. -/
theorem Lead.unquoted (hwritten : written.map foldCase = word) (hquote : OptionalQuote quote)
    (hseparators : separators ≠ []) (hall : ∀ c ∈ separators, isSeparator c) :
    Lead word (written ++ quote ++ separators) := by
  have hlead := Lead.mk hwritten hquote hseparators hall (.inl rfl)
  rwa [List.append_nil] at hlead

/-- What is found has a lead before it and characters of its class in it. -/
theorem lead_of_withName {ok : Char → Bool} {text secret : List Char}
    (h : Form.withName (.run ok) text word = some (before, secret)) :
    Lead word before ∧ ∀ c ∈ secret, ok c := by
  cases found_of_withName h with
  | run hwritten hquote hseparators hall hquote' _ _ hok _ =>
    exact ⟨.mk hwritten hquote hseparators hall hquote', hok⟩
  | separator hwritten hquote hall hbefore hok _ _ =>
    have hlead := Lead.unquoted hwritten hquote hbefore fun d hd => hall d (List.mem_append_left _ hd)
    exact ⟨hlead, fun d hd => List.mem_singleton.mp hd ▸ hok⟩

/-- What is found in braces has a lead before it and starts with a brace. -/
theorem lead_of_braced {text secret : List Char}
    (h : Form.withName .braced text word = some (before, secret)) :
    Lead word before ∧ ∃ inside, secret = '\x7b' :: inside := by
  obtain ⟨written, quote, separators, inside, _, -, rfl, hwritten, hquote, hseparators, hall, rfl, -⟩ :=
    braced_of_withName h
  exact ⟨.unquoted hwritten hquote hseparators hall, inside, rfl⟩

/-- What is found goes on to the next character out of its class. -/
theorem stops_of_withName {ok : Char → Bool} {text secret after : List Char}
    (hquotes : ∀ c, ok c → isQuote c = false)
    (h : Form.withName (.run ok) text word = some (before, secret)) (htext : text = before ++ secret ++ after) :
    ∀ c ∈ after.head?, ok c = false := by
  cases found_of_withName h with
  | run _ _ _ _ _ _ _ _ hafter => rwa [List.append_cancel_left htext] at hafter
  | @separator written quote before after' rest c _ _ _ _ _ hlater hstop =>
    have hafter : after = after' ++ rest := by simpa using htext.symm
    rw [hafter]
    -- the value ended at the quote that closes it, or at the first separator behind
    cases after' with
    | nil =>
      intro d hd
      rcases hstop d hd with hquote | hnone
      · by_contra hok
        rw [hquotes d (by simpa using hok)] at hquote
        cases hquote
      · exact hnone
    | cons d after' => simpa using hlater d List.mem_cons_self

end Leads

/-! ## What is found behind a lead -/

theorem matchAt_singleton (name : List Char) (value : ValueForm) (text : List Char) :
    Form.matchAt ⟨[name], value⟩ text = Form.withName value text name := by
  simp only [Form.matchAt, List.findSome?_cons, List.findSome?_nil]
  split <;> simp_all

section Behind

variable {word written quote separators quote' before rest : List Char} {ok : Char → Bool}

theorem takeQuote_optional (hquote : OptionalQuote quote) (hrest : ∀ c ∈ rest.head?, isQuote c = false) :
    takeQuote (quote ++ rest) = (quote, rest) := by
  rcases hquote with rfl | ⟨q, hq, rfl⟩
  · cases rest with
    | nil => rfl
    | cons c rest => simp [takeQuote, hrest c rfl]
  · simp [takeQuote, hq]

/-- Behind a name and separators, what is found depends on what follows the name. -/
theorem withName_eq (value : ValueForm) (hwritten : written.map foldCase = word)
    (hquote : OptionalQuote quote) (hseparators : separators ≠ []) (hall : ∀ c ∈ separators, isSeparator c)
    (rest : List Char) :
    Form.withName value (written ++ quote ++ separators ++ rest) word =
      (value.find (separators ++ rest)).map fun found => (written ++ quote ++ found.1, found.2) := by
  have hstart : ∀ c ∈ (separators ++ rest).head?, isQuote c = false := by
    intro c hc
    rw [List.head?_append_of_ne_nil _ hseparators] at hc
    exact not_quote_of_separator (hall c (List.mem_of_mem_head? hc))
  have htake := takeQuote_optional hquote hstart
  rw [List.append_assoc, List.append_assoc]
  cases hfind : value.find (separators ++ rest) with
  | none =>
    simp [Form.withName, afterWord_written hwritten, htake, hfind]
  | some found =>
    exact Form.withName_eq_some.mpr ⟨written, quote, _, _, rfl, hwritten, htake, hfind, rfl⟩

/-- A run of characters is as long as it can be. -/
theorem takeWhile_run {s after : List Char} (hok : ∀ c ∈ s, ok c)
    (hafter : ∀ c ∈ after.head?, ok c = false) : (s ++ after).takeWhile ok = s := by
  rw [List.takeWhile_append_of_pos hok]
  cases after with
  | nil => simp
  | cons c after => simp [hafter c rfl]

/-- A run is dropped as a whole, and nothing behind it. -/
theorem dropWhile_run {s after : List Char} (hok : ∀ c ∈ s, ok c)
    (hafter : ∀ c ∈ after.head?, ok c = false) : (s ++ after).dropWhile ok = after := by
  rw [List.dropWhile_append_of_pos hok]
  cases after with
  | nil => rfl
  | cons c after => simp [hafter c rfl]

/-- A run that starts behind the separators and the quote is found. -/
theorem find_run {secret after : List Char} (hquotes : ∀ c, ok c → isQuote c = false)
    (hseparators : separators ≠ []) (hall : ∀ c ∈ separators, isSeparator c)
    (hquote : OptionalQuote quote) (hstart : ∀ c ∈ (quote ++ secret).head?, isSeparator c = false)
    (hne : secret ≠ []) (hok : ∀ c ∈ secret, ok c) (hafter : ∀ c ∈ after.head?, ok c = false) :
    (ValueForm.run ok).find (separators ++ (quote ++ (secret ++ after))) =
      some (separators ++ quote, secret) := by
  have hnext : ∀ c ∈ (quote ++ (secret ++ after)).head?, isSeparator c = false := by
    rwa [← List.append_assoc, List.head?_append_of_ne_nil _ (by simp [hne])]
  have hhead : ∀ c ∈ (secret ++ after).head?, isQuote c = false := by
    intro c hc
    rw [List.head?_append_of_ne_nil _ hne] at hc
    exact hquotes c (hok c (List.mem_of_mem_head? hc))
  have hvalue : (secret ++ after).takeWhile ok = secret := takeWhile_run hok hafter
  simp [ValueForm.find, takeWhile_run hall hnext, dropWhile_run hall hnext,
    takeQuote_optional hquote hhead, hvalue, hseparators, hne]

/-- Where a separator of the class is behind another separator, the last such one is found. -/
theorem exists_lastStart {c s : Char} (hok : ok c) {more : List Char} (hc : c ∈ more) :
    ∃ found, lastStart ok (s :: more) = some found := by
  cases hfound : lastStart ok (s :: more) with
  | some found => exact ⟨found, rfl⟩
  | none =>
    have hnone := lastStart_go_eq_none.mp hfound c hc
    rw [hok] at hnone
    cases hnone

/-- Behind separators and a quote something is found whenever a character of the class follows, be it
another separator. -/
theorem exists_find {c : Char} (hquotes : ∀ c, ok c → isQuote c = false) (hseparators : separators ≠ [])
    (hall : ∀ c ∈ separators, isSeparator c) (hquote : OptionalQuote quote) (hok : ok c)
    (rest : List Char) :
    ∃ found, (ValueForm.run ok).find (separators ++ (quote ++ c :: rest)) = some found := by
  -- unless it is another separator, a run starts with the character
  have hrun : (∀ d ∈ (quote ++ [c]).head?, isSeparator d = false) →
      ∃ found, (ValueForm.run ok).find (separators ++ (quote ++ c :: rest)) = some found := by
    intro hstart
    have hsplit : c :: rest = c :: rest.takeWhile ok ++ rest.dropWhile ok := by
      rw [List.cons_append, List.takeWhile_append_dropWhile]
    rw [hsplit]
    refine ⟨_, find_run hquotes hseparators hall hquote ?_ (List.cons_ne_nil _ _) ?_
      (head?_dropWhile rest)⟩
    · intro d hd
      apply hstart d
      rcases hquote with rfl | ⟨q, -, rfl⟩
      · simpa using hd
      · simpa using hd
    · intro d hd
      rcases List.mem_cons.mp hd with rfl | hd
      · exact hok
      · exact List.mem_takeWhile_imp hd
  rcases hquote with rfl | ⟨q, hq, rfl⟩
  · cases hseparator : isSeparator c with
    | false => exact hrun (by simpa using hseparator)
    | true =>
      obtain ⟨s, separators, rfl⟩ := List.exists_cons_of_ne_nil hseparators
      -- the character is one more separator, so a value may start at the last separator of the class
      have hlater : (separators ++ c :: rest).takeWhile isSeparator =
          separators ++ c :: rest.takeWhile isSeparator := by
        rw [List.takeWhile_append_of_pos fun d hd => hall d (List.mem_cons_of_mem _ hd)]
        simp [hseparator]
      obtain ⟨last, hlast⟩ : ∃ last, lastStart ok (s :: (separators ++ c :: rest.takeWhile isSeparator)) =
          some last := exists_lastStart hok (by simp)
      simp only [List.nil_append, List.cons_append, ValueForm.find, List.takeWhile_cons,
        hall s List.mem_cons_self, if_true, hlater, List.isEmpty_cons, Bool.false_eq_true, if_false,
        hlast, Option.map_some]
      split
      · exact ⟨_, rfl⟩
      · exact ⟨_, rfl⟩
  · exact hrun (by simpa using not_separator_of_quote hq)

/-- Behind every lead a value is found, where a character of its class follows. -/
theorem exists_withName {c : Char} (hquotes : ∀ c, ok c → isQuote c = false) (h : Lead word before)
    (hok : ok c) (rest : List Char) :
    ∃ found, Form.withName (.run ok) (before ++ c :: rest) word = some found := by
  cases h with
  | mk hwritten hquote hseparators hall hquote' =>
    obtain ⟨found, hfound⟩ := exists_find hquotes hseparators hall hquote' hok rest
    rw [List.append_assoc, withName_eq (.run ok) hwritten hquote hseparators hall, hfound]
    exact ⟨_, rfl⟩

/-- A run behind a lead is found as it is, unless it starts with another separator. -/
theorem withName_of_run {secret after : List Char} (hquotes : ∀ c, ok c → isQuote c = false)
    (hwritten : written.map foldCase = word) (hquote : OptionalQuote quote)
    (hseparators : separators ≠ []) (hall : ∀ c ∈ separators, isSeparator c)
    (hquote' : OptionalQuote quote') (hstart : ∀ c ∈ (quote' ++ secret).head?, isSeparator c = false)
    (hne : secret ≠ []) (hok : ∀ c ∈ secret, ok c) (hafter : ∀ c ∈ after.head?, ok c = false) :
    Form.withName (.run ok) (written ++ quote ++ separators ++ quote' ++ secret ++ after) word =
      some (written ++ quote ++ separators ++ quote', secret) := by
  have hfind := find_run hquotes hseparators hall hquote' hstart hne hok hafter
  rw [List.append_assoc _ secret, List.append_assoc _ quote',
    withName_eq (.run ok) hwritten hquote hseparators hall, hfind]
  simp

/-- Behind a name, an optional quote and separators a value in braces is found where one is. -/
theorem exists_withName_braced (hwritten : written.map foldCase = word) (hquote : OptionalQuote quote)
    (hseparators : separators ≠ []) (hall : ∀ c ∈ separators, isSeparator c) (hclosed : '\x7d' ∈ rest) :
    ∃ found, Form.withName .braced (written ++ quote ++ separators ++ '\x7b' :: rest) word =
      some found := by
  have hstart : ∀ c ∈ ('\x7b' :: rest).head?, isSeparator c = false := by
    rintro c ⟨⟩
    rfl
  rw [withName_eq .braced hwritten hquote hseparators hall]
  simp [ValueForm.find, takeWhile_run hall hstart, dropWhile_run hall hstart, hseparators, takeBraced,
    hclosed]

end Behind

/-! ## Masked texts -/

namespace Masked

variable {ok : Char → Bool} {text out : List Char}

/-- What is left starts with a character of the class only if the text did. -/
theorem stops (h : Masked ok text out) (htext : ∀ c ∈ text.head?, ok c = false) :
    ∀ c ∈ out.head?, ok c = false := by
  cases h with
  | nil => simp
  | keep c _ => simpa using htext
  | replace piece hc _ =>
    rw [htext _ rfl] at hc
    cases hc

/-- What has no opening bracket in it, at the beginning of what is left, was there before. -/
theorem kept {rest' : List Char} (front : List Char) (h : Masked ok text (front ++ rest'))
    (hfront : '[' ∉ front) : ∃ rest, text = front ++ rest ∧ Masked ok rest rest' := by
  induction front generalizing text with
  | nil => exact ⟨text, rfl, h⟩
  | cons c front ih =>
    rw [List.mem_cons, not_or] at hfront
    -- what is left begins with a character that was kept, or with a mark
    generalize hout : c :: front ++ rest' = out at h
    cases h with
    | nil => cases hout
    | keep d hrest =>
      obtain ⟨rfl, rfl⟩ := List.cons.inj hout
      obtain ⟨rest, rfl, hmasked⟩ := ih hrest hfront.2
      exact ⟨rest, rfl, hmasked⟩
    | replace piece _ _ =>
      obtain ⟨rfl, -⟩ := List.cons.inj hout
      exact absurd rfl hfront.1

/-- When a character of the class follows it, one followed it before. -/
theorem kept_start {c : Char} {rest' : List Char} (front : List Char)
    (h : Masked ok text (front ++ c :: rest')) (hfront : '[' ∉ front) (hc : ok c) :
    ∃ d rest, text = front ++ d :: rest ∧ ok d := by
  obtain ⟨rest, rfl, hmasked⟩ := h.kept front hfront
  cases rest with
  | nil => cases hmasked
  | cons d rest =>
    refine ⟨d, rest, rfl, ?_⟩
    by_contra hd
    have hstop := hmasked.stops (by simpa using hd) c rfl
    rw [hc] at hstop
    cases hstop

/-- An end of what is left starts within a mark, or it is what is left of an end of the text. -/
theorem suffix (h : Masked ok text out) {z : List Char} (hz : z <:+ out) :
    (∃ y, y <:+ text ∧ Masked ok y z) ∨ ∃ w rest, w <:+ redactionMark ∧ w ≠ [] ∧ z = w ++ rest := by
  induction h with
  | nil => exact .inl ⟨[], List.suffix_rfl, by rw [List.suffix_nil.mp hz]; exact .nil⟩
  | @keep c text out hrest ih =>
    rcases List.suffix_cons_iff.mp hz with rfl | hlater
    · exact .inl ⟨c :: text, List.suffix_rfl, .keep c hrest⟩
    · exact (ih hlater).imp_left fun ⟨y, hy, hmasked⟩ => ⟨y, hy.trans (List.suffix_cons c text), hmasked⟩
  | @replace c piece text out hc hrest ih =>
    -- the end starts behind the mark, or within it
    rcases suffix_append_cases hz with hlater | ⟨w, rfl, hw⟩
    · exact (ih hlater).imp_left fun ⟨y, hy, hmasked⟩ => ⟨y, hy.trans (List.suffix_append _ _), hmasked⟩
    · by_cases hne : w = []
      case pos =>
        rw [hne, List.nil_append]
        exact .inl ⟨text, List.suffix_append _ _, hrest⟩
      case neg => exact .inr ⟨w, out, hw, hne, rfl⟩

end Masked

end Reconciler
