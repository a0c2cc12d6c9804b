import Reconciler.Proofs.Redaction.Settled

/-! # Sanitizing twice

A message is sanitized more than once on its way to a log. The second time a value may be found that was none
before: the mark is no value of a token, so a separator in front of it is taken for one. This does not happen
where the values stand apart from the names in front of them.

Main definitions and statements:

* `PasswordsOnce`, `TokensApart`, `Redactable`: a text whose credentials are replaced once and for all;
* `PasswordsOnce.settled_redact`, `settled_redact_stringData`, `TokensApart.settled_redact`: the pass of each form
  over such a text settles it;
* `Form.Settled.redact_other`, `Form.Settled.stringData_masked`: and the later passes keep what the earlier ones
  have settled;
* `sanitize_idempotent`: sanitizing such a text again leaves it as it is;
* `not_idempotent`: there are others.
-/

namespace Reconciler

/-! ## Passwords -/

section Passwords

variable {text before after : List Char}

theorem secret_of_mark : ∀ c ∈ redactionMark, isSecretChar c :=
  List.all_eq_true.mp (by decide : redactionMark.all isSecretChar = true)

/-- A mark is found behind the name of a password, if it is not the beginning of a longer value. -/
theorem Lead.password_mark (h : Lead "password".toList before)
    (hafter : ∀ c ∈ after.head?, isSecretChar c = false) :
    Form.password.matchAt (before ++ (redactionMark ++ after)) = some (before, redactionMark) := by
  cases h with
  | @mk written quote separators quote' hwritten hquote hseparators hall hquote' =>
    have hstart : ∀ c ∈ (quote' ++ redactionMark).head?, isSeparator c = false := by
      rcases hquote' with rfl | ⟨q, hq, rfl⟩
      · rintro c ⟨⟩
        rfl
      · simpa using not_separator_of_quote hq
    rw [matchAt_password, ← List.append_assoc]
    exact withName_of_run (fun _ => not_quote_of_secret) hwritten hquote hseparators hall hquote' hstart
      (by decide) secret_of_mark hafter

/-- Masking a text adds no password where none was found. -/
theorem Masked.password_none {out : List Char} (h : Masked isSecretChar text out)
    (hnone : Form.password.matchAt text = none) : Form.password.matchAt out = none :=
  h.run_none (by decide) (fun _ => not_quote_of_secret) hnone

/-- The value of a password ends in front of a delimiter. -/
theorem stops_of_password {secret : List Char}
    (h : Form.password.matchAt (before ++ secret ++ after) = some (before, secret)) :
    ∀ c ∈ after.head?, isSecretChar c = false :=
  stops_of_run (fun _ => not_quote_of_secret) h

theorem foldCase_of_password {c : Char} {rest : List Char} {found : List Char × List Char}
    (h : Form.password.matchAt (c :: rest) = some found) : foldCase c = 'p' := by
  rw [matchAt_password] at h
  exact foldCase_of_withName h

/-- The values of passwords are not found before their places. -/
def PasswordsOnce (text : List Char) : Prop :=
  ∀ z, z <:+ text → ∀ before secret, Form.password.matchAt z = some (before, secret) →
    ∀ u, u <:+ before → u ≠ [] → ¬ secret <+: u ++ secret

/-- When the values are not found before their places, one pass settles all passwords. -/
theorem PasswordsOnce.settled_redact (h : PasswordsOnce text) :
    Form.password.Settled (Form.password.redact text) := by
  refine Form.settled_redact (by simp [sensitiveForms]) startsWith_run Masked.password_none
    fun before secret after hz hmatch => ?_
  obtain ⟨-, -, hsecret⟩ := Form.text_of_matchAt hmatch
  have hlead := (lead_of_run hmatch).1
  refine ⟨before, replaceFrom_once hsecret before (h _ hz _ _ hmatch),
    fun rest hmasked c w hw before' secret' hmatch' => ?_⟩
  -- the name starts nowhere else in front of the value
  have hwhole : c :: w = before :=
    hlead.eq_of_suffix (by decide) rfl rfl hw (foldCase_of_password hmatch')
  rw [hwhole, hlead.password_mark (hmasked.stops (stops_of_password hmatch))] at hmatch'
  cases hmatch'
  rfl

end Passwords

/-! ## Variables -/

/-- What is found behind a name is found behind the end of the name. -/
theorem exists_withName_of_append {value : ValueForm} {front word text before secret : List Char}
    (h : Form.withName value text (front ++ word) = some (before, secret)) :
    ∃ z before', z <:+ text ∧ Form.withName value z word = some (before', secret) := by
  obtain ⟨written, quote, rest, between, rfl, hwritten, hquote, hfind, -⟩ := Form.withName_eq_some.mp h
  obtain ⟨written₁, written₂, rfl, -, hword⟩ := List.map_eq_append_iff.mp hwritten
  refine ⟨written₂ ++ (quote ++ rest), _, ?_, Form.withName_eq_some.mpr
    ⟨written₂, quote, rest, between, rfl, hword, hquote, hfind, rfl⟩⟩
  rw [List.append_assoc]
  exact List.suffix_append _ _

/-- The variables are settled with the passwords, since their names end in the name of a password. -/
theorem Form.Settled.variables {text : List Char} (h : Form.password.Settled text) :
    Form.passwordVariable.Settled text := by
  -- a variable is named after what it is for, and then as a password
  have hnames : ∀ name ∈ Form.passwordVariable.names, ∃ front, name = front ++ "password".toList := by
    intro name hname
    simp only [Form.passwordVariable, List.mem_cons, List.not_mem_nil, or_false] at hname
    rcases hname with rfl | rfl | rfl | rfl
    · exact ⟨"postgres_".toList, rfl⟩
    · exact ⟨"keycloak_".toList, rfl⟩
    · exact ⟨"db_".toList, rfl⟩
    · exact ⟨"starlane_".toList, rfl⟩
  intro z hz before secret hmatch
  obtain ⟨name, hname, hfound⟩ := List.exists_of_findSome?_eq_some hmatch
  obtain ⟨front, rfl⟩ := hnames name hname
  obtain ⟨y, before', hy, hpassword⟩ := exists_withName_of_append hfound
  refine h y (hy.trans hz) before' secret ?_
  rw [matchAt_password]
  exact hpassword

/-! ## Other forms behind passwords -/

section Others

variable {form : Form} {word text before secret after : List Char}

/-- What stands in front of a value is a lead of one of the names. -/
theorem lead_of_matchAt (h : form.matchAt text = some (before, secret)) :
    ∃ name ∈ form.names, Lead name before := by
  obtain ⟨name, hname, hfound⟩ := List.exists_of_findSome?_eq_some h
  refine ⟨name, hname, ?_⟩
  cases hvalue : form.value with
  | run ok =>
    rw [hvalue] at hfound
    exact (lead_of_withName hfound).1
  | braced =>
    rw [hvalue] at hfound
    exact (lead_of_braced hfound).1

/-- The lead of a match has no bracket in it. -/
theorem bracket_of_matchAt (hform : form ∈ sensitiveForms)
    (h : form.matchAt text = some (before, secret)) : '[' ∉ before := by
  have hnames : ∀ form ∈ sensitiveForms, ∀ name ∈ form.names, '[' ∉ name := by decide
  obtain ⟨name, hname, hlead⟩ := lead_of_matchAt h
  exact hlead.bracket_not_mem (hnames form hform name hname)

/-- A form is not found between a lead and the mark behind it, if its names have a letter that the lead does not
have. -/
theorem matchAt_in_lead {l c : Char} {w : List Char} (hlead : Lead word before)
    (hl : l ∉ word) (hseparator : isSeparator l = false) (hquote : isQuote l = false)
    (hnames : ∀ name ∈ form.names, l ∈ name ∧ '[' ∉ name) (hw : c :: w <:+ before) (rest : List Char) :
    form.matchAt (c :: w ++ (redactionMark ++ rest)) = none := by
  cases hmatch : form.matchAt (c :: w ++ (redactionMark ++ rest)) with
  | none => rfl
  | some found =>
    obtain ⟨name, hname, hfound⟩ := List.exists_of_findSome?_eq_some hmatch
    obtain ⟨written, quote, behind, between, htext, rfl, -⟩ := Form.withName_eq_some.mp hfound
    obtain ⟨hmem, hbracket⟩ := hnames _ hname
    obtain ⟨d, hd, rfl⟩ := List.mem_map.mp hmem
    have hnone : '[' ∉ written := fun h => hbracket (List.mem_map_of_mem h)
    obtain ⟨more, hmore, -⟩ := exists_append_of_not_mem hnone htext.symm
    have hbefore : d ∈ before := hw.subset (by rw [hmore]; simp [hd])
    exact absurd rfl (hlead.foldCase_ne hl hseparator hquote d hbefore)

/-- Where a form is found nowhere in the first part of a text, it is redacted in the rest. -/
theorem redact_past (front rest : List Char)
    (h : ∀ w, w <:+ front → w ≠ [] → form.matchAt (w ++ rest) = none) :
    form.redact (front ++ rest) = front ++ form.redact rest := by
  induction front with
  | nil => rfl
  | cons c front ih =>
    have hhere : form.matchAt (c :: (front ++ rest)) = none :=
      h (c :: front) List.suffix_rfl (List.cons_ne_nil _ _)
    rw [List.cons_append, redact_of_none hhere, ih fun w hw => h w (hw.trans (List.suffix_cons c front))]
    rfl

/-- A lead and the mark behind it are left as they are by a form whose names have a letter that the lead does not
have. -/
theorem Lead.redact_mark {l : Char} (hlead : Lead word before) (hform : form ∈ sensitiveForms) (hl : l ∉ word)
    (hseparator : isSeparator l = false) (hquote : isQuote l = false)
    (hnames : ∀ name ∈ form.names, l ∈ name ∧ '[' ∉ name) (after : List Char) :
    form.redact (before ++ redactionMark ++ after) = before ++ redactionMark ++ form.redact after := by
  refine redact_past _ _ fun w hw hne => ?_
  rcases suffix_append_cases hw with hin | ⟨w', rfl, hin⟩
  · exact matchAt_in_mark hform hin hne after
  · rw [List.append_assoc]
    cases w' with
    | nil => exact matchAt_in_mark hform List.suffix_rfl (by decide) after
    | cons d w' => exact matchAt_in_lead hlead hl hseparator hquote hnames hin after

/-- What is in a marked text was there before, or is in the mark. -/
theorem Marked.mem {out : List Char} (h : Marked text out) {c : Char} (hc : c ∈ out) :
    c ∈ text ∨ c ∈ redactionMark := by
  induction h with
  | nil => cases hc
  | keep d _ ih =>
    rcases List.mem_cons.mp hc with rfl | hc
    · exact .inl List.mem_cons_self
    · exact (ih hc).imp_left (List.mem_cons_of_mem d)
  | replace _ _ ih =>
    rcases List.mem_append.mp hc with hc | hc
    · exact .inr hc
    · exact (ih hc).imp_left (List.mem_append_right _)

/-- The passes of the other forms keep the passwords settled. Their names have a letter that the name of a
password does not have, and the other way round. -/
theorem Form.Settled.redact_other (hform : form ∈ sensitiveForms)
    (hnames : ∀ name ∈ form.names, ('t' ∈ name ∧ '[' ∉ name) ∧ 'p' ∉ name)
    (hstart : form.StartsWith isSecretChar) (h : Form.password.Settled text)
    (hlast : ∀ z, z <:+ text → ∀ before secret, form.matchAt z = some (before, secret) →
      ∃ out, redacted before secret = out ++ redactionMark ∧ Marked before out) :
    Form.password.Settled (form.redact text) := by
  refine form.redact_induct (motive := fun z out => z <:+ text → Form.password.Settled out) ?_ ?_ ?_ text
    List.suffix_rfl
  · exact fun _ => Form.settled_nil _
  · intro c z hnone ih hz
    refine (ih ((List.suffix_cons c z).trans hz)).cons fun before secret hmatch => ?_
    cases hbefore : Form.password.matchAt (c :: z) with
    | none =>
      have hmasked : Masked isSecretChar (c :: z) (c :: form.redact z) := .keep c (masked_redact hstart z)
      rw [hmasked.password_none hbefore] at hmatch
      cases hmatch
    | some found =>
      -- a mark was found here before, and the pass leaves the lead and the mark as they are
      obtain ⟨before', secret'⟩ := found
      obtain rfl := h _ hz _ _ hbefore
      obtain ⟨after, htext, -⟩ := Form.text_of_matchAt hbefore
      have hlead := (lead_of_run hbefore).1
      have hpast := hlead.redact_mark hform (by decide) rfl rfl (fun name hname => (hnames name hname).1) after
      rw [htext] at hbefore
      have hstops := (masked_redact hstart after).stops (stops_of_password hbefore)
      rw [← redact_of_none hnone, htext, hpast, List.append_assoc, hlead.password_mark hstops] at hmatch
      cases hmatch
      rfl
  · intro before secret after hmatch ih hz
    obtain ⟨out, hout, hmarked⟩ := hlast _ hz _ _ hmatch
    obtain ⟨name, hname, hlead⟩ := lead_of_matchAt hmatch
    rw [hout]
    refine settled_of_parts (by simp [sensitiveForms]) (ih ((List.suffix_append _ _).trans hz))
      fun c w hw before' secret' hmatch' => ?_
    -- the name of a password does not start in what is left in front of the mark
    have hc := foldCase_of_password hmatch'
    have hmark : 'p' ∉ redactionMark.map foldCase := by decide
    rcases hmarked.mem (hw.subset List.mem_cons_self) with hin | hin
    · exact absurd hc (hlead.foldCase_ne (hnames name hname).2 rfl rfl c hin)
    · exact absurd (hc ▸ List.mem_map_of_mem hin) hmark

end Others

/-! ## Values in braces -/

section Braces

variable {ok : Char → Bool} {text out before secret : List Char}

/-- String data has one name, and its value is in braces. -/
theorem matchAt_stringData (text : List Char) :
    Form.stringData.matchAt text = Form.withName .braced text "stringdata".toList :=
  matchAt_singleton _ _ text

/-- What is found in braces starts with a brace, and there is none before it. -/
theorem braced_of_stringData (h : Form.stringData.matchAt text = some (before, secret)) :
    (∃ inside, secret = '\x7b' :: inside) ∧ '\x7b' ∉ before := by
  rw [matchAt_stringData] at h
  obtain ⟨hlead, hinside⟩ := lead_of_braced h
  exact ⟨hinside, fun hmem => hlead.foldCase_ne (by decide) rfl rfl _ hmem rfl⟩

theorem stringData_startsWith : Form.stringData.StartsWith isSecretChar := by
  intro text before secret hmatch c hc
  obtain ⟨⟨inside, rfl⟩, -⟩ := braced_of_stringData hmatch
  cases hc
  rfl

/-- The value is not found before its place. -/
theorem redacted_stringData (h : Form.stringData.matchAt text = some (before, secret)) :
    redacted before secret = before ++ redactionMark := by
  obtain ⟨⟨inside, rfl⟩, hnone⟩ := braced_of_stringData h
  refine replaceFrom_once (List.cons_ne_nil _ _) before fun u hu hne hfound => ?_
  obtain ⟨c, u, rfl⟩ := List.exists_cons_of_ne_nil hne
  obtain ⟨rfl, -⟩ := List.cons_prefix_cons.mp hfound
  exact hnone (hu.subset List.mem_cons_self)

/-- Where no value in braces is found, none is found after masking the text. -/
theorem Masked.stringData_none (h : Masked ok text out) (hnone : Form.stringData.matchAt text = none) :
    Form.stringData.matchAt out = none := by
  cases hmatch : Form.stringData.matchAt out with
  | none => rfl
  | some found =>
    obtain ⟨before, secret⟩ := found
    rw [matchAt_stringData] at hmatch hnone
    obtain ⟨written, quote, separators, inside, after, rfl, rfl, hwritten, hquote, hseparators, hall, rfl,
      hclosed⟩ := braced_of_withName hmatch
    -- the lead and the opening brace have no bracket in them, so they were there before
    have hbracket : '[' ∉ written ++ quote ++ separators ++ ['\x7b'] := by
      simpa using (Lead.unquoted hwritten hquote hseparators hall).bracket_not_mem (by decide)
    have hmasked : Masked ok text (written ++ quote ++ separators ++ ['\x7b'] ++ (inside ++ after)) := by
      simpa using h
    obtain ⟨rest, rfl, hrest⟩ := hmasked.kept _ hbracket
    have hmark : '\x7d' ∉ redactionMark := by decide
    -- the mark closes no braces, so the closing one was there before as well
    have hclosed' : '\x7d' ∈ rest := by
      rcases hrest.marked.mem (List.mem_append_left after hclosed) with hin | hin
      · exact hin
      · exact absurd hin hmark
    obtain ⟨found, hfound⟩ := exists_withName_braced hwritten hquote hseparators hall hclosed'
    rw [List.append_assoc, List.singleton_append, hfound] at hnone
    cases hnone

/-- One pass settles the values in braces. -/
theorem settled_redact_stringData (text : List Char) :
    Form.stringData.Settled (Form.stringData.redact text) := by
  refine Form.settled_redact (by simp [sensitiveForms]) stringData_startsWith Masked.stringData_none
    fun before secret after _ hmatch => ?_
  obtain ⟨-, hnone⟩ := braced_of_stringData hmatch
  refine ⟨before, redacted_stringData hmatch, fun rest _ c w hw before' secret' hmatch' => ?_⟩
  -- the brace would stand in front of the mark
  obtain ⟨⟨inside, rfl⟩, -⟩ := braced_of_stringData hmatch'
  have hbracket := bracket_of_matchAt (by simp [sensitiveForms]) hmatch'
  obtain ⟨more, hmore⟩ := exists_front_of_matchAt hmatch' hbracket (by decide)
  exact absurd (hw.subset (by rw [hmore]; simp)) hnone

/-- Where no value in braces is found anywhere, none is found after masking the text. -/
theorem Form.Settled.stringData_masked (h : Form.stringData.Settled text) (hmasked : Masked ok text out) :
    Form.stringData.Settled out := by
  intro z hz before secret hmatch
  obtain ⟨y, hy, hmasked⟩ := hmasked.exists_suffix (by simp [sensitiveForms]) hz hmatch
  cases hbefore : Form.stringData.matchAt y with
  | none =>
    rw [hmasked.stringData_none hbefore] at hmatch
    cases hmatch
  | some found =>
    obtain ⟨before', secret'⟩ := found
    obtain rfl := h y hy before' secret' hbefore
    obtain ⟨⟨inside, hinside⟩, -⟩ := braced_of_stringData hbefore
    exact absurd (List.cons.inj hinside).1 (by decide)

end Braces

/-! ## Tokens -/

def firstSeparators (text : List Char) : List Char :=
  (text.dropWhile (!isSeparator ·)).takeWhile isSeparator

/-- The tokens in a text stand apart from what is in front of them: no end of it is a beginning of the token, and
of the separators only the first may be a `=`, which might itself be taken for a token. -/
structure TokensApart (text : List Char) : Prop where
  apart : ∀ z, z <:+ text → ∀ before secret, Form.token.matchAt z = some (before, secret) →
    ∀ u, u <:+ before → u ≠ [] → ¬ u <+: secret
  equals : ∀ z, z <:+ text → (Form.token.matchAt z).isSome → '=' ∉ (firstSeparators z).tail

section Tokens

variable {ok : Char → Bool} {word text out before secret after : List Char}

/-- Tokens stand apart in the rest of a text in which they stand apart. -/
theorem TokensApart.of_suffix {z : List Char} (h : TokensApart text) (hz : z <:+ text) : TokensApart z :=
  ⟨fun y hy => h.apart y (hy.trans hz), fun y hy => h.equals y (hy.trans hz)⟩

/-- A token has one name, and its value is a run. -/
theorem matchAt_token (text : List Char) :
    Form.token.matchAt text = Form.withName (.run isTokenChar) text "token".toList :=
  matchAt_singleton _ _ text

theorem not_quote_of_token {c : Char} (h : isTokenChar c) : isQuote c = false :=
  not_quote_of_secret (secret_of_token h)

/-- In front of the value of a token, the marks are made in the lead only. -/
theorem TokensApart.redacted_eq (h : TokensApart text)
    (hmatch : Form.token.matchAt text = some (before, secret)) :
    ∃ out, redacted before secret = out ++ redactionMark ∧ Marked before out := by
  obtain ⟨after, -, hsecret⟩ := Form.text_of_matchAt hmatch
  have hapart := h.apart text List.suffix_rfl before secret hmatch
  refine replaceFrom_last hsecret before (fun u v hu hne huv _ => ?_) 0 (Nat.zero_le _)
  exact absurd (by rw [huv]; exact List.prefix_append u v) (hapart u hu hne)

/-- What is behind a character that stops the search is found behind the first such character. -/
theorem mem_tail_dropWhile {p : Char → Bool} {e d : Char} {front back : List Char} (he : p e = false)
    (hd : d ∈ back) : d ∈ ((front ++ e :: back).dropWhile p).tail := by
  induction front with
  | nil => simpa [he] using hd
  | cons c front ih =>
    rw [List.cons_append, List.dropWhile_cons]
    split
    · exact ih
    · simp [hd]

/-- The separators behind a name are the first ones. -/
theorem dropWhile_written {written quote separators rest : List Char} (hwritten : written.map foldCase = word)
    (hword : ∀ l ∈ word, isSeparator l = false) (hquote : OptionalQuote quote) (hne : separators ≠ [])
    (hall : ∀ c ∈ separators, isSeparator c) :
    (written ++ quote ++ (separators ++ rest)).dropWhile (!isSeparator ·) = separators ++ rest := by
  refine dropWhile_run (fun c hc => ?_) fun c hc => ?_
  · -- neither a letter of the name nor a quote is a separator
    rw [Bool.not_eq_true', Bool.eq_false_iff]
    intro hseparator
    rcases List.mem_append.mp hc with hc | hc
    · have hmem : foldCase c ∈ word := hwritten ▸ List.mem_map_of_mem hc
      rw [foldCase_of_separator hseparator] at hmem
      rw [hword c hmem] at hseparator
      cases hseparator
    · rw [not_separator_of_quote (isQuote_of_mem hquote hc)] at hseparator
      cases hseparator
  · rw [List.head?_append_of_ne_nil _ hne] at hc
    rw [hall c (List.mem_of_mem_head? hc)]
    rfl

theorem not_separator_of_mem_token : ∀ l ∈ "token".toList, isSeparator l = false :=
  fun _ => not_separator_of_mem_name (by simp [sensitiveForms] : Form.token ∈ sensitiveForms) (.head _)

/-- When a token could start within the lead of a token, a `=` is behind the first of its separators. -/
theorem equals_of_lead {d : Char} {before' more : List Char} (hlead : Lead "token".toList before)
    (hlead' : Lead word before') (hd : isTokenChar d) (h : before' ++ d :: more <:+ before)
    (rest : List Char) : '=' ∈ (firstSeparators (before ++ rest)).tail := by
  obtain ⟨x, hx⟩ := h
  cases hlead with
  | @mk written quote separators quote' hwritten hquote hne hall hquote' =>
    have hfirst := fun rest =>
      @dropWhile_written _ written quote separators rest hwritten not_separator_of_mem_token hquote hne hall
    obtain ⟨s, separators, rfl⟩ := List.exists_cons_of_ne_nil hne
    -- the token starts behind separators, so not in the name
    have hmem : d ∈ separators ++ quote' := by
      cases hlead' with
      | @mk written₂ quote₂ separators₂ quote₂' _ _ hne₂ hall₂ _ =>
        obtain ⟨e, separators₂, rfl⟩ := List.exists_cons_of_ne_nil hne₂
        have he : (!isSeparator e) = false := by simp [hall₂ e List.mem_cons_self]
        have htail := @mem_tail_dropWhile (!isSeparator ·) e d (x ++ written₂ ++ quote₂)
          (separators₂ ++ quote₂' ++ d :: more) he (by simp)
        have hwhole : x ++ written₂ ++ quote₂ ++ e :: (separators₂ ++ quote₂' ++ d :: more) =
            written ++ quote ++ (s :: separators ++ quote') := by
          rw [← List.append_assoc _ (s :: separators), ← hx]
          simp
        rw [hwhole, hfirst] at htail
        exact htail
    -- it is a separator, and the only separator that may be part of a token
    have hseparator : d ∈ separators := by
      rcases List.mem_append.mp hmem with hin | hin
      · exact hin
      · have hquoted := isQuote_of_mem hquote' hin
        rw [not_quote_of_token hd] at hquoted
        cases hquoted
    obtain rfl := eq_of_token_separator hd (hall d (List.mem_cons_of_mem s hseparator))
    rw [firstSeparators, List.append_assoc, List.append_assoc, hfirst, List.takeWhile_append_of_pos hall]
    exact List.mem_append_left _ hseparator

/-- Masking a text may only make a row of separators shorter. -/
theorem Masked.takeWhile_separators (h : Masked ok text out) :
    out.takeWhile isSeparator <+: text.takeWhile isSeparator := by
  have hsplit : out.takeWhile isSeparator ++ out.dropWhile isSeparator = out :=
    List.takeWhile_append_dropWhile
  have hbracket : '[' ∉ out.takeWhile isSeparator :=
    fun hmem => absurd (List.mem_takeWhile_imp hmem) (by decide)
  rw [← hsplit] at h
  obtain ⟨rest, rfl, -⟩ := h.kept _ hbracket
  rw [List.takeWhile_append_of_pos fun c hc => List.mem_takeWhile_imp hc]
  exact List.prefix_append _ _

/-- The first separators behind a lead are at most those that were there before a value was masked. -/
theorem firstSeparators_masked {rest rest' : List Char} (hlead : Lead "token".toList before)
    (h : Masked ok rest rest') : firstSeparators (before ++ rest') <+: firstSeparators (before ++ rest) := by
  cases hlead with
  | @mk written quote separators quote' hwritten hquote hne hall _ =>
    have hfirst := fun rest =>
      @dropWhile_written _ written quote separators rest hwritten not_separator_of_mem_token hquote hne hall
    have hsplit : ∀ rest, written ++ quote ++ separators ++ quote' ++ rest =
        written ++ quote ++ (separators ++ (quote' ++ rest)) := by
      simp
    rw [hsplit, hsplit, firstSeparators, firstSeparators, hfirst, hfirst]
    exact ((Masked.refl _).append ((Masked.refl _).append h)).takeWhile_separators

/-- A token that is followed by more of its class is a beginning of the token that is found then, or a `=`
behind the first separator. -/
theorem token_grows (h : Form.token.matchAt (before ++ secret ++ after) = some (before, secret))
    (rest : List Char) : '=' ∈ (firstSeparators (before ++ secret ++ after)).tail ∨
      Form.token.matchAt (before ++ secret ++ rest) =
        some (before, secret ++ rest.takeWhile isTokenChar) := by
  obtain ⟨-, hsecret⟩ := lead_of_run h
  rw [matchAt_token] at h ⊢
  have hfound := found_of_withName h
  generalize before ++ secret ++ after = text at hfound
  cases hfound with
  | @run written quote separators quote' secret after' hwritten hquote hne hall hquote' hstart hne' hok _ =>
    right
    -- the run does not start with a separator, whatever follows it
    have hhead : ∀ c ∈ (quote' ++ (secret ++ rest.takeWhile isTokenChar)).head?, isSeparator c = false := by
      rw [List.head?_append_of_ne_nil _ (by simp [hne'])] at hstart
      rwa [← List.append_assoc, List.head?_append_of_ne_nil _ (by simp [hne'])]
    have hgrown := withName_of_run (fun _ => not_quote_of_token) hwritten hquote hne hall hquote' hhead
      (by simp [hne']) (fun c hc => ?_) (head?_dropWhile rest)
    · rwa [List.append_assoc _ (_ ++ _), List.append_assoc secret, List.takeWhile_append_dropWhile,
        ← List.append_assoc] at hgrown
    · rcases List.mem_append.mp hc with hin | hin
      · exact hok c hin
      · exact List.mem_takeWhile_imp hin
  | @separator written quote before' after' rest' c hwritten hquote hall hne _ _ _ =>
    left
    -- the value starts at a separator, which can only be an equals sign
    obtain rfl := eq_of_token_separator (hsecret c List.mem_cons_self) (hall c (by simp))
    obtain ⟨s, before', rfl⟩ := List.exists_cons_of_ne_nil hne
    rw [firstSeparators, List.append_assoc (written ++ quote),
      dropWhile_written hwritten not_separator_of_mem_token hquote (by simp) hall, List.takeWhile_append_of_pos hall]
    simp

/-- A token that is found after masking a text was there before, and a token was found there. -/
theorem Masked.exists_token (h : Masked ok text out)
    (hmatch : Form.token.matchAt out = some (before, secret)) :
    ∃ rest after, text = before ++ secret ++ rest ∧ out = before ++ secret ++ after ∧
      Masked ok rest after ∧ (Form.token.matchAt text).isSome := by
  obtain ⟨hlead, hsecret⟩ := lead_of_run hmatch
  obtain ⟨after, rfl, hne⟩ := Form.text_of_matchAt hmatch
  have hclosed : isTokenChar '[' = false := by decide
  -- neither the lead nor the token has a bracket in it, so both were there before
  have hbracket : '[' ∉ before ++ secret := by
    simp only [List.mem_append, not_or]
    exact ⟨hlead.bracket_not_mem (by decide), fun hin => by simp [hsecret _ hin] at hclosed⟩
  obtain ⟨rest, rfl, hrest⟩ := h.kept _ hbracket
  obtain ⟨c, secret, rfl⟩ := List.exists_cons_of_ne_nil hne
  obtain ⟨found, hfound⟩ := hlead.exists_matchAt (fun _ => not_quote_of_token)
    (hsecret c List.mem_cons_self) (secret ++ rest)
  refine ⟨rest, after, rfl, rfl, hrest, ?_⟩
  rw [List.append_assoc, List.cons_append]
  exact Option.isSome_iff_exists.mpr ⟨found, hfound⟩

/-- The tokens stand apart as before when the text is masked. -/
theorem TokensApart.masked (h : TokensApart text) (hmasked : Masked ok text out) : TokensApart out := by
  have hequals : ∀ z, z <:+ out → (Form.token.matchAt z).isSome → '=' ∉ (firstSeparators z).tail := by
    intro z hz hsome hmem
    obtain ⟨⟨before, secret⟩, hmatch⟩ := Option.isSome_iff_exists.mp hsome
    obtain ⟨y, hy, hmasked⟩ := hmasked.exists_suffix (by simp [sensitiveForms]) hz hmatch
    obtain ⟨rest, after, rfl, rfl, hrest, hbefore⟩ := hmasked.exists_token hmatch
    have hbegins := firstSeparators_masked (lead_of_run hmatch).1 ((Masked.refl secret).append hrest)
    rw [← List.append_assoc, ← List.append_assoc] at hbegins
    rw [← List.drop_one] at hmem
    exact h.equals _ hy hbefore (List.drop_one ▸ (hbegins.drop 1).subset hmem)
  refine ⟨fun z hz before secret hmatch u hu hne hstart => ?_, hequals⟩
  obtain ⟨y, hy, hmasked⟩ := hmasked.exists_suffix (by simp [sensitiveForms]) hz hmatch
  obtain ⟨rest, after, rfl, rfl, -, -⟩ := hmasked.exists_token hmatch
  -- the same token was there before, and perhaps more of its class behind it
  rcases token_grows hmatch rest with hmem | hgrown
  · exact hequals _ hz (by rw [hmatch]; rfl) hmem
  · exact h.apart _ hy _ _ hgrown u hu hne (hstart.trans (List.prefix_append _ _))

/-- One pass settles the tokens. -/
theorem TokensApart.settled_redact (h : TokensApart text) : Form.token.Settled (Form.token.redact text) := by
  refine Form.settled_redact (by simp [sensitiveForms]) startsWith_run
    (fun hmasked => hmasked.run_none (by decide) fun _ => not_quote_of_token)
    fun before secret after hz hmatch => ?_
  obtain ⟨out, hout, hmarked⟩ := (h.of_suffix hz).redacted_eq hmatch
  have hlead : Lead "token".toList before := (lead_of_run hmatch).1
  refine ⟨out, hout, fun rest _ c w hw before' secret' hmatch' => ?_⟩
  -- a token in front of the mark would start within the lead
  obtain ⟨hlead', hsecret'⟩ := lead_of_run hmatch'
  obtain ⟨-, -, hne⟩ := Form.text_of_matchAt hmatch'
  obtain ⟨d, secret', rfl⟩ := List.exists_cons_of_ne_nil hne
  have hd : isTokenChar d := hsecret' d List.mem_cons_self
  have hbracket := hlead'.bracket_not_mem (by decide)
  have hbracket' : '[' ≠ d := fun heq => absurd (heq ▸ hd) (by decide)
  obtain ⟨more, hmore⟩ := exists_front_of_matchAt hmatch' hbracket hbracket'
  rcases hmarked.masked.suffix hw with ⟨y, hy, hmasked⟩ | ⟨v, rest', hv, hne, heq⟩
  · rw [hmore, ← List.singleton_append, ← List.append_assoc] at hmasked
    obtain ⟨more', rfl, -⟩ := hmasked.kept _ (by simpa [hbracket] using hbracket')
    rw [List.append_assoc] at hy
    have hequals := equals_of_lead hlead hlead' hd hy (secret ++ after)
    rw [← List.append_assoc] at hequals
    exact absurd hequals (h.equals _ hz (by rw [hmatch]; rfl))
  · rw [heq, List.append_assoc, matchAt_in_mark (by simp [sensitiveForms]) hv hne] at hmatch'
    cases hmatch'

end Tokens

/-! ## Messages -/

/-- A text whose credentials are replaced once and for all. -/
structure Redactable (text : List Char) : Prop where
  passwords : PasswordsOnce text
  tokens : TokensApart text

section Messages

variable {text : List Char}

instance (text : List Char) : Decidable (PasswordsOnce text) :=
  decidable_of_iff (∀ z ∈ text.tails, ∀ found ∈ Form.password.matchAt z, ∀ u ∈ found.1.tails, u ≠ [] →
      ¬ found.2 <+: u ++ found.2) (by simp [PasswordsOnce])

instance (text : List Char) : Decidable (TokensApart text) :=
  decidable_of_iff ((∀ z ∈ text.tails, ∀ found ∈ Form.token.matchAt z, ∀ u ∈ found.1.tails, u ≠ [] →
      ¬ u <+: found.2) ∧
    ∀ z ∈ text.tails, (Form.token.matchAt z).isSome → '=' ∉ (firstSeparators z).tail) (by
    constructor
    · rintro ⟨hapart, hequals⟩
      exact ⟨by simpa using hapart, by simpa using hequals⟩
    · rintro ⟨hapart, hequals⟩
      exact ⟨by simpa using hapart, by simpa using hequals⟩)

instance (text : List Char) : Decidable (Redactable text) :=
  decidable_of_iff (PasswordsOnce text ∧ TokensApart text) ⟨fun ⟨h, h'⟩ => ⟨h, h'⟩, fun ⟨h, h'⟩ => ⟨h, h'⟩⟩

/-- What is left of such a text is settled: the first pass settles the passwords, the third the values in braces,
the last the tokens, and no pass unsettles what an earlier one has settled. -/
theorem Redactable.settled (h : Redactable text) : ∀ form ∈ sensitiveForms,
    form.Settled (sensitiveForms.foldl (fun text form => form.redact text) text) := by
  have hpasswords : Form.password.Settled (Form.password.redact text) := h.passwords.settled_redact
  -- the tokens are looked for last, after the other forms have masked the text
  have htokens : TokensApart (Form.stringData.redact (Form.password.redact text)) := by
    have hmasked : Masked isSecretChar text (Form.password.redact text) := masked_redact startsWith_run text
    exact (h.tokens.masked hmasked).masked (masked_redact stringData_startsWith _)
  have hbraces : Form.password.Settled (Form.stringData.redact (Form.password.redact text)) := by
    refine hpasswords.redact_other (by simp [sensitiveForms]) (by decide) stringData_startsWith ?_
    exact fun z _ before secret hmatch => ⟨before, redacted_stringData hmatch, .refl before⟩
  have hlast : Form.password.Settled
      (Form.token.redact (Form.stringData.redact (Form.password.redact text))) := by
    refine hbraces.redact_other (by simp [sensitiveForms]) (by decide) ?_ ?_
    · exact fun text before secret hmatch c hc => secret_of_token (startsWith_run _ _ _ hmatch c hc)
    · exact fun z hz before secret hmatch => (htokens.of_suffix hz).redacted_eq hmatch
  -- the second form finds nothing that the first has not settled
  have hvariables : Form.passwordVariable.redact (Form.password.redact text) = Form.password.redact text :=
    hpasswords.variables.redact_eq
  -- the values in braces are settled by their own pass, and the last one only masks
  have hstringData : Form.stringData.Settled
      (Form.token.redact (Form.stringData.redact (Form.password.redact text))) := by
    have hmasked : Masked isTokenChar _ (Form.token.redact (Form.stringData.redact (Form.password.redact text))) :=
      masked_redact startsWith_run _
    exact (settled_redact_stringData _).stringData_masked hmasked
  simp only [sensitiveForms, List.foldl_cons, List.foldl_nil, hvariables, List.forall_mem_cons]
  exact ⟨hlast, hlast.variables, hstringData, htokens.settled_redact, by simp⟩

/-- Where everything is settled, no form changes anything. -/
theorem foldl_redact_of_settled (forms : List Form) (h : ∀ form ∈ forms, form.Settled text) :
    forms.foldl (fun text form => form.redact text) text = text := by
  induction forms with
  | nil => rfl
  | cons form forms ih =>
    rw [List.foldl_cons, (h form List.mem_cons_self).redact_eq]
    exact ih fun form hform => h form (List.mem_cons_of_mem _ hform)

/-- Sanitizing a message again changes nothing, when the credentials in it are replaced once and for all. -/
theorem sanitize_idempotent (m : String) (h : Redactable m.toList) : sanitize (sanitize m) = sanitize m := by
  have hsettled := foldl_redact_of_settled sensitiveForms h.settled
  simp only [sanitize, String.toList_ofList, hsettled]

/-- A message with a credential in each form. -/
theorem login_failure_sanitized :
    Redactable "PASSWORD: 'hunter2' (DB_PASSWORD=a=b) token=\"abc.123==\", stringData: \x7btoken: x\x7d".toList ∧
      sanitize (sanitize "PASSWORD: 'hunter2' (DB_PASSWORD=a=b) token=\"abc.123==\", stringData: \x7btoken: x\x7d") =
        sanitize "PASSWORD: 'hunter2' (DB_PASSWORD=a=b) token=\"abc.123==\", stringData: \x7btoken: x\x7d" :=
  have h : Redactable
      "PASSWORD: 'hunter2' (DB_PASSWORD=a=b) token=\"abc.123==\", stringData: \x7btoken: x\x7d".toList := by
    decide +kernel
  ⟨h, sanitize_idempotent _ h⟩

/-- A mark is no token, but the separator in front of it is one: the second time it is replaced as well. -/
theorem not_idempotent :
    sanitize "token = abc" = "token = [REDACTED]" ∧
      sanitize "token = [REDACTED]" = "token [REDACTED] [REDACTED]" ∧
      ¬ ∀ m, sanitize (sanitize m) = sanitize m := by
  have hfirst : sanitize "token = abc" = "token = [REDACTED]" := by decide +kernel
  have hsecond : sanitize "token = [REDACTED]" = "token [REDACTED] [REDACTED]" := by decide +kernel
  refine ⟨hfirst, hsecond, fun hidempotent => ?_⟩
  have hsame := hidempotent "token = abc"
  rw [hfirst, hsecond] at hsame
  exact absurd hsame (by decide)

end Messages

end Reconciler
