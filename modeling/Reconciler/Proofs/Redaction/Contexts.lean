import Reconciler.Proofs.Redaction.Passwords

/-! # Passwords between other texts

A message has `password=` in it, a password behind that, and any text on both sides. What the sanitizer
makes of it does not depend on the password, as long as the password has nine characters and none of
them ends a value or stands in front of one.

Main definitions and statements:

* `Seamless`: such a password;
* `matchAt_in_front`: what is found in front of the label ends there, whatever follows, or runs through
  the label to the first delimiter behind it;
* `not_found_early`: a run through the label and the password does not repeat in front of itself;
* `exists_redact`: the first form leaves the same text for all passwords;
* `sanitize_password_free`: so does the sanitizer.
-/

namespace Reconciler

/-- A password that is longer than `password` and has no delimiter and no separator in it. -/
structure Seamless (w : List Char) : Prop where
  long : 9 ≤ w.length
  secret : ∀ c ∈ w, isSecretChar c
  solid : ∀ c ∈ w, isSeparator c = false

instance (w : List Char) : Decidable (Seamless w) :=
  decidable_of_iff (9 ≤ w.length ∧ w.all isSecretChar ∧ w.all (!isSeparator ·))
    ⟨fun ⟨h₁, h₂, h₃⟩ => ⟨h₁, by simpa using h₂, by simpa using h₃⟩,
      fun ⟨h₁, h₂, h₃⟩ => ⟨h₁, by simpa using h₂, by simpa using h₃⟩⟩

/-! ## One match after another -/

section Matches

/-- Characters that belong to a match are passed over. -/
theorem redactFrom_skip (form : Form) (text : List Char) :
    ∀ skip, form.redactFrom skip text = form.redact (text.drop skip) := by
  induction text with
  | nil =>
    intro skip
    rw [List.drop_nil, Form.redactFrom, Form.redact, Form.redactFrom]
  | cons c text ih =>
    intro skip
    cases skip with
    | zero => rfl
    | succ skip => exact ih skip

/-- Where nothing is found, a character is copied. -/
theorem redact_of_none {form : Form} {c : Char} {text : List Char}
    (h : form.matchAt (c :: text) = none) : form.redact (c :: text) = c :: form.redact text := by
  simp only [Form.redact, Form.redactFrom, h]

/-- Where a form is found, it is redacted, and the scan goes on behind it. -/
theorem redact_of_matchAt {form : Form} {text before secret after : List Char}
    (h : form.matchAt text = some (before, secret)) (htext : text = before ++ secret ++ after) :
    form.redact text = redacted before secret ++ form.redact after := by
  obtain ⟨-, -, hsecret⟩ := Form.text_of_matchAt h
  cases text with
  | nil => simp [hsecret] at htext
  | cons c text =>
    have hrest := redactFrom_skip form text (before.length + secret.length - 1)
    rw [← List.length_append, drop_of_cons_eq htext (by simp [hsecret])] at hrest
    simp only [Form.redact, Form.redactFrom, h, ← List.length_append] at hrest ⊢
    rw [hrest]

/-- A value that is not found before its place is replaced there, and nothing else is. -/
theorem replaceFrom_once {old new : List Char} (hold : old ≠ []) (before : List Char)
    (h : ∀ u, u <:+ before → u ≠ [] → ¬ old <+: u ++ old) :
    replaceFrom old new 0 (before ++ old) = before ++ new := by
  induction before with
  | nil =>
    cases old with
    | nil => exact absurd rfl hold
    | cons c old =>
      have hself : (c :: old).isPrefixOf (c :: old) := List.isPrefixOf_iff_prefix.mpr List.prefix_rfl
      simp only [List.nil_append, replaceFrom, if_pos hself]
      rw [replaceFrom_skip (by simp), List.append_nil]
  | cons c before ih =>
    -- the value is not found at this character, so the scan goes on
    have hhere : ¬ old.isPrefixOf (c :: (before ++ old)) := by
      intro hfound
      exact h (c :: before) List.suffix_rfl (List.cons_ne_nil _ _)
        (List.isPrefixOf_iff_prefix.mp hfound)
    have hlater := ih fun u hu => h u (hu.trans (List.suffix_cons c before))
    simp only [List.cons_append, replaceFrom, if_neg hhere, hlater]

/-- Where a form is found whose value does not appear before its place, the mark takes that place. -/
theorem redact_once {form : Form} {text before secret after : List Char}
    (h : form.matchAt text = some (before, secret)) (htext : text = before ++ secret ++ after)
    (hearly : ∀ u, u <:+ before → u ≠ [] → ¬ secret <+: u ++ secret) :
    form.redact text = before ++ redactionMark ++ form.redact after := by
  obtain ⟨-, -, hsecret⟩ := Form.text_of_matchAt h
  rw [redact_of_matchAt h htext, redacted, replaceFrom_once hsecret before hearly]

end Matches

/-! ## What is found in front of the label -/

section Front

/-- A word whose `p`, if it has one, is behind it does not end in a text that starts with a `p`. -/
theorem afterWord_append {word : List Char} (hp : 'p' ∉ word) (t r : List Char) :
    afterWord word (t ++ 'p' :: r) = (afterWord word t).map (· ++ 'p' :: r) := by
  induction word generalizing t with
  | nil => rfl
  | cons d word ih =>
    rw [List.mem_cons, not_or] at hp
    cases t with
    | nil =>
      -- the label does not continue the word
      have hne : foldCase 'p' ≠ d := fun h => hp.1 (h ▸ by decide)
      simp [afterWord, hne]
    | cons c t =>
      simp only [List.cons_append, afterWord]
      split
      · exact ih hp.2 t
      · rfl

/-- The word of the label is found in front of the label or not at all. -/
theorem afterWord_password {t : List Char} (ht : t ≠ []) (r : List Char) :
    afterWord "password".toList (t ++ 'p' :: r) =
      (afterWord "password".toList t).map (· ++ 'p' :: r) := by
  obtain ⟨c, t, rfl⟩ := List.exists_cons_of_ne_nil ht
  have hword : "password".toList = 'p' :: "assword".toList := rfl
  rw [hword, List.cons_append]
  simp only [afterWord]
  split
  · exact afterWord_append (by decide) t r
  · rfl

/-- A quote is not a `p`, so the label does not change what is taken for one. -/
theorem takeQuote_append (b r : List Char) :
    takeQuote (b ++ 'p' :: r) = ((takeQuote b).1, (takeQuote b).2 ++ 'p' :: r) := by
  cases b with
  | nil => rfl
  | cons c b =>
    simp only [List.cons_append, takeQuote]
    split
    · rfl
    · rfl

/-- The separators behind a name end in front of the label. -/
theorem separators_append (b r : List Char) :
    (b ++ 'p' :: r).takeWhile isSeparator = b.takeWhile isSeparator ∧
      (b ++ 'p' :: r).dropWhile isSeparator = b.dropWhile isSeparator ++ 'p' :: r := by
  have hp : isSeparator 'p' = false := by decide
  induction b with
  | nil => simp [hp]
  | cons c b ih => cases hc : isSeparator c <;> simp [hc, ih]

/-- The value behind a name ends in front of the label, or all that stands there belongs to it. -/
theorem find_append (b : List Char) :
    (∀ r, (ValueForm.run isSecretChar).find (b ++ 'p' :: r) = (ValueForm.run isSecretChar).find b) ∨
      ∃ before front, b = before ++ front ∧ ∀ r, (ValueForm.run isSecretChar).find (b ++ 'p' :: r) =
        some (before, front ++ ('p' :: r).takeWhile isSecretChar) := by
  have hsplit : b.takeWhile isSeparator ++ b.dropWhile isSeparator = b :=
    List.takeWhile_append_dropWhile
  cases hquote : takeQuote (b.dropWhile isSeparator) with | mk quote rest
  obtain ⟨hrest, -⟩ := text_of_takeQuote hquote
  simp only [ValueForm.find, separators_append, takeQuote_append, hquote]
  by_cases hseparators : b.takeWhile isSeparator = []
  · exact Or.inl fun r => by simp only [hseparators, List.isEmpty_nil, if_true]
  -- the run stops in front of the label, or reaches it
  by_cases hall : (rest.takeWhile isSecretChar).length = rest.length
  · have hp : isSecretChar 'p' := by decide
    refine Or.inr ⟨b.takeWhile isSeparator ++ quote, rest, ?_, fun r => ?_⟩
    · rw [List.append_assoc, ← hrest, hsplit]
    · simp [hseparators, List.takeWhile_append, hall, hp]
  · exact Or.inl fun r => by simp only [List.takeWhile_append, if_neg hall]

/-- What is found in front of the label is the same whatever follows, and ends there, or else it runs
through the label up to the first delimiter. -/
theorem matchAt_in_front {t : List Char} (ht : t ≠ []) :
    (∀ r, Form.password.matchAt (t ++ (passwordLabel ++ r)) = Form.password.matchAt t) ∨
      ∃ before front, t = before ++ front ∧ ∀ r, Form.password.matchAt (t ++ (passwordLabel ++ r)) =
        some (before, front ++ (passwordLabel ++ r.takeWhile isSecretChar)) := by
  have hlabel : ∀ r, passwordLabel ++ r = 'p' :: ("assword=".toList ++ r) := fun _ => rfl
  have hrun : ∀ r, ('p' :: ("assword=".toList ++ r)).takeWhile isSecretChar =
      passwordLabel ++ r.takeWhile isSecretChar := by
    intro r
    rw [← hlabel]
    exact List.takeWhile_append_of_pos
      (List.all_eq_true.mp (by decide : passwordLabel.all isSecretChar = true))
  simp only [matchAt_password, Form.withName, hlabel, afterWord_password ht]
  -- the name has to be in front of the label, since the label cannot continue it
  cases hword : afterWord "password".toList t with
  | none => exact Or.inl fun r => rfl
  | some behind =>
    obtain ⟨written, rfl, hmap⟩ := text_of_afterWord hword
    have hwritten : ∀ rest, (written ++ rest).take "password".toList.length = written := by
      intro rest
      rw [← hmap, List.length_map, List.take_left]
    cases hquote : takeQuote behind with | mk quote rest
    obtain ⟨hbehind, -⟩ := text_of_takeQuote hquote
    simp only [Option.map_some, Option.bind_eq_bind, Option.bind_some, takeQuote_append, hquote,
      List.append_assoc, hwritten]
    rcases find_append rest with hfind | ⟨before, front, hrest, hfind⟩
    · exact Or.inl fun r => by rw [hfind]
    · refine Or.inr ⟨written ++ (quote ++ before), front, by simp [hbehind, hrest], fun r => ?_⟩
      rw [hfind, hrun]
      rfl

end Front

/-! ## The password behind the label -/

section Behind

variable {w : List Char}

theorem Seamless.ne_nil (hw : Seamless w) : w ≠ [] := by
  rintro rfl
  exact absurd hw.long (by decide)

/-- A password is taken as a whole, with what follows it up to a delimiter. -/
theorem Seamless.takeWhile_append (hw : Seamless w) (s : List Char) :
    (w ++ s).takeWhile isSecretChar = w ++ s.takeWhile isSecretChar :=
  List.takeWhile_append_of_pos hw.secret

/-- The value behind the label is the password and what follows it up to the first delimiter. -/
theorem matchAt_label (hw : Seamless w) (s : List Char) :
    Form.password.matchAt (passwordLabel ++ (w ++ s)) =
      some (passwordLabel, w ++ s.takeWhile isSecretChar) := by
  have hseparators : ∀ c ∈ ['='], isSeparator c := by simp [isSeparator]
  -- no separator starts the password, so none of it is taken for the lead
  have hstart : ∀ c ∈ (w ++ s.takeWhile isSecretChar).head?, isSeparator c = false := by
    intro c hc
    rw [List.head?_append_of_ne_nil _ hw.ne_nil] at hc
    exact hw.solid c (List.mem_of_mem_head? hc)
  have hrun : ∀ c ∈ w ++ s.takeWhile isSecretChar, isSecretChar c := by
    intro c hc
    rcases List.mem_append.mp hc with hin | hin
    · exact hw.secret c hin
    · exact List.mem_takeWhile_imp hin
  have hsplit : passwordLabel ++ (w ++ s) =
      passwordLabel ++ (w ++ s.takeWhile isSecretChar) ++ s.dropWhile isSecretChar := by
    simp
  rw [matchAt_password, hsplit]
  exact withName_of_run (fun _ => not_quote_of_secret) (rfl : "password".toList.map foldCase = _) (.inl rfl)
    (List.cons_ne_nil _ _) hseparators (.inl rfl) hstart (by simp [hw.ne_nil]) hrun (head?_dropWhile s)

/-- A quote has no character that is of a secret and no separator. -/
theorem countP_optionalQuote {quote : List Char} (h : OptionalQuote quote) :
    quote.countP (fun c => isSecretChar c && !isSeparator c) = 0 := by
  rcases h with rfl | ⟨c, hc, rfl⟩
  · rfl
  · simp [isSecretChar, hc]

/-- Nor has a row of separators. -/
theorem countP_separators {separators : List Char} (h : ∀ c ∈ separators, isSeparator c) :
    separators.countP (fun c => isSecretChar c && !isSeparator c) = 0 :=
  List.countP_eq_zero.mpr fun c hc => by simp [h c hc]

/-- A password does not stand where fewer characters than it has are neither delimiters nor separators. -/
theorem Seamless.not_infix (hw : Seamless w) {text : List Char}
    (h : text.countP (fun c => isSecretChar c && !isSeparator c) ≤ 8) : ¬ w <:+: text := by
  intro hin
  have hall : w.countP (fun c => isSecretChar c && !isSeparator c) = w.length :=
    List.countP_eq_length.mpr fun c hc => by simp [hw.secret c hc, hw.solid c hc]
  have hle : w.countP (fun c => isSecretChar c && !isSeparator c) ≤ _ := hin.sublist.countP_le
  have hlong := hw.long
  omega

/-- A password does not start a text that has a separator among its first nine characters. -/
theorem Seamless.not_start (hw : Seamless w) {start t : List Char} (hstart : start.length ≤ 9)
    (hequals : '=' ∈ start) : ¬ w <+: start ++ t := by
  intro hin
  have hle : start.length ≤ w.length := hstart.trans hw.long
  have hwithin : start <+: w := List.prefix_of_prefix_length_le (List.prefix_append start t) hin hle
  have hsolid := hw.solid '=' (hwithin.subset hequals)
  exact absurd hsolid (by decide)

/-- The value behind the label is not found earlier, in or across the label. -/
theorem not_found_in_label (hw : Seamless w) (s : List Char) {u : List Char} (hu : u <:+ passwordLabel)
    (hne : u ≠ []) : ¬ w ++ s <+: u ++ (w ++ s) := by
  have hequals : '=' ∈ u := by
    rw [passwordLabel_eq] at hu
    rcases List.suffix_concat_iff.mp hu with rfl | ⟨t, rfl, -⟩
    · exact absurd rfl hne
    · simp
  intro hin
  exact hw.not_start (hu.length_le.trans (by decide)) hequals ((List.prefix_append w s).trans hin)

/-- A run through the label and the password is not found earlier: the name in front of it is too short for
the password, and the separators behind the name would have to be in the password. -/
theorem not_found_early (hw : Seamless w) {written quote separators quote' front s secret u : List Char}
    (hsecret : secret = front ++ (passwordLabel ++ (w ++ s)))
    (hwritten : written.length = 8) (hquote : OptionalQuote quote) (hquote' : OptionalQuote quote')
    (hseparators : separators ≠ []) (hall : ∀ c ∈ separators, isSeparator c)
    (hok : ∀ c ∈ secret, isSecretChar c)
    (hhead : quote' = [] → ∀ c ∈ secret.head?, isSeparator c = false)
    (hu : u <:+ written ++ quote ++ separators ++ quote') (hne : u ≠ []) : ¬ secret <+: u ++ secret := by
  intro hin
  rcases prefix_append_cases hin with hin | ⟨v, huv, hv⟩
  · -- the whole value lies in what is in front of it, so the password does, which is too long for that
    have hpassword : w <:+: secret := by
      rw [hsecret]
      exact ⟨front ++ passwordLabel, s, by simp⟩
    have hname : written.countP (fun c => isSecretChar c && !isSeparator c) ≤ _ := List.countP_le_length
    refine hw.not_infix ?_ (hpassword.trans (hin.isInfix.trans hu.isInfix))
    simp only [List.countP_append, countP_optionalQuote hquote, countP_optionalQuote hquote',
      countP_separators hall]
    omega
  · -- the value overlaps itself, so what is skipped consists of its characters
    have hoku : ∀ c ∈ u, isSecretChar c := fun c hc => hok c (by rw [huv]; simp [hc])
    have hheadu : quote' = [] → ∀ c ∈ u.head?, isSeparator c = false := by
      rw [huv, List.head?_append_of_ne_nil u hne] at hhead
      exact hhead
    obtain ⟨n, rfl, hn⟩ := found_within_name hquote hquote' hall hoku hheadu hu hne
    rw [huv] at hv hsecret
    obtain ⟨rfl, more, rfl, hmore⟩ := repeats_only (hwritten ▸ hn.length_le) hseparators hall hv
      front.length front _ le_rfl hsecret
    have hwithin : w <+: more ++ v := (List.prefix_append w s).trans hmore
    cases more with
    | nil =>
      have hstart : w <+: passwordLabel ++ v := passwordLabel_eq ▸ hwithin.trans hv
      exact hw.not_start (by decide) (by decide) hstart
    | cons d more =>
      -- the password would start with a separator
      obtain ⟨c, w, rfl⟩ := List.exists_cons_of_ne_nil hw.ne_nil
      obtain ⟨rfl, -⟩ := List.cons_prefix_cons.mp hwithin
      have hsolid := hw.solid c List.mem_cons_self
      rw [hall c (by simp)] at hsolid
      cases hsolid

end Behind

/-! ## What is left of a message -/

/-- A label is left with a mark behind it. -/
theorem redact_label (hw : Seamless w) (s : List Char) :
    Form.password.redact (passwordLabel ++ (w ++ s)) =
      passwordLabel ++ redactionMark ++ Form.password.redact (s.dropWhile isSecretChar) := by
  refine redact_once (matchAt_label hw s) ?_ fun u hu hne => ?_
  · have hsplit : s.takeWhile isSecretChar ++ s.dropWhile isSecretChar = s :=
      List.takeWhile_append_dropWhile
    simp [hsplit]
  · exact not_found_in_label hw _ hu hne

/-- Where a value runs through the label, a mark is left of the value, the label and the password. -/
theorem redact_crossing (hw : Seamless w) (s : List Char) {before front : List Char}
    (hne : before ++ front ≠ [])
    (hmatch : Form.password.matchAt (before ++ front ++ (passwordLabel ++ (w ++ s))) =
      some (before, front ++ (passwordLabel ++ (w ++ s).takeWhile isSecretChar))) :
    Form.password.redact (before ++ front ++ (passwordLabel ++ (w ++ s))) =
      before ++ redactionMark ++ Form.password.redact (s.dropWhile isSecretChar) := by
  rw [hw.takeWhile_append] at hmatch
  have hsplit : s.takeWhile isSecretChar ++ s.dropWhile isSecretChar = s :=
    List.takeWhile_append_dropWhile
  -- the value ends behind the label, so it has the label in it
  have hcross : (before ++ front).length <
      before.length + (front ++ (passwordLabel ++ (w ++ s.takeWhile isSecretChar))).length := by
    have hnine : passwordLabel.length = 9 := by decide
    simp only [List.length_append]
    omega
  obtain ⟨front', written, quote, separators, quote', -, hsecret, rfl, hwritten, hquote, hquote',
    hseparators, hall, hok, hhead⟩ := crossing hne hmatch hcross
  refine redact_once hmatch (by simp [hsplit]) fun u hu hune => ?_
  rw [hw.takeWhile_append] at hsecret
  exact not_found_early hw hsecret hwritten hquote hquote' hseparators hall hok hhead hu hune

/-- The first form leaves the same text whatever the password is. The induction is on what the scan has
not passed of the text in front of the label. -/
theorem exists_redact (s q : List Char) : ∃ out, ∀ w, Seamless w →
    Form.password.redact (q ++ (passwordLabel ++ (w ++ s))) = out := by
  induction hlength : q.length using Nat.strong_induction_on generalizing q with
  | _ k ih =>
    cases q with
    | nil => exact ⟨_, fun w hw => redact_label hw s⟩
    | cons c q =>
      -- what is found in front of the label ends there, or runs through it
      rcases matchAt_in_front (List.cons_ne_nil c q) with hfront | ⟨before, front, hsplit, hcross⟩
      · cases hmatch : Form.password.matchAt (c :: q) with
        | none =>
          obtain ⟨out, hout⟩ := ih q.length (by simp [← hlength]) q rfl
          refine ⟨c :: out, fun w hw => ?_⟩
          rw [← hout w hw]
          exact redact_of_none ((hfront _).trans hmatch)
        | some found =>
          obtain ⟨before, secret⟩ := found
          obtain ⟨after, htext, hsecret⟩ := Form.text_of_matchAt hmatch
          -- the match is not empty, so the induction goes on with less
          have hshorter : after.length < k := by
            have hpos := List.length_pos_iff.mpr hsecret
            rw [← hlength, htext]
            simp only [List.length_append]
            omega
          obtain ⟨out, hout⟩ := ih after.length hshorter after rfl
          refine ⟨redacted before secret ++ out, fun w hw => ?_⟩
          rw [← hout w hw]
          exact redact_of_matchAt ((hfront _).trans hmatch) (by rw [htext, List.append_assoc])
      · refine ⟨before ++ redactionMark ++ Form.password.redact (s.dropWhile isSecretChar),
          fun w hw => ?_⟩
        have hne : before ++ front ≠ [] := hsplit ▸ List.cons_ne_nil c q
        have hmatch := hcross (w ++ s)
        rw [hsplit] at hmatch ⊢
        exact redact_crossing hw s hne hmatch

/-- What the sanitizer leaves of a message does not depend on the password behind a label in it, whatever
stands before the label and behind the password. -/
theorem sanitize_password_free (p s w₁ w₂ : String) (h₁ : Seamless w₁.toList)
    (h₂ : Seamless w₂.toList) :
    sanitize (p ++ "password=" ++ w₁ ++ s) = sanitize (p ++ "password=" ++ w₂ ++ s) := by
  have htext : ∀ w : String, (p ++ "password=" ++ w ++ s).toList =
      p.toList ++ (passwordLabel ++ (w.toList ++ s.toList)) := by
    intro w
    simp only [String.toList_append, List.append_assoc]
    rfl
  obtain ⟨out, hout⟩ := exists_redact s.toList p.toList
  simp only [sanitize, sensitiveForms, List.foldl_cons, htext, hout _ h₁, hout _ h₂]

/-- Two passwords in a message that mentions passwords before, and a value that runs into the label. -/
theorem two_passwords_in_a_message :
    sanitize ("no PASSWORD: in(" ++ "password=" ++ "correct-horse" ++ "?token=1)") =
      sanitize ("no PASSWORD: in(" ++ "password=" ++ "battery-staple" ++ "?token=1)") :=
  sanitize_password_free "no PASSWORD: in(" "?token=1)" "correct-horse" "battery-staple" (by decide)
    (by decide)

end Reconciler
