import Reconciler.Proofs.Password
import Reconciler.Proofs.Redaction.Leads

/-! # Generated passwords in messages

A message ends in `password=` and a generated password. The sanitizer has to hide it whatever stands
before: a text that itself mentions passwords may make it look at the end of the message in another way.

Main definitions and statements:

* `Concealable`: the passwords that the sanitizer can hide;
* `replaceFrom_last`: the value of a form is replaced where it was found, unless it repeats in front of
  itself;
* `repeats_only`: when it does, the text before is made of `password` and separators;
* `password_stays_hidden`: a generated password that is concealable does not survive sanitizing;
* `not_passwordStaysHidden`: one that starts with a delimiter does.
-/

namespace Reconciler

def passwordLabel : List Char := "password=".toList

/-- A text that the sanitizer can hide behind the label of a password. It starts with a character of a
password, and does not look like a part of the word `password` up to the next delimiter. Besides, it
does not end like the label starts, and no end of it and of the mark meet, so that no part of it that
stood in the message already is completed by the label or by a mark. -/
structure Concealable (w : List Char) : Prop where
  start : ¬ (w.takeWhile isSecretChar).dropWhile isSeparator <+: "password".toList
  label : ∀ m, m <+: passwordLabel → m <:+ w → m = []
  mark_start : ∀ m, m <:+ redactionMark → m <+: w → m = []
  mark_ending : ∀ m, m <+: redactionMark → m <:+ w → m = []

instance (w : List Char) : Decidable (Concealable w) :=
  decidable_of_iff (¬ (w.takeWhile isSecretChar).dropWhile isSeparator <+: "password".toList ∧
      (∀ m ∈ passwordLabel.inits, m <:+ w → m = []) ∧
      (∀ m ∈ redactionMark.tails, m <+: w → m = []) ∧
      ∀ m ∈ redactionMark.inits, m <:+ w → m = []) (by
    simp only [List.mem_inits, List.mem_tails]
    exact ⟨fun ⟨h₁, h₂, h₃, h₄⟩ => ⟨h₁, h₂, h₃, h₄⟩, fun ⟨h₁, h₂, h₃, h₄⟩ => ⟨h₁, h₂, h₃, h₄⟩⟩)

/-! ## Repetitions -/

section Repetitions

/-- In a text without repetitions nothing is found in front of itself. -/
theorem eq_nil_of_nodup {u v : List Char} (hnodup : (u ++ v).Nodup) (hu : u ≠ [])
    (h : v <+: u ++ v) : v = [] := by
  cases u with
  | nil => exact absurd rfl hu
  | cons c u =>
    cases v with
    | nil => rfl
    | cons d v =>
      obtain ⟨rfl, -⟩ := List.cons_prefix_cons.mp h
      simp at hnodup

/-- A text that lies within a match is passed over. -/
theorem replaceFrom_skip {old new text : List Char} {skip : Nat} (h : text.length ≤ skip) :
    replaceFrom old new skip text = [] := by
  induction text generalizing skip with
  | nil => rw [replaceFrom]
  | cons c text ih =>
    cases skip with
    | zero => simp at h
    | succ skip => exact ih (Nat.le_of_succ_le_succ h)

/-- A value that is not found in front of itself is replaced where it ends a text. -/
theorem replaceFrom_last {old : List Char} (hold : old ≠ []) (before : List Char)
    (h : ∀ u v, u <:+ before → u ≠ [] → old = u ++ v → v <+: old → v = []) :
    ∀ skip ≤ before.length, ∃ out,
      replaceFrom old redactionMark skip (before ++ old) = out ++ redactionMark ∧
        Marked (before.drop skip) out := by
  -- the induction is on what stands in front of the value, and `skip` counts what an earlier match still
  -- covers
  induction before with
  | nil =>
    intro skip hskip
    obtain rfl : skip = 0 := by simpa using hskip
    refine ⟨[], ?_, .nil⟩
    cases old with
    | nil => exact absurd rfl hold
    | cons c old =>
      have hself : (c :: old).isPrefixOf (c :: old) := List.isPrefixOf_iff_prefix.mpr List.prefix_rfl
      simp only [List.nil_append, replaceFrom, if_pos hself]
      rw [replaceFrom_skip (by simp), List.append_nil]
  | cons c before ih =>
    intro skip hskip
    have ih := ih fun u v hu => h u v (hu.trans (List.suffix_cons c before))
    cases skip with
    | succ skip => exact ih skip (Nat.le_of_succ_le_succ hskip)
    | zero =>
      simp only [List.cons_append, replaceFrom]
      split
      case isTrue hprefix =>
        -- the value is found here, and it ends before its place at the end
        have hfound : old <+: c :: before := by
          have hpre : old <+: (c :: before) ++ old := List.isPrefixOf_iff_prefix.mp hprefix
          rcases prefix_append_cases hpre with hin | ⟨v, hv, hpre⟩
          · exact hin
          · obtain rfl := h _ v List.suffix_rfl (List.cons_ne_nil _ _) hv hpre
            simp [hv]
        obtain ⟨rest, hrest⟩ := hfound
        have hlength : old.length - 1 ≤ before.length := by
          have hlengths := congrArg List.length hrest
          simp only [List.length_append, List.length_cons] at hlengths
          omega
        obtain ⟨out, hout, hmarked⟩ := ih (old.length - 1) hlength
        rw [drop_of_cons_eq hrest.symm hold] at hmarked
        refine ⟨redactionMark ++ out, ?_, ?_⟩
        · rw [hout, List.append_assoc]
        · rw [List.drop_zero, ← hrest]
          exact .replace hold hmarked
      case isFalse =>
        -- the value is not found here, so the character is kept
        obtain ⟨out, hout, hmarked⟩ := ih 0 (Nat.zero_le _)
        refine ⟨c :: out, ?_, .keep c hmarked⟩
        rw [hout]
        rfl

end Repetitions

/-! ## Text in front of the label -/

section Label

/-- The label is the name and an equals sign. -/
theorem passwordLabel_eq : passwordLabel = "password".toList ++ ['='] := by
  decide

theorem not_separator_of_mem_word : ∀ c ∈ "password".toList, isSeparator c = false :=
  fun _ => not_separator_of_mem_name (by simp [sensitiveForms] : Form.password ∈ sensitiveForms) (.head _)

/-- A text of at most eight characters and separators that goes on where the label starts within it is
the word itself, and the label ends with its first separator. -/
theorem repeats_here {n separators v front common rest : List Char} (hn : n.length ≤ 8)
    (hseparators : separators ≠ []) (hall : ∀ c ∈ separators, isSeparator c) (hcommon : common ≠ [])
    (hfront : n ++ separators = front ++ common) (h : passwordLabel ++ rest = common ++ v) :
    n = "password".toList ∧ ∃ more, separators = '=' :: more ∧ rest = more ++ v := by
  obtain ⟨c, more, rfl⟩ := List.exists_cons_of_ne_nil hseparators
  have hc : isSeparator c := hall c List.mem_cons_self
  rcases List.append_eq_append_iff.mp hfront with ⟨as, -, has⟩ | ⟨bs, rfl, rfl⟩
  · -- the common part would start with a separator
    obtain ⟨d, common, rfl⟩ := List.exists_cons_of_ne_nil hcommon
    have hd : isSeparator d := hall d (by rw [has]; simp)
    obtain rfl : 'p' = d := (List.cons.inj h).1
    exact absurd hd (by decide)
  · rw [passwordLabel_eq, List.append_assoc, List.append_assoc] at h
    have hword : bs = "password".toList := by
      rcases List.append_eq_append_iff.mp h with ⟨as, rfl, -⟩ | ⟨as, hword, has⟩
      · -- it has eight characters already
        have has : as = [] := by
          simp only [List.length_append] at hn
          have height : "password".toList.length = 8 := by decide
          exact List.eq_nil_of_length_eq_zero (by omega)
        rw [has, List.append_nil]
      · cases as with
        | nil => rw [hword, List.append_nil]
        | cons d as =>
          -- the separator would be a letter of the word
          obtain rfl : c = d := (List.cons.inj has).1
          have hletter := not_separator_of_mem_word c (by rw [hword]; simp)
          rw [hletter] at hc
          cases hc
    have hempty : front = [] := by
      rw [hword, List.length_append] at hn
      have height : "password".toList.length = 8 := by decide
      exact List.eq_nil_of_length_eq_zero (by omega)
    rw [hword] at h ⊢
    obtain ⟨rfl, rfl⟩ := List.cons.inj (List.append_cancel_left h)
    rw [hempty]
    exact ⟨rfl, more, rfl, rfl⟩

/-- A text that repeats after some separators, and has the label in it, consists of the word and
separators up to the label and after it. The induction is on what stands before the label: it is shorter
by one repetition in the next step. -/
theorem repeats_only {n separators v : List Char} (hn : n.length ≤ 8) (hseparators : separators ≠ [])
    (hall : ∀ c ∈ separators, isSeparator c) (hv : v <+: n ++ separators ++ v) (k : Nat) :
    ∀ front rest, front.length ≤ k → n ++ separators ++ v = front ++ (passwordLabel ++ rest) →
      n = "password".toList ∧ ∃ more, separators = '=' :: more ∧ rest <+: more ++ v := by
  -- the induction is on a bound for how far behind the label starts
  have hhere : ∀ front common rest, common ≠ [] → n ++ separators = front ++ common →
      passwordLabel ++ rest = common ++ v →
      n = "password".toList ∧ ∃ more, separators = '=' :: more ∧ rest <+: more ++ v := by
    intro front common rest hcommon hfront h
    obtain ⟨hword, more, hmore, rfl⟩ := repeats_here hn hseparators hall hcommon hfront h
    exact ⟨hword, more, hmore, List.prefix_rfl⟩
  induction k with
  | zero =>
    intro front rest hfront h
    obtain rfl : front = [] := by simpa using hfront
    exact hhere [] (n ++ separators) rest (by simp [hseparators]) rfl h.symm
  | succ k ih =>
    intro front rest hfront h
    -- where the label starts behind the first repetition, it also starts one repetition earlier
    have hnext : ∀ as, front = n ++ separators ++ as → v = as ++ (passwordLabel ++ rest) →
        n = "password".toList ∧ ∃ more, separators = '=' :: more ∧ rest <+: more ++ v := by
      intro as hfrontEq hvEq
      obtain ⟨y, hy⟩ := hv
      -- there are separators in every repetition, so the label is nearer to the front of the next
      have hshorter : as.length ≤ k := by
        have hpos := List.length_pos_iff.mpr hseparators
        rw [hfrontEq] at hfront
        simp only [List.length_append] at hfront
        omega
      have hagain : n ++ separators ++ v = as ++ (passwordLabel ++ (rest ++ y)) := by
        rw [← hy, hvEq]
        simp
      obtain ⟨hword, more, hmore, hrest⟩ := ih as (rest ++ y) hshorter hagain
      exact ⟨hword, more, hmore, (List.prefix_append rest y).trans hrest⟩
    rcases List.append_eq_append_iff.mp h with ⟨as, hfrontEq, hvEq⟩ | ⟨common, hfrontEq, hvEq⟩
    · exact hnext as hfrontEq hvEq
    · cases common with
      | nil => exact hnext [] (by rw [hfrontEq, List.append_nil, List.append_nil]) hvEq.symm
      | cons d common => exact hhere front (d :: common) rest (List.cons_ne_nil _ _) hfrontEq hvEq

end Label

/-! ## The pass over a message -/

section Pass

variable {w : List Char}

/-- A piece of a text that reaches into its end `w` is replaced. -/
inductive Hides (w : List Char) : (text out : List Char) → Prop where
  | piece {front piece rest front' rest' : List Char} :
      piece ≠ [] → rest <:+ w → rest.length < w.length → Marked front front' → Marked rest rest' →
      Hides w (front ++ piece ++ rest) (front' ++ redactionMark ++ rest')

/-- A marked text in front changes nothing. -/
theorem Hides.append {text out s s' : List Char} (hs : Marked s s') (h : Hides w text out) :
    Hides w (s ++ text) (s' ++ out) := by
  cases h with
  | @piece front piece rest front' rest' hpiece hrest hlt hfront hmarked =>
    have hhides := Hides.piece hpiece hrest hlt (hs.append hfront) hmarked
    simpa using hhides

/-- A password has one name, and its value is a run. -/
theorem matchAt_password (text : List Char) :
    Form.password.matchAt text = Form.withName (.run isSecretChar) text "password".toList :=
  matchAt_singleton _ _ text

/-- The label is a lead. -/
theorem lead_passwordLabel : Lead "password".toList passwordLabel := by
  have hall : ∀ c ∈ ['='], isSeparator c := by simp [isSeparator]
  exact .unquoted (rfl : "password".toList.map foldCase = _) (.inl rfl) (List.cons_ne_nil _ _) hall

/-- Behind the label something is found whenever a character of a password follows. -/
theorem exists_matchAt_label (h : w.takeWhile isSecretChar ≠ []) :
    (Form.password.matchAt (passwordLabel ++ w)).isSome := by
  cases w with
  | nil => exact absurd rfl h
  | cons c w =>
    have hc : isSecretChar c := by
      by_contra hc
      simp [hc] at h
    obtain ⟨found, hfound⟩ := exists_withName (fun _ => not_quote_of_secret) lead_passwordLabel hc w
    rw [matchAt_password, hfound]
    rfl

/-- What is found behind the label is a part of the password. -/
theorem suffix_of_matchAt_label {before secret : List Char}
    (h : Form.password.matchAt (passwordLabel ++ w) = some (before, secret)) :
    ∃ front after, before = passwordLabel ++ front ∧ w = front ++ secret ++ after ∧ secret ≠ [] := by
  obtain ⟨after, htext, hsecret⟩ := Form.text_of_matchAt h
  rw [matchAt_password] at h
  have hlong : passwordLabel.length ≤ before.length := (found_of_withName h).length_lt
  rw [List.append_assoc] at htext
  rcases List.append_eq_append_iff.mp htext with ⟨front, rfl, rfl⟩ | ⟨more, hlabel, hmore⟩
  · exact ⟨front, after, rfl, by rw [List.append_assoc], hsecret⟩
  · have hnone : more = [] := by
      rw [hlabel, List.length_append] at hlong
      exact List.eq_nil_of_length_eq_zero (by omega)
    rw [hnone, List.nil_append] at hmore
    exact ⟨[], after, by rw [hlabel, hnone, List.append_nil, List.append_nil], hmore.symm, hsecret⟩

/-- What has no `c` in it ends before a `c` of the text. -/
theorem exists_append_of_not_mem {c : Char} {s rest front t : List Char} (hc : c ∉ s)
    (h : s ++ rest = front ++ c :: t) : ∃ more, front = s ++ more ∧ rest = more ++ c :: t := by
  rcases List.append_eq_append_iff.mp h with ⟨more, hfront, hrest⟩ | ⟨more, hs, hrest⟩
  · exact ⟨more, hfront, hrest⟩
  · cases more with
    | nil => exact ⟨[], by rw [hs, List.append_nil, List.append_nil], hrest.symm⟩
    | cons d more =>
      obtain rfl : c = d := (List.cons.inj hrest).1
      exact absurd (by rw [hs]; simp) hc

/-- The word of the label starts with the only `p` in it. -/
theorem exists_cons_of_word {written : List Char} (h : written.map foldCase = "password".toList) :
    ∃ d rest, written = d :: rest ∧ 'p' ∉ rest := by
  cases written with
  | nil => cases h
  | cons d rest =>
    refine ⟨d, rest, rfl, ?_⟩
    intro hp
    have hrest : rest.map foldCase = "assword".toList := (List.cons.inj h).2
    have hmem : foldCase 'p' ∈ "assword".toList := hrest ▸ List.mem_map_of_mem hp
    revert hmem
    decide

/-- No quote is a `p`. -/
theorem not_mem_of_optionalQuote {quote : List Char} (h : OptionalQuote quote) : 'p' ∉ quote := by
  rcases h with rfl | ⟨c, hc, rfl⟩
  · exact List.not_mem_nil
  · intro hp
    obtain rfl := List.mem_singleton.mp hp
    exact absurd hc (by decide)

/-- No separator is a `p`. -/
theorem not_mem_of_separators {separators : List Char} (h : ∀ c ∈ separators, isSeparator c) :
    'p' ∉ separators := by
  intro hp
  exact absurd (h 'p' hp) (by decide)

/-- A run that reaches into the label goes on to the first delimiter behind it. -/
theorem run_through_label {front secret after : List Char} (hok : ∀ c ∈ secret, isSecretChar c)
    (hafter : ∀ c ∈ after.head?, isSecretChar c = false)
    (h : secret ++ after = front ++ (passwordLabel ++ w)) (hlt : front.length < secret.length) :
    secret = front ++ (passwordLabel ++ w.takeWhile isSecretChar) := by
  have hlabel : ∀ c ∈ passwordLabel, isSecretChar c :=
    List.all_eq_true.mp (by decide : passwordLabel.all isSecretChar = true)
  have hfront : ∀ c ∈ front, isSecretChar c := by
    rcases List.append_eq_append_iff.mp h with ⟨more, rfl, -⟩ | ⟨more, rfl, -⟩
    · simp only [List.length_append] at hlt
      omega
    · exact fun c hc => hok c (List.mem_append_left _ hc)
  calc secret = (secret ++ after).takeWhile isSecretChar := (takeWhile_run hok hafter).symm
    _ = (front ++ (passwordLabel ++ w)).takeWhile isSecretChar := by rw [h]
    _ = front ++ (passwordLabel ++ w.takeWhile isSecretChar) := by
      rw [List.takeWhile_append_of_pos hfront, List.takeWhile_append_of_pos hlabel]

/-- What is found before the label and reaches into it goes on to the first delimiter behind it. -/
theorem crossing {q before secret : List Char} (hq : q ≠ [])
    (h : Form.password.matchAt (q ++ (passwordLabel ++ w)) = some (before, secret))
    (hcross : q.length < before.length + secret.length) :
    ∃ front written quote separators quote',
      q = before ++ front ∧ secret = front ++ (passwordLabel ++ w.takeWhile isSecretChar) ∧
      before = written ++ quote ++ separators ++ quote' ∧
      written.length = 8 ∧ OptionalQuote quote ∧ OptionalQuote quote' ∧
      separators ≠ [] ∧ (∀ c ∈ separators, isSeparator c) ∧
      (∀ c ∈ secret, isSecretChar c) ∧ (quote' = [] → ∀ c ∈ secret.head?, isSeparator c = false) := by
  have hlabel : passwordLabel ++ w = 'p' :: ("assword=".toList ++ w) := rfl
  rw [matchAt_password] at h
  have hfound := found_of_withName h
  -- the text is taken apart once as it was built and once as it was matched
  generalize htext : q ++ (passwordLabel ++ w) = text at hfound
  rw [hlabel] at htext
  obtain ⟨d, q, rfl⟩ := List.exists_cons_of_ne_nil hq
  cases hfound with
  | @run written quote separators quote' secret after hword hquote hseparators hall hquote' hstart
      hsecret hok hafter =>
    have hlength := congrArg List.length hword
    obtain ⟨d', written, rfl, hp⟩ := exists_cons_of_word hword
    -- the lead has no other `p` than its first letter, so it does not reach into the label
    have hnone : 'p' ∉ written ++ quote ++ separators ++ quote' := by
      simp [hp, not_mem_of_optionalQuote hquote, not_mem_of_separators hall,
        not_mem_of_optionalQuote hquote']
    simp only [List.cons_append, List.cons.injEq] at htext
    obtain ⟨rfl, htext⟩ := htext
    rw [List.append_assoc _ secret] at htext
    obtain ⟨front, rfl, hrest⟩ := exists_append_of_not_mem hnone htext.symm
    have hlt : front.length < secret.length := by
      simp only [List.length_cons, List.length_append] at hcross
      omega
    rw [← hlabel] at hrest
    refine ⟨front, d :: written, quote, separators, quote', by simp,
      run_through_label hok hafter hrest hlt, rfl, ?_, hquote, hquote', hseparators, hall, hok, ?_⟩
    · simpa using hlength
    · rintro rfl c hc
      apply hstart c
      obtain ⟨more, rfl⟩ : ∃ more, secret = c :: more := List.head?_eq_some_iff.mp hc
      rfl
  | @separator written quote before' after rest c hword hquote hall hbefore _ _ _ =>
    -- the separators end before the label
    obtain ⟨d', written, rfl, hp⟩ := exists_cons_of_word hword
    have hnone : 'p' ∉ written ++ quote ++ (before' ++ c :: after) := by
      have hseparators := not_mem_of_separators hall
      simp only [List.mem_append, not_or] at hseparators ⊢
      exact ⟨⟨hp, not_mem_of_optionalQuote hquote⟩, hseparators⟩
    simp only [List.cons_append, List.cons.injEq] at htext
    obtain ⟨rfl, htext⟩ := htext
    obtain ⟨front, rfl, -⟩ := exists_append_of_not_mem hnone htext.symm
    simp only [List.length_cons, List.length_append, List.length_nil] at hcross
    omega

/-- An end of a text of password characters does not stop at a quote. -/
theorem eq_nil_of_optionalQuote {s quote u : List Char} (hquote : OptionalQuote quote)
    (hu : u <:+ s ++ quote) (hne : u ≠ []) (hok : ∀ c ∈ u, isSecretChar c) : quote = [] := by
  rcases hquote with rfl | ⟨c, hc, rfl⟩
  · rfl
  · have hmem : c ∈ u := by
      rcases List.suffix_concat_iff.mp hu with rfl | ⟨t, rfl, -⟩
      · exact absurd rfl hne
      · simp
    have hsecret := hok c hmem
    simp [isSecretChar, hc] at hsecret

/-- What goes on behind the label as `more` and a repetition of the word does, without repeating itself,
looks like a part of the word. -/
theorem looks_like_word {more v t s : List Char} (hmore : ∀ c ∈ more, isSeparator c)
    (hv : v <+: "password".toList ++ t) (hs : s <+: more ++ v) (hnodup : s.Nodup) :
    s.dropWhile isSeparator <+: "password".toList := by
  rcases prefix_append_cases hs with hin | ⟨v', rfl, hv'⟩
  · have hnone : s.dropWhile isSeparator = [] :=
      List.dropWhile_eq_nil_iff.mpr fun c hc => hmore c (hin.subset hc)
    rw [hnone]
    exact List.nil_prefix
  · rw [List.dropWhile_append_of_pos hmore]
    rcases prefix_append_cases (hv'.trans hv) with hword | ⟨v'', rfl, -⟩
    · cases v' with
      | nil => exact List.nil_prefix
      | cons c v' =>
        obtain rfl : c = 'p' := (List.cons_prefix_cons.mp hword).1
        exact hword
    · -- the whole word has a letter twice
      have hword : ("password".toList).Nodup := (List.nodup_append.mp (List.nodup_append.mp hnodup).2.1).1
      exact absurd hword (by decide)

/-- A value that is found in front of itself, from an end of the text before it on, is found within the
name, and no quote stands between the two. -/
theorem found_within_name {written quote separators quote' u : List Char} (hquote : OptionalQuote quote)
    (hquote' : OptionalQuote quote') (hall : ∀ c ∈ separators, isSeparator c)
    (hok : ∀ c ∈ u, isSecretChar c) (hhead : quote' = [] → ∀ c ∈ u.head?, isSeparator c = false)
    (hu : u <:+ written ++ quote ++ separators ++ quote') (hne : u ≠ []) :
    ∃ n, u = n ++ separators ∧ n <:+ written := by
  obtain rfl := eq_nil_of_optionalQuote hquote' hu hne hok
  rw [List.append_nil] at hu
  -- it starts within the name, since the value does not start with a separator
  have hnot : ¬ u <:+ separators := by
    intro hin
    obtain ⟨c, u, rfl⟩ := List.exists_cons_of_ne_nil hne
    have hc := hhead rfl c rfl
    rw [hall c (hin.subset List.mem_cons_self)] at hc
    cases hc
  rcases suffix_append_cases hu with hin | ⟨n, rfl, hn⟩
  · exact absurd hin hnot
  · -- a value that ended in front of the separators would consist of them
    have hnne : n ≠ [] := by
      rintro rfl
      exact hnot List.suffix_rfl
    obtain rfl := eq_nil_of_optionalQuote hquote hn hnne fun c hc => hok c (List.mem_append_left _ hc)
    rw [List.append_nil] at hn
    exact ⟨n, rfl, hn⟩

/-- A run through the label is not found in front of itself, if the password is concealable. -/
theorem not_repeated {written quote separators quote' front secret u v : List Char}
    (hsecret : secret = front ++ (passwordLabel ++ w.takeWhile isSecretChar))
    (hwritten : written.length = 8) (hquote : OptionalQuote quote) (hquote' : OptionalQuote quote')
    (hseparators : separators ≠ []) (hall : ∀ c ∈ separators, isSeparator c)
    (hok : ∀ c ∈ secret, isSecretChar c)
    (hhead : quote' = [] → ∀ c ∈ secret.head?, isSeparator c = false) (hnodup : w.Nodup)
    (hu : u <:+ written ++ quote ++ separators ++ quote') (hne : u ≠ []) (huv : secret = u ++ v)
    (hv : v <+: secret) : (w.takeWhile isSecretChar).dropWhile isSeparator <+: "password".toList := by
  have hoku : ∀ c ∈ u, isSecretChar c := fun c hc => hok c (by rw [huv]; simp [hc])
  have hheadu : quote' = [] → ∀ c ∈ u.head?, isSeparator c = false := by
    rw [huv, List.head?_append_of_ne_nil u hne] at hhead
    exact hhead
  obtain ⟨n, rfl, hn⟩ := found_within_name hquote hquote' hall hoku hheadu hu hne
  rw [huv] at hv hsecret
  obtain ⟨rfl, more, rfl, hmore⟩ := repeats_only (hwritten ▸ hn.length_le) hseparators hall hv
    front.length front _ le_rfl hsecret
  rw [List.append_assoc] at hv
  exact looks_like_word (fun c hc => hall c (List.mem_cons_of_mem _ hc)) hv hmore
    (hnodup.sublist (List.takeWhile_sublist _))

/-- Where something is found that ends in a part of the password and is not found in front of itself, a part
of the password is replaced. -/
theorem hides_of_matchAt {c : Char} {text before secret after : List Char}
    (hmatch : Form.password.matchAt (c :: text) = some (before, secret))
    (htext : c :: text = before ++ secret ++ after) (hsecret : secret ≠ [])
    (hrepeats : ∀ u v, u <:+ before → u ≠ [] → secret = u ++ v → v <+: secret → v = [])
    (hafter : after <:+ w) (hlt : after.length < w.length) :
    Hides w (c :: text) (Form.password.redactFrom 0 (c :: text)) := by
  obtain ⟨out, hout, hmarked⟩ := replaceFrom_last hsecret before hrepeats 0 (Nat.zero_le _)
  have hrest := marked_redactFrom .password text (before.length + secret.length - 1)
  rw [← List.length_append, drop_of_cons_eq htext (by simp [hsecret])] at hrest
  have hhides := Hides.piece hsecret hafter hlt hmarked hrest
  rw [List.drop_zero, ← htext, ← hout] at hhides
  simp only [Form.redactFrom, hmatch, redacted, ← List.length_append]
  exact hhides

/-- Where the label starts, a part of the password behind it is replaced. -/
theorem hides_label (hnodup : w.Nodup) (hstart : w.takeWhile isSecretChar ≠ []) :
    Hides w (passwordLabel ++ w) (Form.password.redactFrom 0 (passwordLabel ++ w)) := by
  obtain ⟨⟨before, secret⟩, hmatch⟩ := Option.isSome_iff_exists.mp (exists_matchAt_label hstart)
  obtain ⟨front, after, rfl, hsplit, hsecret⟩ := suffix_of_matchAt_label hmatch
  have hlabel : passwordLabel ++ w = 'p' :: ("assword=".toList ++ w) := rfl
  -- the value lies within the password, and something of the password is replaced with it
  have htext : 'p' :: ("assword=".toList ++ w) = passwordLabel ++ front ++ secret ++ after := by
    rw [← hlabel, hsplit]
    simp
  have hpos := List.length_pos_iff.mpr hsecret
  have hlt : after.length < w.length := by
    rw [hsplit]
    simp only [List.length_append]
    omega
  rw [hlabel] at hmatch ⊢
  refine hides_of_matchAt hmatch htext hsecret ?_ ?_ hlt
  · rintro u v - hu rfl hv
    -- the password has no character twice, so the value is not found in front of its place
    have hpart : (u ++ v).Nodup := by
      rw [hsplit] at hnodup
      exact (List.nodup_append.mp (List.nodup_append.mp hnodup).1).2.1
    exact eq_nil_of_nodup hpart hu hv
  · rw [hsplit]
    exact List.suffix_append _ _

/-- Where something is found before the label that reaches into it, the password is replaced up to its first
delimiter. -/
theorem hides_crossing {c : Char} {q before secret : List Char} (hnodup : w.Nodup)
    (hw : ¬ (w.takeWhile isSecretChar).dropWhile isSeparator <+: "password".toList)
    (hstart : w.takeWhile isSecretChar ≠ [])
    (hmatch : Form.password.matchAt (c :: (q ++ (passwordLabel ++ w))) = some (before, secret))
    (hsecret : secret ≠ []) (hcross : (c :: q).length < before.length + secret.length) :
    Hides w (c :: (q ++ (passwordLabel ++ w)))
      (Form.password.redactFrom 0 (c :: (q ++ (passwordLabel ++ w)))) := by
  obtain ⟨front, written, quote, separators, quote', hq, hrun, rfl, hwritten, hquote, hquote',
    hseparators, hall, hok, hhead⟩ := crossing (List.cons_ne_nil c q) hmatch hcross
  have hsplit : w.takeWhile isSecretChar ++ w.dropWhile isSecretChar = w :=
    List.takeWhile_append_dropWhile
  have hpos := List.length_pos_iff.mpr hstart
  -- a part of the password belongs to the value, so less of it is left behind
  have hlt : (w.dropWhile isSecretChar).length < w.length := by
    have hlengths := congrArg List.length hsplit
    rw [List.length_append] at hlengths
    omega
  have htext : c :: q ++ (passwordLabel ++ w) =
      written ++ quote ++ separators ++ quote' ++ secret ++ w.dropWhile isSecretChar := by
    rw [hq, hrun]
    simp [hsplit]
  refine hides_of_matchAt hmatch htext hsecret ?_ (List.dropWhile_suffix _) hlt
  intro u v hu hne huv hv
  -- a repetition would make the password look like the word
  exact absurd (not_repeated hrun hwritten hquote hquote' hseparators hall hok hhead hnodup hu hne huv
    hv) hw

/-- Whatever stands before the label, a part of a concealable password is replaced. The induction is on
the text before the label, or what the scan has not passed of it. -/
theorem hides_redactFrom (hnodup : w.Nodup)
    (hw : ¬ (w.takeWhile isSecretChar).dropWhile isSeparator <+: "password".toList) (q : List Char) :
    ∀ skip ≤ q.length, Hides w ((q ++ (passwordLabel ++ w)).drop skip)
      (Form.password.redactFrom skip (q ++ (passwordLabel ++ w))) := by
  have hstart : w.takeWhile isSecretChar ≠ [] := by
    intro hnil
    rw [hnil] at hw
    exact hw List.nil_prefix
  -- `skip` counts what a match still covers; the label itself is never covered
  induction q with
  | nil =>
    intro skip hskip
    obtain rfl : skip = 0 := by simpa using hskip
    exact hides_label hnodup hstart
  | cons c q ih =>
    intro skip hskip
    cases skip with
    | succ skip => exact ih skip (Nat.le_of_succ_le_succ hskip)
    | zero =>
      cases hmatch : Form.password.matchAt (c :: (q ++ (passwordLabel ++ w))) with
      | none =>
        have hhides := (ih 0 (Nat.zero_le _)).append (Marked.keep c .nil)
        simpa [Form.redactFrom, hmatch] using hhides
      | some found =>
        obtain ⟨before, secret⟩ := found
        obtain ⟨after, htext, hsecret⟩ := Form.text_of_matchAt hmatch
        by_cases hcross : (c :: q).length < before.length + secret.length
        case pos => exact hides_crossing hnodup hw hstart hmatch hsecret hcross
        case neg =>
          -- the match ends before the label, and the scan goes on behind it
          have hpos := List.length_pos_iff.mpr hsecret
          have hhides := ih (before.length + secret.length - 1) (by
            simp only [List.length_cons] at hcross
            omega)
          rw [← List.length_append, drop_of_cons_eq htext (by simp [hsecret])] at hhides
          have hmarked : Marked (before ++ secret) (redacted before secret) := marked_redacted hsecret
          have hwhole := hhides.append hmarked
          rw [← htext] at hwhole
          simpa [Form.redactFrom, hmatch] using hwhole

/-- A text that is in no beginning of another but in all of it is its end; where a part of that end is
replaced, the text is gone. -/
theorem Hides.not_isInfix {text out : List Char} (h : Hides w text out) (hclear : ClearOfMark w)
    (hbeginning : ∀ front rest, text = front ++ rest → rest ≠ [] → ¬ w <:+: front) :
    ¬ w <:+: out := by
  cases h with
  | @piece front piece rest front' rest' hpiece hrest hlt hfront hmarked =>
    -- the text in front of the piece is a beginning, so the password was not in it
    have hfrontClear : ¬ w <:+: front' := by
      intro hin
      refine hbeginning front (piece ++ rest) (by simp) (by simp [hpiece]) ?_
      exact hfront.isInfix hclear hin
    intro hin
    rcases List.infix_append_iff.mp hin with hbefore | hafter | ⟨u, v, rfl, hu, hv⟩
    · rcases List.infix_append_iff.mp hbefore with hin | hin | ⟨u, v, rfl, hu, hv⟩
      · exact hfrontClear hin
      · exact hclear.not_in_mark hin
      · -- it would end within the mark
        obtain rfl := hclear.ending v hv (List.suffix_append _ _)
        rw [List.append_nil] at hfrontClear
        exact hfrontClear hu.isInfix
    · have hlong := (hmarked.isInfix hclear hafter).length_le
      omega
    · -- it would start within the mark, or around it
      rcases suffix_append_cases hu with hin | ⟨u, rfl, -⟩
      · obtain rfl := hclear.start u hin (List.prefix_append _ _)
        have hlong := (hmarked.isInfix hclear hv.isInfix).length_le
        omega
      · refine hclear.not_around ?_
        exact ⟨u, v, rfl⟩

end Pass

/-! ## Messages -/

/-- In a text that ends in the label and a password, the password is nowhere else, unless it was in the
text before the label. -/
theorem not_isInfix_beginning {p w : List Char} (hnodup : w.Nodup) (hlong : 9 < w.length)
    (hlabel : ∀ m, m <+: passwordLabel → m <:+ w → m = []) (hp : ¬ w <:+: p) {front rest : List Char}
    (h : p ++ (passwordLabel ++ w) = front ++ rest) (hrest : rest ≠ []) : ¬ w <:+: front := by
  -- the label has nine characters, and no end of it is a beginning of the password
  have hnone : ¬ w <:+: p ++ passwordLabel := by
    intro hin
    rcases List.infix_append_iff.mp hin with hin | hin | ⟨u, v, rfl, hu, hv⟩
    · exact hp hin
    · have hle := hin.length_le
      have hnine : passwordLabel.length = 9 := by decide
      omega
    · obtain rfl := hlabel v hv (List.suffix_append _ _)
      rw [List.append_nil] at hp
      exact hp hu.isInfix
  rw [← List.append_assoc] at h
  intro hin
  rcases List.append_eq_append_iff.mp h with ⟨part, rfl, hw⟩ | ⟨more, hmore, -⟩
  · have hlt : part.length < w.length := by
      have hpos := List.length_pos_iff.mpr hrest
      rw [hw, List.length_append]
      omega
    rcases List.infix_append_iff.mp hin with hin | hin | ⟨u, v, hsplit, hu, hv⟩
    · exact hnone hin
    · have hle := hin.length_le
      omega
    · -- it would start again within itself
      have hvw : v <+: u ++ v := by
        rw [← hsplit]
        exact hv.trans ⟨rest, hw.symm⟩
      have hune : u ≠ [] := by
        rintro rfl
        rw [List.nil_append] at hsplit
        have hle := hv.length_le
        rw [← hsplit] at hle
        omega
      rw [hsplit] at hnodup
      obtain rfl := eq_nil_of_nodup hnodup hune hvw
      rw [List.append_nil] at hsplit
      rw [hsplit] at hnone
      exact hnone hu.isInfix
  · refine hnone ?_
    rw [hmore]
    exact hin.trans (List.prefix_append _ _).isInfix

/-- A text without repetitions that is longer than the mark can only overlap it at an end. -/
theorem Concealable.clearOfMark {w : List Char} (hw : Concealable w) (hnodup : w.Nodup)
    (hlong : 10 < w.length) : ClearOfMark w where
  start := hw.mark_start
  ending := hw.mark_ending
  not_in_mark := by
    intro hin
    have hle := hin.length_le
    have hten : redactionMark.length = 10 := by decide
    omega
  not_around := by
    intro hin
    have hmark := hnodup.sublist hin.sublist
    exact absurd hmark (by decide)

/-- A generated password does not survive sanitizing, behind the label of a password and whatever text
before it that does not quote the password already, provided that it is concealable. -/
theorem password_stays_hidden (w p : String) (hw : Password.Returned w.toList)
    (hconcealable : Concealable w.toList) (hp : ¬ w.toList <:+: p.toList) :
    ¬ w.toList <:+: (sanitize (p ++ "password=" ++ w)).toList := by
  have hcomposed := Password.returned_iff.mp hw
  have hlength : w.toList.length = 16 := hcomposed.length_eq
  have hclear := hconcealable.clearOfMark hcomposed.nodup (by omega)
  have htext : (p ++ "password=" ++ w).toList = p.toList ++ (passwordLabel ++ w.toList) := by
    rw [String.toList_append, String.toList_append, List.append_assoc]
    rfl
  have hhides : Hides w.toList (p.toList ++ (passwordLabel ++ w.toList))
      (Form.password.redact (p.toList ++ (passwordLabel ++ w.toList))) :=
    hides_redactFrom hcomposed.nodup hconcealable.start p.toList 0 (Nat.zero_le _)
  -- the first form hides the password, and the other forms cannot bring it back
  have hpassword : ¬ w.toList <:+: Form.password.redact (p.toList ++ (passwordLabel ++ w.toList)) := by
    refine hhides.not_isInfix hclear ?_
    intro front rest hsplit hrest
    exact not_isInfix_beginning hcomposed.nodup (by omega) hconcealable.label hp hsplit hrest
  rw [sanitize, String.toList_ofList, htext]
  exact not_infix_foldl_redact hclear [.passwordVariable, .stringData, .token] _ hpassword

/-- A password that starts with a letter behind a message that mentions passwords. -/
theorem sample_password_stays_hidden :
    ¬ "Ab1~Cd2!Ef3@Gh4#".toList <:+:
      (sanitize ("no password in the " ++ "password=" ++ "Ab1~Cd2!Ef3@Gh4#")).toList :=
  password_stays_hidden "Ab1~Cd2!Ef3@Gh4#" "no password in the "
    (Password.returned_iff.mpr (by decide +kernel)) (by decide +kernel) (by decide +kernel)

/-- A generated password may start with a comma. Nothing is found between the label and a comma, so the
whole password stays in the message. -/
theorem not_passwordStaysHidden :
    sanitize ("" ++ "password=" ++ ",Ab1Cd2-Ef3_Gh4+") = "password=,Ab1Cd2-Ef3_Gh4+" ∧
      ¬ ∀ w p : String, Password.Returned w.toList → ¬ w.toList <:+: p.toList →
        ¬ w.toList <:+: (sanitize (p ++ "password=" ++ w)).toList := by
  have hsanitized :
      sanitize ("" ++ "password=" ++ ",Ab1Cd2-Ef3_Gh4+") = "password=,Ab1Cd2-Ef3_Gh4+" := by
    decide +kernel
  refine ⟨hsanitized, ?_⟩
  intro hhidden
  have hreturned : Password.Returned ",Ab1Cd2-Ef3_Gh4+".toList :=
    Password.returned_iff.mpr (by decide +kernel)
  have hgone := hhidden ",Ab1Cd2-Ef3_Gh4+" "" hreturned (by decide +kernel)
  rw [hsanitized] at hgone
  exact hgone (by decide +kernel)

end Reconciler
