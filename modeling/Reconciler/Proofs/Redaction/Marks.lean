import Reconciler.Redaction.Sanitizer
import Mathlib.Data.List.Infix
import Mathlib.Data.List.TakeWhile

/-! # What the sanitizer leaves of a text

Looking for a form in a text, the sanitizer replaces some pieces of it by a mark and leaves the rest as
it is. So nothing can appear in what it leaves that was not there before, except together with a mark.

Main definitions and statements:

* `Marked`: a text with some of its pieces replaced by the mark, and `Masked`, where these pieces start with a
  character of a class;
* `Form.text_of_matchAt`: where a form is found, the text is what comes before the value, the value and
  the rest;
* `marked_redact`: redacting a form replaces pieces by the mark;
* `Marked.isInfix`: a text that cannot overlap a mark does not appear by redacting;
* `not_infix_foldl_redact`: once such a text is hidden, the forms after it keep it hidden.
-/

namespace Reconciler

/-! ## Beginnings and ends -/

/-- A beginning of a sequence of two texts lies in the first or reaches into the second. -/
theorem prefix_append_cases {s t v : List Char} (h : v <+: s ++ t) :
    v <+: s ∨ ∃ v', v = s ++ v' ∧ v' <+: t := by
  rcases List.prefix_or_prefix_of_prefix h (List.prefix_append s t) with hv | ⟨v', rfl⟩
  · exact Or.inl hv
  · exact Or.inr ⟨v', rfl, (List.prefix_append_right_inj s).mp h⟩

/-- An end of a sequence of two texts lies in the second or reaches into the first. -/
theorem suffix_append_cases {s t u : List Char} (h : u <:+ s ++ t) :
    u <:+ t ∨ ∃ u', u = u' ++ t ∧ u' <:+ s := by
  rcases List.suffix_or_suffix_of_suffix h (List.suffix_append s t) with hu | ⟨u', rfl⟩
  · exact Or.inl hu
  · obtain ⟨y, hy⟩ := h
    rw [← List.append_assoc] at hy
    exact Or.inr ⟨u', rfl, y, List.append_cancel_right hy⟩

/-! ## Marked texts -/

/-- A text with some of its pieces replaced by the mark. -/
inductive Marked : List Char → List Char → Prop where
  | nil : Marked [] []
  | keep (c : Char) {text out : List Char} : Marked text out → Marked (c :: text) (c :: out)
  | replace {piece text out : List Char} :
      piece ≠ [] → Marked text out → Marked (piece ++ text) (redactionMark ++ out)

namespace Marked

theorem refl (text : List Char) : Marked text text := by
  induction text with
  | nil => exact .nil
  | cons c text ih => exact .keep c ih

theorem append {s t s' t' : List Char} (hs : Marked s s') (ht : Marked t t') :
    Marked (s ++ t) (s' ++ t') := by
  induction hs with
  | nil => exact ht
  | keep c _ ih => exact .keep c ih
  | replace hpiece _ ih =>
    rw [List.append_assoc, List.append_assoc]
    exact .replace hpiece ih

/-- A single piece replaced. -/
theorem mark {piece : List Char} (h : piece ≠ []) : Marked piece redactionMark := by
  have hmarked := Marked.replace h .nil
  rwa [List.append_nil, List.append_nil] at hmarked

end Marked

/-- A text with some of its pieces replaced by the mark, where every piece starts with a character of a
class. -/
inductive Masked (ok : Char → Bool) : List Char → List Char → Prop where
  | nil : Masked ok [] []
  | keep (c : Char) {text out : List Char} : Masked ok text out → Masked ok (c :: text) (c :: out)
  | replace {c : Char} (piece : List Char) {text out : List Char} :
      ok c → Masked ok text out → Masked ok (c :: piece ++ text) (redactionMark ++ out)

namespace Masked

variable {ok : Char → Bool} {text out : List Char}

theorem refl (text : List Char) : Masked ok text text := by
  induction text with
  | nil => exact .nil
  | cons c text ih => exact .keep c ih

theorem append {s t s' t' : List Char} (hs : Masked ok s s') (ht : Masked ok t t') :
    Masked ok (s ++ t) (s' ++ t') := by
  induction hs with
  | nil => exact ht
  | keep c _ ih => exact .keep c ih
  | replace piece hc _ ih =>
    rw [List.append_assoc, List.append_assoc]
    exact .replace piece hc ih

theorem marked (h : Masked ok text out) : Marked text out := by
  induction h with
  | nil => exact .nil
  | keep c _ ih => exact .keep c ih
  | replace piece _ _ ih => exact .replace (List.cons_ne_nil _ _) ih

end Masked

theorem Marked.masked {text out : List Char} (h : Marked text out) : Masked (fun _ => true) text out := by
  induction h with
  | nil => exact .nil
  | keep c _ ih => exact .keep c ih
  | @replace piece text out hpiece _ ih =>
    obtain ⟨c, piece, rfl⟩ := List.exists_cons_of_ne_nil hpiece
    exact .replace piece rfl ih

/-! ## What is found -/

def OptionalQuote (quote : List Char) : Prop :=
  quote = [] ∨ ∃ c, isQuote c ∧ quote = [c]

/-- What is taken for a quote is one, or nothing. -/
theorem text_of_takeQuote {text quote rest : List Char} (h : takeQuote text = (quote, rest)) :
    text = quote ++ rest ∧ OptionalQuote quote := by
  cases text with
  | nil =>
    cases h
    exact ⟨rfl, Or.inl rfl⟩
  | cons c text =>
    simp only [takeQuote] at h
    split at h
    case isTrue hc =>
      cases h
      exact ⟨rfl, Or.inr ⟨c, hc, rfl⟩⟩
    case isFalse =>
      cases h
      exact ⟨rfl, Or.inl rfl⟩

/-- A word is found where its letters are written, in some case. -/
theorem text_of_afterWord {word text behind : List Char} (h : afterWord word text = some behind) :
    ∃ written, text = written ++ behind ∧ written.map foldCase = word := by
  induction word generalizing text with
  | nil =>
    cases h
    exact ⟨[], rfl, rfl⟩
  | cons w word ih =>
    -- the word is read letter by letter, with case folded
    cases text with
    | nil => cases h
    | cons c text =>
      simp only [afterWord] at h
      split at h
      case isTrue hc =>
        obtain ⟨written, rfl, hword⟩ := ih h
        exact ⟨c :: written, rfl, by rw [List.map_cons, hc, hword]⟩
      case isFalse => cases h

/-- Where they are written, what is behind them is what follows. -/
theorem afterWord_written {word written : List Char} (h : written.map foldCase = word) (rest : List Char) :
    afterWord word (written ++ rest) = some rest := by
  subst h
  induction written with
  | nil => rfl
  | cons c written ih => simp [afterWord, ih]

/-- A form is found with a name where the name is written, and its value behind the quote after it. -/
theorem Form.withName_eq_some {value : ValueForm} {text word before secret : List Char} :
    Form.withName value text word = some (before, secret) ↔
      ∃ written quote rest between, text = written ++ (quote ++ rest) ∧ written.map foldCase = word ∧
        takeQuote (quote ++ rest) = (quote, rest) ∧ value.find rest = some (between, secret) ∧
        before = written ++ quote ++ between := by
  -- the text is as long as the name, so taking as many characters takes what is written
  have htake : ∀ {written behind : List Char}, written.map foldCase = word →
      (written ++ behind).take word.length = written := by
    intro written behind hword
    rw [← hword, List.length_map, List.take_left]
  constructor
  · intro h
    simp only [Form.withName, Option.bind_eq_bind, Option.bind_eq_some_iff, Option.pure_def,
      Option.some.injEq, Prod.mk.injEq, Prod.exists] at h
    obtain ⟨behind, hbehind, between, secret, hfind, rfl, rfl⟩ := h
    obtain ⟨written, rfl, hword⟩ := text_of_afterWord hbehind
    cases hquote : takeQuote behind with | mk quote rest
    obtain ⟨rfl, -⟩ := text_of_takeQuote hquote
    rw [hquote] at hfind
    exact ⟨written, quote, rest, between, rfl, hword, hquote, hfind, by rw [htake hword]⟩
  · rintro ⟨written, quote, rest, between, rfl, hword, hquote, hfind, rfl⟩
    simp [Form.withName, afterWord_written hword, hquote, hfind, htake hword]

/-- Behind a separator there is a last one that may start a value, if there is one that may. -/
theorem lastStart_go_eq_none {ok : Char → Bool} {rest : List Char} {passed : Char} :
    lastStart.go ok passed rest = none ↔ ∀ c ∈ rest, ok c = false := by
  induction rest generalizing passed with
  | nil => simp [lastStart.go]
  | cons d rest ih =>
    cases hgo : lastStart.go ok d rest with
    | none => simpa [lastStart.go, hgo] using fun _ => ih.mp hgo
    | some found =>
      obtain ⟨before, start⟩ := found
      simp only [lastStart.go, hgo, reduceCtorEq, List.forall_mem_cons, false_iff, not_and]
      intro _ hrest
      rw [ih.mpr hrest] at hgo
      cases hgo

/-- The last separator that may start a value is one of the separators, and not the first. -/
theorem text_of_lastStart {ok : Char → Bool} {separators before : List Char} {c : Char}
    (h : lastStart ok separators = some (before, c)) :
    ∃ after, separators = before ++ c :: after ∧ before ≠ [] ∧ ok c ∧ ∀ d ∈ after, ok d = false := by
  -- the induction is on the separators behind the first, and the last one that fits wins
  have hgo : ∀ (rest : List Char) (passed : Char) (before : List Char) (c : Char),
      lastStart.go ok passed rest = some (before, c) →
      ∃ after, passed :: rest = before ++ c :: after ∧ before ≠ [] ∧ ok c ∧
        ∀ d ∈ after, ok d = false := by
    intro rest
    induction rest with
    | nil =>
      intro passed before c h
      cases h
    | cons d rest ih =>
      intro passed before c h
      simp only [lastStart.go] at h
      split at h
      case h_1 before' c' hgo =>
        cases h
        obtain ⟨after, hafter, -, hlast⟩ := ih d before' c hgo
        exact ⟨after, by rw [hafter]; rfl, List.cons_ne_nil _ _, hlast⟩
      case h_2 hnone =>
        split at h
        case isTrue hok =>
          cases h
          exact ⟨rest, rfl, List.cons_ne_nil _ _, hok, lastStart_go_eq_none.mp hnone⟩
        case isFalse => cases h
  cases separators with
  | nil => cases h
  | cons d rest => exact hgo rest d before c h

/-- How a run of characters is found after a name: behind separators, of which there is at least one,
and an optional quote, as long as it can be; or else it is the last of the separators that is of its class,
and not the first, and neither another separator of its class nor a run of it follows. -/
inductive Found (word : List Char) (ok : Char → Bool) : (text before secret : List Char) → Prop where
  | run {written quote separators quote' secret after : List Char} :
      written.map foldCase = word → OptionalQuote quote →
      separators ≠ [] → (∀ c ∈ separators, isSeparator c) → OptionalQuote quote' →
      (∀ c ∈ (quote' ++ secret ++ after).head?, isSeparator c = false) →
      secret ≠ [] → (∀ c ∈ secret, ok c) → (∀ c ∈ after.head?, ok c = false) →
      Found word ok (written ++ quote ++ separators ++ quote' ++ secret ++ after)
        (written ++ quote ++ separators ++ quote') secret
  | separator {written quote before after rest : List Char} {c : Char} :
      written.map foldCase = word → OptionalQuote quote →
      (∀ d ∈ before ++ c :: after, isSeparator d) → before ≠ [] → ok c →
      (∀ d ∈ after, ok d = false) → (∀ d ∈ rest.head?, isQuote d ∨ ok d = false) →
      Found word ok (written ++ quote ++ (before ++ c :: after) ++ rest) (written ++ quote ++ before) [c]

/-- More than the name stands before the value. -/
theorem Found.length_lt {word text before secret : List Char} {ok : Char → Bool}
    (h : Found word ok text before secret) : word.length < before.length := by
  cases h with
  | run hword _ hseparators _ _ _ _ _ _ =>
    have hpos := List.length_pos_iff.mpr hseparators
    rw [← hword, List.length_map]
    simp only [List.length_append]
    omega
  | separator hword _ _ hbefore _ _ _ =>
    have hpos := List.length_pos_iff.mpr hbefore
    rw [← hword, List.length_map]
    simp only [List.length_append]
    omega

/-- What a class of characters is dropped from does not start with one of them. -/
theorem head?_dropWhile {p : Char → Bool} (text : List Char) :
    ∀ c ∈ (text.dropWhile p).head?, p c = false := by
  induction text with
  | nil => simp
  | cons c text ih =>
    cases hc : p c with
    | true => simpa [List.dropWhile_cons, hc] using ih
    | false => simp [hc]

/-- Where nothing of a class follows an optional quote, a quote follows, or nothing of the class. -/
theorem stop_of_takeQuote {quote rest : List Char} {ok : Char → Bool} (h : OptionalQuote quote)
    (hnone : (rest.takeWhile ok).isEmpty) : ∀ d ∈ (quote ++ rest).head?, isQuote d ∨ ok d = false := by
  rcases h with rfl | ⟨c, hc, rfl⟩
  · cases rest with
    | nil => simp
    | cons d rest => exact fun e he => .inr (by simp_all)
  · simpa using .inl hc

/-- What is found is found in one of these ways. -/
theorem found_of_withName {word text before secret : List Char} {ok : Char → Bool}
    (h : Form.withName (.run ok) text word = some (before, secret)) :
    Found word ok text before secret := by
  obtain ⟨written, quote, rest, between, rfl, hword, hquote, hfind, rfl⟩ := Form.withName_eq_some.mp h
  obtain ⟨-, hoptional⟩ := text_of_takeQuote hquote
  -- behind the name and its quote: the separators, a quote, and what follows
  have hsplit : rest.takeWhile isSeparator ++ rest.dropWhile isSeparator = rest :=
    List.takeWhile_append_dropWhile
  have hseparators : ∀ c ∈ rest.takeWhile isSeparator, isSeparator c :=
    fun c hc => List.mem_takeWhile_imp hc
  cases hquote' : takeQuote (rest.dropWhile isSeparator) with | mk quote' rest'
  obtain ⟨hrest', hoptional'⟩ := text_of_takeQuote hquote'
  simp only [ValueForm.find, hquote'] at hfind
  split at hfind
  case isTrue => cases hfind
  case isFalse hnonempty =>
    split at hfind
    case isTrue hvalue =>
      obtain ⟨⟨before, c⟩, hlast, heq⟩ := Option.map_eq_some_iff.mp hfind
      cases heq
      obtain ⟨after, hafter, hbefore, hc, hlater⟩ := text_of_lastStart hlast
      -- a separator starts the value only if no run does
      have hstop : ∀ d ∈ (rest.dropWhile isSeparator).head?, isQuote d ∨ ok d = false := by
        rw [hrest']
        exact stop_of_takeQuote hoptional' hvalue
      rw [hafter] at hsplit hseparators
      have htext : written ++ (quote ++ rest) =
          written ++ quote ++ (before ++ c :: after) ++ rest.dropWhile isSeparator := by
        rw [List.append_assoc (written ++ quote), hsplit, List.append_assoc]
      rw [htext]
      exact .separator hword hoptional hseparators hbefore hc hlater hstop
    case isFalse hvalue =>
      cases hfind
      -- a run starts the value
      have hvalue' : rest'.takeWhile ok ++ rest'.dropWhile ok = rest' :=
        List.takeWhile_append_dropWhile
      have htext : written ++ (quote ++ rest) = written ++ quote ++ rest.takeWhile isSeparator ++
          quote' ++ rest'.takeWhile ok ++ rest'.dropWhile ok := by
        rw [List.append_assoc _ (rest'.takeWhile ok), hvalue', List.append_assoc _ quote', ← hrest',
          List.append_assoc (written ++ quote), hsplit, List.append_assoc]
      have hstart : ∀ c ∈ (quote' ++ rest'.takeWhile ok ++ rest'.dropWhile ok).head?,
          isSeparator c = false := by
        rw [List.append_assoc, hvalue', ← hrest']
        exact head?_dropWhile rest
      rw [htext, ← List.append_assoc]
      exact .run hword hoptional (by simpa using hnonempty) hseparators hoptional' hstart
        (by simpa using hvalue) (fun c hc => List.mem_takeWhile_imp hc) (head?_dropWhile rest')

/-- What is in braces begins with an opening brace, and has a closing one in it. -/
theorem text_of_takeBraced {text value : List Char} (h : takeBraced text = some value) :
    ∃ inside after, value = '\x7b' :: inside ∧ '\x7d' ∈ inside ∧ text = value ++ after := by
  unfold takeBraced at h
  split at h
  case h_1 rest =>
    split at h
    case isTrue hclosed =>
      cases h
      have hmem : '\x7d' ∈ rest := by simpa using hclosed
      have hsplit : rest.takeWhile (· ≠ '\x7d') ++ rest.dropWhile (· ≠ '\x7d') = rest :=
        List.takeWhile_append_dropWhile
      cases hdrop : rest.dropWhile (· ≠ '\x7d') with
      | nil =>
        -- a text without a closing brace would not have been taken
        have hall := List.dropWhile_eq_nil_iff.mp hdrop _ hmem
        simp at hall
      | cons d after =>
        have hd : decide (d ≠ '\x7d') = false := head?_dropWhile rest d (by rw [hdrop]; rfl)
        have hbrace : d = '\x7d' := by simpa using hd
        refine ⟨_, after, rfl, by simp, ?_⟩
        rw [hdrop, hbrace] at hsplit
        simpa using hsplit.symm
    case isFalse => cases h
  case h_2 => cases h

/-- What is found in braces has a name, an optional quote and separators before it. -/
theorem braced_of_withName {word text before secret : List Char}
    (h : Form.withName .braced text word = some (before, secret)) :
    ∃ written quote separators inside after, text = before ++ secret ++ after ∧
      before = written ++ quote ++ separators ∧ written.map foldCase = word ∧ OptionalQuote quote ∧
      separators ≠ [] ∧ (∀ c ∈ separators, isSeparator c) ∧
      secret = '\x7b' :: inside ∧ '\x7d' ∈ inside := by
  obtain ⟨written, quote, rest, between, rfl, hword, hquote, hfind, rfl⟩ := Form.withName_eq_some.mp h
  obtain ⟨-, hoptional⟩ := text_of_takeQuote hquote
  -- behind the name and its quote there are separators and then the brace
  have hsplit : rest.takeWhile isSeparator ++ rest.dropWhile isSeparator = rest :=
    List.takeWhile_append_dropWhile
  simp only [ValueForm.find] at hfind
  split at hfind
  case isTrue => cases hfind
  case isFalse hnonempty =>
    obtain ⟨value, hvalue, heq⟩ := Option.map_eq_some_iff.mp hfind
    cases heq
    obtain ⟨inside, after, rfl, hclosed, hafter⟩ := text_of_takeBraced hvalue
    refine ⟨written, quote, _, inside, after, ?_, rfl, hword, hoptional, by simpa using hnonempty,
      fun c hc => List.mem_takeWhile_imp hc, rfl, hclosed⟩
    rw [List.append_assoc, ← hafter, List.append_assoc, hsplit, List.append_assoc]

/-- Where a form with a name is found, the text is what comes before the value, the value, and the rest. -/
theorem Form.text_of_withName {value : ValueForm} {text name before secret : List Char}
    (h : Form.withName value text name = some (before, secret)) :
    ∃ after, text = before ++ secret ++ after ∧ secret ≠ [] := by
  cases value with
  | run ok =>
    cases found_of_withName h with
    | run _ _ _ _ _ _ hsecret _ _ => exact ⟨_, rfl, hsecret⟩
    | @separator written quote before after rest c _ _ _ _ _ _ _ =>
      exact ⟨after ++ rest, by simp, List.cons_ne_nil _ _⟩
  | braced =>
    obtain ⟨_, _, _, inside, after, htext, -, -, -, -, -, rfl, -⟩ := braced_of_withName h
    exact ⟨after, htext, List.cons_ne_nil _ _⟩

/-- Where a form is found, the text is what comes before the value, the value, and the rest. -/
theorem Form.text_of_matchAt {form : Form} {text before secret : List Char}
    (h : form.matchAt text = some (before, secret)) :
    ∃ after, text = before ++ secret ++ after ∧ secret ≠ [] := by
  obtain ⟨name, -, hname⟩ := List.exists_of_findSome?_eq_some h
  exact text_of_withName hname

/-! ## What is redacted -/

/-- The scan is at the first character of a piece, and passes the others over. -/
theorem drop_of_cons_eq {c : Char} {text piece rest : List Char} (h : c :: text = piece ++ rest)
    (hpiece : piece ≠ []) : text.drop (piece.length - 1) = rest := by
  cases piece with
  | nil => exact absurd rfl hpiece
  | cons d piece =>
    obtain ⟨-, rfl⟩ := List.cons.inj h
    simp

section Masks

variable {ok : Char → Bool}

/-- Replacing a text by the mark masks the text. -/
theorem masked_replaceFrom {c : Char} (hc : ok c) (old text : List Char) :
    ∀ skip, Masked ok (text.drop skip) (replaceFrom (c :: old) redactionMark skip text) := by
  induction text with
  | nil =>
    intro skip
    rw [List.drop_nil, replaceFrom]
    exact .nil
  | cons d text ih =>
    intro skip
    cases skip with
    | succ skip => exact ih skip
    | zero =>
      simp only [replaceFrom, List.drop_zero]
      split
      case isTrue hprefix =>
        obtain ⟨rest, hrest⟩ := List.isPrefixOf_iff_prefix.mp hprefix
        have hmasked := ih ((c :: old).length - 1)
        rw [drop_of_cons_eq hrest.symm (List.cons_ne_nil _ _)] at hmasked
        rw [← hrest]
        exact .replace old hc hmasked
      case isFalse => exact .keep d (ih 0)

/-- The values of a form start with characters of a class. -/
def Form.StartsWith (form : Form) (ok : Char → Bool) : Prop :=
  ∀ text before secret, form.matchAt text = some (before, secret) → ∀ c ∈ secret.head?, ok c

/-- A pass of a form replaces nothing but values, which start with characters of the class. -/
theorem masked_redactFrom {form : Form} (hform : form.StartsWith ok) (text : List Char) :
    ∀ skip, Masked ok (text.drop skip) (form.redactFrom skip text) := by
  induction text with
  | nil =>
    intro skip
    rw [List.drop_nil, Form.redactFrom]
    exact .nil
  | cons c text ih =>
    intro skip
    cases skip with
    | succ skip => exact ih skip
    | zero =>
      simp only [Form.redactFrom, List.drop_zero]
      split
      case h_1 before secret hmatch =>
        obtain ⟨after, hafter, hsecret⟩ := Form.text_of_matchAt hmatch
        have hmasked := ih (before.length + secret.length - 1)
        rw [← List.length_append, drop_of_cons_eq hafter (by simp [hsecret])] at hmasked
        obtain ⟨d, secret, rfl⟩ := List.exists_cons_of_ne_nil hsecret
        -- within a match, the value is replaced wherever it occurs
        have hpieces := masked_replaceFrom (hform _ _ _ hmatch d rfl) secret (before ++ d :: secret) 0
        rw [hafter, ← List.length_append]
        exact hpieces.append hmasked
      case h_2 => exact .keep c (ih 0)

/-- Redacting a form replaces pieces that start like its values by the mark. -/
theorem masked_redact {form : Form} (hform : form.StartsWith ok) (text : List Char) :
    Masked ok text (form.redact text) :=
  masked_redactFrom hform text 0

end Masks

theorem marked_replaceFrom {old : List Char} (hold : old ≠ []) (text : List Char) (skip : Nat) :
    Marked (text.drop skip) (replaceFrom old redactionMark skip text) := by
  obtain ⟨c, old, rfl⟩ := List.exists_cons_of_ne_nil hold
  have hmasked := @masked_replaceFrom (fun _ => true) c rfl old text skip
  exact hmasked.marked

theorem marked_redacted {before secret : List Char} (h : secret ≠ []) :
    Marked (before ++ secret) (redacted before secret) :=
  marked_replaceFrom h (before ++ secret) 0

/-- A pass of any form leaves a marked text. -/
theorem marked_redactFrom (form : Form) (text : List Char) (skip : Nat) :
    Marked (text.drop skip) (form.redactFrom skip text) := by
  have hform : form.StartsWith fun _ => true := fun _ _ _ _ _ _ => rfl
  exact (masked_redactFrom hform text skip).marked

/-- Redacting a form replaces pieces of the text by the mark. -/
theorem marked_redact (form : Form) (text : List Char) : Marked text (form.redact text) :=
  marked_redactFrom form text 0

/-! ## What does not appear -/

/-- A text that cannot overlap a mark: neither is part of the other, and no end of the one is a
beginning of the other. -/
structure ClearOfMark (w : List Char) : Prop where
  not_in_mark : ¬ w <:+: redactionMark
  not_around : ¬ redactionMark <:+: w
  start : ∀ m, m <:+ redactionMark → m <+: w → m = []
  ending : ∀ m, m <+: redactionMark → m <:+ w → m = []

namespace Marked

variable {w text out : List Char}

/-- An end of a text that cannot overlap a mark, at the beginning of what is left, was there before. -/
theorem isPrefix (hw : ClearOfMark w) (h : Marked text out) :
    ∀ v, v <:+ w → v <+: out → v <+: text := by
  induction h with
  | nil => exact fun v _ hv => hv
  | keep c _ ih =>
    intro v hsuffix hv
    rcases List.prefix_cons_iff.mp hv with rfl | ⟨v', rfl, hv'⟩
    · exact List.nil_prefix
    · have hrest := ih v' ((List.suffix_cons c v').trans hsuffix) hv'
      exact List.prefix_cons_iff.mpr (Or.inr ⟨v', rfl, hrest⟩)
  | replace hpiece _ ih =>
    intro v hsuffix hv
    rcases List.prefix_or_prefix_of_prefix hv (List.prefix_append _ _) with hin | hover
    · -- the text ends within the mark
      rw [hw.ending v hin hsuffix]
      exact List.nil_prefix
    · -- the mark lies within the text
      exact absurd (hover.isInfix.trans hsuffix.isInfix) hw.not_around

/-- A text that cannot overlap a mark and is in what is left was there before. -/
theorem isInfix (hw : ClearOfMark w) (h : Marked text out) : w <:+: out → w <:+: text := by
  induction h with
  | nil => exact id
  | keep c hrest ih =>
    intro hin
    rcases List.infix_cons_iff.mp hin with hprefix | htail
    · exact (isPrefix hw (.keep c hrest) w List.suffix_rfl hprefix).isInfix
    · exact List.infix_cons (ih htail)
  | @replace piece text out hpiece hrest ih =>
    intro hin
    rcases List.infix_append_iff.mp hin with hmark | htail | ⟨m, v, rfl, hm, hv⟩
    · exact absurd hmark hw.not_in_mark
    · exact (ih htail).trans (List.suffix_append _ _).isInfix
    · -- it would start within the mark
      obtain rfl := hw.start m hm (List.prefix_append _ _)
      exact (ih hv.isInfix).trans (List.suffix_append _ _).isInfix

end Marked

/-- What no form of a list can bring back stays hidden. -/
theorem not_infix_foldl_redact {w : List Char} (hw : ClearOfMark w) (forms : List Form)
    (text : List Char) (h : ¬ w <:+: text) :
    ¬ w <:+: forms.foldl (fun text form => form.redact text) text := by
  induction forms generalizing text with
  | nil => exact h
  | cons form forms ih =>
    apply ih
    intro hin
    exact h ((marked_redact form text).isInfix hw hin)

end Reconciler
