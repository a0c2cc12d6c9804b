import Reconciler.Proofs.Pass
import Mathlib.Data.List.Nodup
import Mathlib.Data.List.Perm.Subperm

/-! # Composition of passwords

A source of randomness draws characters at distinct positions of a pool and moves characters around;
nothing else is known of it. The characters of the three pools are all different, so whatever such a
source does, a password consists of different characters, in the numbers that were asked for.

Main statements:

* `generate_composed`: what is generated has the composition that was asked for;
* `generate_result`: which compositions are refused, and what is returned for all others;
* `returned_iff`: the passwords of the usual composition are exactly the texts of that composition.
-/

namespace Reconciler

namespace Password

/-- A source of randomness that does what it is asked to, in any way. -/
def anySource : Responder randomSignature Unit :=
  fun _ op reply _ => op.Lawful reply

/-- A text of so many letters, digits and symbols, no two characters the same. -/
structure Composed (letterCount digitCount symbolCount : Nat) (w : List Char) : Prop where
  nodup : w.Nodup
  chars : ∀ c ∈ w, c ∈ letters ++ digits ++ symbols
  letters_eq : w.countP (· ∈ letters) = letterCount
  digits_eq : w.countP (· ∈ digits) = digitCount
  symbols_eq : w.countP (· ∈ symbols) = symbolCount

instance (letterCount digitCount symbolCount : Nat) (w : List Char) :
    Decidable (Composed letterCount digitCount symbolCount w) :=
  decidable_of_iff (w.Nodup ∧ w.all (· ∈ letters ++ digits ++ symbols) = true ∧
      w.countP (· ∈ letters) = letterCount ∧ w.countP (· ∈ digits) = digitCount ∧
      w.countP (· ∈ symbols) = symbolCount) (by
    simp only [List.all_eq_true, decide_eq_true_eq]
    exact ⟨fun ⟨h₁, h₂, h₃, h₄, h₅⟩ => ⟨h₁, h₂, h₃, h₄, h₅⟩,
      fun ⟨h₁, h₂, h₃, h₄, h₅⟩ => ⟨h₁, h₂, h₃, h₄, h₅⟩⟩)

/-- The characters of the pools are all different. -/
theorem pools_nodup : (letters ++ digits ++ symbols).Nodup := by
  decide +kernel

section Composed

variable {a b c : Nat} {w l d s : List Char}

/-- A character of one pool is in no other. -/
theorem pools_disjoint : letters.Disjoint digits ∧ letters.Disjoint symbols ∧
    digits.Disjoint symbols := by
  have hs := List.disjoint_of_nodup_append pools_nodup
  refine ⟨List.disjoint_of_nodup_append (List.Nodup.of_append_left pools_nodup), ?_, ?_⟩
  · intro x hx hxs
    exact hs (List.mem_append_left _ hx) hxs
  · intro x hx hxs
    exact hs (List.mem_append_right _ hx) hxs

/-- No character is drawn twice from a pool that has none twice. -/
theorem nodup_of_subperm {pool : List Char} (h : l.Subperm pool) (hpool : pool.Nodup) : l.Nodup := by
  obtain ⟨l', hperm, hsub⟩ := h
  exact hperm.nodup_iff.mp (hsub.nodup hpool)

/-- All characters of a text from a pool are counted as characters of the pool. -/
theorem countP_eq_length_of_subset {pool : List Char} (h : l ⊆ pool) :
    l.countP (· ∈ pool) = l.length := by
  apply List.countP_eq_length.mpr
  intro x hx
  simpa using h hx

/-- None of them is counted as a character of another pool. -/
theorem countP_eq_zero_of_disjoint {pool pool' : List Char} (h : l ⊆ pool)
    (hdisjoint : pool.Disjoint pool') : l.countP (· ∈ pool') = 0 := by
  apply List.countP_eq_zero.mpr
  intro x hx
  simpa using hdisjoint (h hx)

/-- Characters drawn from the pools and then moved around are a text of that composition. -/
theorem Composed.of_perm (hl : l.Subperm letters) (hd : d.Subperm digits) (hs : s.Subperm symbols)
    (hperm : w.Perm (l ++ d ++ s)) : Composed l.length d.length s.length w := by
  obtain ⟨hletters, hsymbols, hdigits⟩ := pools_disjoint
  -- the three pools have no character in common, so a text counts in each what was drawn from it
  have hsub : (l ++ d ++ s).Subperm (letters ++ digits ++ symbols) :=
    (hl.append hd).append hs
  constructor
  case nodup => exact hperm.nodup_iff.mpr (nodup_of_subperm hsub pools_nodup)
  case chars =>
    intro x hx
    exact hsub.subset (hperm.subset hx)
  case letters_eq =>
    rw [hperm.countP_eq, List.countP_append, List.countP_append,
      countP_eq_length_of_subset hl.subset,
      countP_eq_zero_of_disjoint hd.subset (List.disjoint_comm.mp hletters),
      countP_eq_zero_of_disjoint hs.subset (List.disjoint_comm.mp hsymbols)]
    omega
  case digits_eq =>
    rw [hperm.countP_eq, List.countP_append, List.countP_append,
      countP_eq_zero_of_disjoint hl.subset hletters, countP_eq_length_of_subset hd.subset,
      countP_eq_zero_of_disjoint hs.subset (List.disjoint_comm.mp hdigits)]
    omega
  case symbols_eq =>
    rw [hperm.countP_eq, List.countP_append, List.countP_append,
      countP_eq_zero_of_disjoint hl.subset hsymbols, countP_eq_zero_of_disjoint hd.subset hdigits,
      countP_eq_length_of_subset hs.subset]
    omega

/-- A text of a composition comes from characters of the pools. -/
theorem Composed.exists_perm (h : Composed a b c w) :
    ∃ l d s, l.Subperm letters ∧ d.Subperm digits ∧ s.Subperm symbols ∧
      w.Perm (l ++ d ++ s) ∧ l.length = a ∧ d.length = b ∧ s.length = c := by
  have hpart : ∀ pool : List Char, (w.filter (· ∈ pool)).Subperm pool := by
    intro pool
    apply List.subperm_of_subset (h.nodup.filter _)
    intro x hx
    simpa using (List.mem_filter.mp hx).2
  obtain ⟨hletters, hsymbols, hdigits⟩ := pools_disjoint
  refine ⟨_, _, _, hpart _, hpart _, hpart _, ?_, ?_, ?_, ?_⟩
  · -- both sides have the same members, each once
    apply (List.perm_ext_iff_of_nodup h.nodup ?_).mpr
    · intro x
      have hx := h.chars x
      simp only [List.mem_append, List.mem_filter, decide_eq_true_eq] at hx ⊢
      constructor
      · intro hw
        rcases hx hw with (hletter | hdigit) | hsymbol
        · exact Or.inl (Or.inl ⟨hw, hletter⟩)
        · exact Or.inl (Or.inr ⟨hw, hdigit⟩)
        · exact Or.inr ⟨hw, hsymbol⟩
      · rintro ((⟨hw, -⟩ | ⟨hw, -⟩) | ⟨hw, -⟩) <;> exact hw
    · exact nodup_of_subperm (((hpart _).append (hpart _)).append (hpart _)) pools_nodup
  · rw [← List.countP_eq_length_filter]
    exact h.letters_eq
  · rw [← List.countP_eq_length_filter]
    exact h.digits_eq
  · rw [← List.countP_eq_length_filter]
    exact h.symbols_eq

/-- A text composed of letters, digits and symbols has no other characters. -/
theorem Composed.length_eq (h : Composed a b c w) : w.length = a + b + c := by
  obtain ⟨l, d, s, -, -, -, hperm, rfl, rfl, rfl⟩ := h.exists_perm
  simp [hperm.length_eq, Nat.add_assoc]

end Composed

/-! ## The generator -/

/-- A source of randomness that does what it is asked to, and says anything when it refuses a draw. -/
def outspoken : Responder randomSignature Unit
  | _, .sample pool count, (reply : Except Fault (List Char)), _ =>
    if RandomOp.refuses pool count then ∃ text, reply = .error (.badValue text)
    else ∃ chars : List Char, reply = .ok chars ∧ chars.length = count ∧ chars.Subperm pool
  | _, op, reply, _ => op.Lawful reply

/-- What is lawful may be said by a source that says anything when it refuses. -/
theorem outspoken_of_lawful {op : RandomOp} {reply : op.Answer} (h : op.Lawful reply) :
    outspoken () op reply () := by
  cases op with
  | source | shuffle => exact h
  | sample pool count =>
    simp only [outspoken, RandomOp.Lawful] at h ⊢
    split
    case isTrue hrefused => exact ⟨_, by rwa [if_pos hrefused] at h⟩
    case isFalse hrefused => rwa [if_neg hrefused] at h

/-- Every question has an answer. -/
theorem exists_outspoken (op : RandomOp) : ∃ reply : op.Answer, outspoken () op reply () := by
  cases op with
  | source => exact ⟨(), trivial⟩
  | sample pool count => exact ⟨_, outspoken_of_lawful (RandomOp.lawful_take pool count)⟩
  | shuffle chars => exact ⟨chars, List.Perm.refl _⟩

/-- The numbers of letters, digits and symbols that the pools have. -/
def Drawable (letterCount digitCount symbolCount : Int) : Prop :=
  (0 ≤ letterCount ∧ letterCount ≤ 52) ∧ (0 ≤ digitCount ∧ digitCount ≤ 10) ∧
    (0 ≤ symbolCount ∧ symbolCount ≤ 30)

/-- A draw that fits into its pool is answered with characters at distinct positions of the pool, and
any other is refused. -/
theorem sample_cases {pool : List Char} {size : Nat} {count : Int}
    {reply : Except Fault (List Char)} (hsize : pool.length = size)
    (h : outspoken () (.sample pool count) reply ()) :
    (¬ (0 ≤ count ∧ count ≤ size) ∧ ∃ text, reply = .error (.badValue text)) ∨
      (0 ≤ count ∧ count ≤ size) ∧
        ∃ chars, reply = .ok chars ∧ chars.length = count ∧ chars.Subperm pool := by
  subst hsize
  have hfits : RandomOp.refuses pool count = false ↔ 0 ≤ count ∧ count ≤ pool.length := by
    simp [RandomOp.refuses]
  rw [← hfits]
  simp only [outspoken] at h
  split at h
  case isTrue hrefused => exact Or.inl ⟨by simp [hrefused], h⟩
  case isFalse hrefused => exact Or.inr ⟨by simpa using hrefused, h⟩

/-- What comes of generating: a text of the composition asked for when the pools have so many
characters, and a complaint about the numbers when not. -/
def Generated (letterCount digitCount symbolCount : Int) : Except Fault String → Prop
  | .ok w => Drawable letterCount digitCount symbolCount ∧ ∃ a b c : Nat,
      (a : Int) = letterCount ∧ (b : Int) = digitCount ∧ (c : Int) = symbolCount ∧
        Composed a b c w.toList
  | .error f => ¬ Drawable letterCount digitCount symbolCount ∧ ∃ text, f = .badValue text

/-- Whatever is drawn and however it is moved around, generating comes to a text exactly when the pools
have enough characters. -/
theorem generate_ensures (length digitCount symbolCount : Int) :
    (generate length digitCount symbolCount).run.Ensures outspoken (fun _ _ => True)
      (fun _ r => Generated (length - digitCount - symbolCount) digitCount symbolCount r) () := by
  by_cases hneg : length - digitCount - symbolCount < 0
  case pos =>
    simp only [generate, if_pos hneg]
    refine ⟨fun hfits => ?_, _, rfl⟩
    -- there cannot be fewer than no letters
    have := hfits.1.1
    omega
  case neg =>
    simp only [generate, if_neg hneg]
    refine ⟨trivial, ?_⟩
    rintro - - -
    -- three draws, each of which may be refused
    refine ⟨trivial, ?_⟩
    intro reply _ hletters
    rcases sample_cases (by decide : letters.length = 52) hletters with
      ⟨hmany, text, rfl⟩ | ⟨hfew, l, rfl, hl, hlsub⟩
    · exact ⟨fun hfits => hmany hfits.1, text, rfl⟩
    refine ⟨trivial, ?_⟩
    intro reply _ hdigits
    rcases sample_cases (by decide : digits.length = 10) hdigits with
      ⟨hmany, text, rfl⟩ | ⟨hfew', d, rfl, hd, hdsub⟩
    · exact ⟨fun hfits => hmany hfits.2.1, text, rfl⟩
    refine ⟨trivial, ?_⟩
    intro reply _ hsymbols
    rcases sample_cases (by decide : symbols.length = 30) hsymbols with
      ⟨hmany, text, rfl⟩ | ⟨hfew'', s, rfl, hs, hssub⟩
    · exact ⟨fun hfits => hmany hfits.2.2, text, rfl⟩
    refine ⟨trivial, ?_⟩
    intro (reply : List Char) _ hshuffled
    have hperm : (String.ofList reply).toList.Perm (l ++ d ++ s) := by
      rw [String.toList_ofList]
      exact hshuffled
    exact ⟨⟨hfew, hfew', hfew''⟩, l.length, d.length, s.length, hl, hd, hs,
      .of_perm hlsub hdsub hssub hperm⟩

/-- What is generated has the composition that was asked for. -/
theorem generate_composed (length digitCount symbolCount : Int) :
    (generate length digitCount symbolCount).run.Ensures anySource (fun _ _ => True)
      (fun _ r => ∀ w, r = .ok w → ∃ a b c : Nat,
        (a : Int) = length - digitCount - symbolCount ∧ (b : Int) = digitCount ∧
          (c : Int) = symbolCount ∧ Composed a b c w.toList) () := by
  have hensures := (generate_ensures length digitCount symbolCount).of_answers
    fun _ _ _ _ hanswer => outspoken_of_lawful hanswer
  refine hensures.mono (fun _ _ h => h) ?_
  rintro - r hr w rfl
  exact hr.2

/-- Among the characters of the pools, the digits and the letters are what is usually called so. -/
theorem pools_usual : ∀ x ∈ letters ++ digits ++ symbols,
    x.isDigit = decide (x ∈ digits) ∧ x.isAlpha = decide (x ∈ letters) := by
  have hall : ((letters ++ digits ++ symbols).all fun x =>
      x.isDigit == digits.contains x && x.isAlpha == letters.contains x) = true := by
    decide +kernel
  intro x hx
  simpa using List.all_eq_true.mp hall x hx

/-- The digits of such a text are the characters from the pool of digits. -/
theorem Composed.countP_isDigit {a b c : Nat} {w : List Char} (h : Composed a b c w) :
    w.countP Char.isDigit = b := by
  rw [← h.digits_eq]
  exact List.countP_congr fun x hx => by rw [(pools_usual x (h.chars x hx)).1]

/-- The letters of such a text are the characters from the pool of letters. -/
theorem Composed.countP_isAlpha {a b c : Nat} {w : List Char} (h : Composed a b c w) :
    w.countP Char.isAlpha = a := by
  rw [← h.letters_eq]
  exact List.countP_congr fun x hx => by rw [(pools_usual x (h.chars x hx)).2]

/-- Generating always comes to an end. Unless one of the three numbers of characters is negative or more
than its pool has, it returns a text of the length that was asked for in which no character repeats,
with exactly so many digits and symbols and letters for the rest; otherwise it raises a `ValueError`. -/
theorem generate_result (length digitCount symbolCount : Int) :
    (∃ r, Program.Leads outspoken (generate length digitCount symbolCount).run () (.done r) ()) ∧
    ∀ r, Program.Leads outspoken (generate length digitCount symbolCount).run () (.done r) () →
      if (0 ≤ length - digitCount - symbolCount ∧ length - digitCount - symbolCount ≤ 52) ∧
          (0 ≤ digitCount ∧ digitCount ≤ 10) ∧ (0 ≤ symbolCount ∧ symbolCount ≤ 30) then
        ∃ w : List Char, r = .ok (.ofList w) ∧ w.length = length ∧ w.Nodup ∧
          w.countP Char.isDigit = digitCount ∧ w.countP (· ∈ symbols) = symbolCount ∧
          w.countP Char.isAlpha = length - digitCount - symbolCount
      else ∃ f, r = .error f ∧ f.className = "ValueError" := by
  constructor
  · -- every draw can be answered, so a run comes to its end
    obtain ⟨r, _, hrun⟩ := Program.exists_leads_done
      (fun _ op => (exists_outspoken op).imp fun _ h => ⟨(), h⟩)
      (generate length digitCount symbolCount).run ()
    exact ⟨r, hrun⟩
  · intro r hrun
    have hresult := (generate_ensures length digitCount symbolCount).of_leads hrun
    cases r with
    | error f =>
      obtain ⟨hmany, text, rfl⟩ := hresult
      rw [if_neg (show ¬ (_ ∧ _) from hmany)]
      exact ⟨_, rfl, rfl⟩
    | ok w =>
      obtain ⟨hfits, a, b, c, ha, hb, hc, hcomposed⟩ := hresult
      rw [if_pos (show _ ∧ _ from hfits)]
      refine ⟨w.toList, by simp, ?_, hcomposed.nodup, ?_, ?_, ?_⟩
      · rw [hcomposed.length_eq]
        omega
      · rw [hcomposed.countP_isDigit, hb]
      · rw [hcomposed.symbols_eq, hc]
      · rw [hcomposed.countP_isAlpha, ha]

/-- Whether the usual password generator may return a text. -/
def Returned (w : List Char) : Prop :=
  Program.Leads anySource generateDefault.run () (.done (.ok (.ofList w))) ()

/-- The passwords of the usual composition are exactly the texts of that composition: every arrangement
can be drawn. -/
theorem returned_iff {w : List Char} : Returned w ↔ Composed 8 4 4 w := by
  constructor
  · intro hrun
    have hensures := (generate_composed 16 4 4).of_leads hrun
    obtain ⟨a, b, c, ha, hb, hc, hcomposed⟩ := hensures _ rfl
    -- the counts are determined by the numbers that were asked for
    have hcounts : a = 8 ∧ b = 4 ∧ c = 4 := by omega
    obtain ⟨rfl, rfl, rfl⟩ := hcounts
    simpa using hcomposed
  · intro hcomposed
    obtain ⟨l, d, s, hl, hd, hs, hperm, hlength, hlength', hlength''⟩ := hcomposed.exists_perm
    -- whatever lies in a pool can be drawn from it
    have hdraw : ∀ {pool chars : List Char} {count : Nat}, chars.length = count →
        chars.Subperm pool → anySource () (.sample pool count) (.ok chars : Except Fault _) () := by
      intro pool chars count hcount hsub
      have hrefuses : RandomOp.refuses pool count = false := by
        have hle := hsub.length_le
        simp only [RandomOp.refuses, Bool.or_eq_false_iff, decide_eq_false_iff_not]
        omega
      simp only [anySource, RandomOp.Lawful, hrefuses]
      exact ⟨chars, rfl, by omega, hsub⟩
    -- the three draws give the characters, and shuffling brings them into the order of the text
    have hsource : anySource () .source () () := trivial
    have hshuffle : anySource () (.shuffle (l ++ d ++ s)) w () := hperm
    exact .ask hsource (.ask (hdraw hlength hl) (.ask (hdraw hlength' hd)
      (.ask (hdraw hlength'' hs) (.ask hshuffle (.here _ _)))))

end Password

end Reconciler
