import Reconciler.Proofs.Value
import Reconciler.Resource.Descriptor
import Mathlib.Data.List.TakeWhile

/-! # The grammar of descriptors

A descriptor is written `<Type<Kind<Vendor:Product:Variant:Version>>>`, with white space around it or
without. The parts are not empty and contain none of the characters that separate them, so a text can be
split into them in one way only: reading a descriptor accepts exactly what can be written, and is undone by
writing it.

Main definitions and statements:

* `Stripped`, `trim_eq_iff`: what is left of a text without the white space around it;
* `piecesAt_eq_iff`: the pieces of a text are the texts without a separator that make it up;
* `Descriptor.Grammatical`: descriptors that can be written;
* `Descriptor.parse_exactly_grammar`: the result.
-/

namespace Reconciler

/-! ## White space around a text -/

/-- The second text is what is left of the first without the white space around it. -/
structure Stripped (s t : List Char) : Prop where
  surrounded : ∃ before after, s = before ++ t ++ after ∧ ∀ c ∈ before ++ after, blank c = true
  head : ∀ c ∈ t.head?, blank c = false
  last : ∀ c ∈ t.getLast?, blank c = false

section Trim

variable {ok : Char → Bool} {s t : List Char}

/-- What consists of a class only is dropped from the front. -/
theorem dropWhile_append_of_all {before : List Char} (h : ∀ c ∈ before, ok c = true)
    (rest : List Char) : (before ++ rest).dropWhile ok = rest.dropWhile ok := by
  rw [List.dropWhile_append, List.dropWhile_eq_nil_iff.mpr h]
  rfl

/-- A character behind which everything is removed. -/
theorem trimEnd_cons_of_nil {c : Char} (h : trimEnd ok s = []) :
    trimEnd ok (c :: s) = if ok c then [] else [c] := by
  rw [trimEnd, h]

/-- A character behind which something is kept. -/
theorem trimEnd_cons_of_cons {c d : Char} (h : trimEnd ok s = d :: t) :
    trimEnd ok (c :: s) = c :: d :: t := by
  rw [trimEnd, h]

/-- What is removed at the end is of the class, and what is kept does not end with it. -/
theorem exists_append_trimEnd (ok : Char → Bool) (s : List Char) :
    ∃ after, s = trimEnd ok s ++ after ∧ (∀ c ∈ after, ok c = true) ∧
      ∀ c ∈ (trimEnd ok s).getLast?, ok c = false := by
  induction s with
  | nil => exact ⟨[], rfl, by simp, by simp [trimEnd]⟩
  | cons c rest ih =>
    obtain ⟨after, hrest, hafter, hlast⟩ := ih
    cases hkept : trimEnd ok rest with
    | nil =>
      rw [hkept, List.nil_append] at hrest
      rw [trimEnd_cons_of_nil hkept]
      -- everything behind the character goes, so it goes too if it is of the class
      by_cases hc : ok c = true
      · refine ⟨c :: after, by simp [hc, hrest], ?_, by simp [hc]⟩
        intro d hd
        rcases List.mem_cons.mp hd with rfl | hd
        · exact hc
        · exact hafter d hd
      · exact ⟨after, by simp [hc, hrest], hafter, by simp [hc]⟩
    | cons d kept =>
      rw [hkept] at hrest hlast
      rw [trimEnd_cons_of_cons hkept]
      exact ⟨after, by simp [hrest], hafter, by simpa using hlast⟩

/-- What consists of a class only is dropped from the end, if nothing of the class stands before it. -/
theorem trimEnd_append_of_all {after : List Char} (hafter : ∀ c ∈ after, ok c = true)
    (hlast : ∀ c ∈ t.getLast?, ok c = false) : trimEnd ok (t ++ after) = t := by
  induction t with
  | nil =>
    induction after with
    | nil => rfl
    | cons c rest ih =>
      have hrest : trimEnd ok rest = [] := ih fun d hd => hafter d (by simp [hd])
      simp [trimEnd_cons_of_nil hrest, hafter c (by simp)]
  | cons c rest ih =>
    -- the last character decides whether what comes after is reached
    cases rest with
    | nil =>
      have hafter' : trimEnd ok after = [] := ih (by simp)
      have hc : ok c = false := hlast c (by simp)
      simp [trimEnd_cons_of_nil hafter', hc]
    | cons d rest =>
      have hrest : trimEnd ok (d :: rest ++ after) = d :: rest := ih (by simpa using hlast)
      rw [List.cons_append, trimEnd_cons_of_cons hrest]

/-- Trimming removes the white space around a text and nothing else. -/
theorem trim_eq_iff : trim s = t ↔ Stripped s t := by
  constructor
  · rintro rfl
    obtain ⟨after, hafter, hall, hlast⟩ := exists_append_trimEnd blank (s.dropWhile blank)
    refine ⟨⟨s.takeWhile blank, after, ?_, ?_⟩, ?_, hlast⟩
    · rw [List.append_assoc, trim, trimBy, ← hafter, List.takeWhile_append_dropWhile]
    · intro c hc
      rcases List.mem_append.mp hc with hc | hc
      · exact List.mem_takeWhile_imp hc
      · exact hall c hc
    · -- the first character that is kept stopped the removal at the front
      intro c hc
      have hhead : (s.dropWhile blank).head? = some c := by
        rw [hafter, List.head?_append, show (trimEnd blank (s.dropWhile blank)).head? = some c from hc]
        rfl
      simpa [hhead] using List.head?_dropWhile_not blank s
  · rintro ⟨⟨before, after, rfl, hall⟩, hhead, hlast⟩
    have hbefore : ∀ c ∈ before, blank c = true := fun c hc => hall c (by simp [hc])
    have hafter : ∀ c ∈ after, blank c = true := fun c hc => hall c (by simp [hc])
    rw [trim, trimBy, List.append_assoc, dropWhile_append_of_all hbefore]
    cases t with
    | nil =>
      rw [List.nil_append, List.dropWhile_eq_nil_iff.mpr hafter]
      rfl
    | cons c rest =>
      have hc : blank c = false := hhead c (by simp)
      rw [List.cons_append, List.dropWhile_cons, if_neg (by simp [hc])]
      exact trimEnd_append_of_all (t := c :: rest) hafter hlast

end Trim

/-! ## Pieces of a text -/

section Pieces

variable {separator : Char} {text : List Char} {pieces : List (List Char)}

theorem piecesAt_eq_splitOn (separator : Char) (text : List Char) :
    piecesAt separator text = text.splitOn separator := by
  induction text with
  | nil => simp [piecesAt]
  | cons c rest ih =>
    rw [piecesAt, ih, List.splitOn_cons_eq_if_modifyHead]
    by_cases hc : c = separator
    · simp [hc]
    · cases hrest : rest.splitOn separator with
      | nil => exact absurd hrest (List.splitOn_ne_nil separator rest)
      | cons piece pieces => simp [hc]

/-- No piece has the separator in it. -/
theorem not_mem_of_mem_piecesAt {piece : List Char} (h : piece ∈ piecesAt separator text) :
    separator ∉ piece := by
  induction text generalizing piece with
  | nil =>
    obtain rfl : piece = [] := by simpa [piecesAt] using h
    simp
  | cons c rest ih =>
    rw [piecesAt] at h
    by_cases hc : c = separator
    · rw [if_pos hc] at h
      rcases List.mem_cons.mp h with rfl | h
      · simp
      · exact ih h
    · rw [if_neg hc] at h
      have hne : separator ≠ c := fun e => hc e.symm
      -- the character is added to the first piece, which the rest begins with
      cases hrest : piecesAt separator rest with
      | nil =>
        obtain rfl : piece = [c] := by simpa [hrest] using h
        simpa using hne
      | cons first pieces =>
        rw [hrest] at h ih
        rcases List.mem_cons.mp h with rfl | h
        · have hfirst : separator ∉ first := ih (by simp)
          simpa [hne] using hfirst
        · exact ih (by simp [h])

/-- The pieces of a text are the texts without a separator that make it up. -/
theorem piecesAt_eq_iff (hne : pieces ≠ []) :
    piecesAt separator text = pieces ↔
      [separator].intercalate pieces = text ∧ ∀ piece ∈ pieces, separator ∉ piece := by
  constructor
  · rintro rfl
    refine ⟨?_, fun piece => not_mem_of_mem_piecesAt⟩
    rw [piecesAt_eq_splitOn, List.intercalate_splitOn]
  · rintro ⟨rfl, hpieces⟩
    rw [piecesAt_eq_splitOn, List.splitOn_intercalate separator hpieces hne]

end Pieces

/-! ## Descriptors that can be written -/

/-- A text that may stand between separators: it is not empty, and none of them is in it. -/
structure Part (separators : List Char) (s : String) : Prop where
  nonempty : s ≠ ""
  free : ∀ c ∈ separators, c ∉ s.toList

/-- Fewer separators are easier to avoid. -/
theorem Part.mono {separators fewer : List Char} {s : String} (h : Part separators s)
    (hsub : fewer ⊆ separators) : Part fewer s :=
  ⟨h.nonempty, fun c hc => h.free c (hsub hc)⟩

/-- A piece that is not empty and free of separators may stand between them. -/
theorem part_ofList {separators piece : List Char} (hne : piece ≠ [])
    (hfree : ∀ c ∈ separators, c ∉ piece) : Part separators (.ofList piece) := by
  refine ⟨?_, by simpa using hfree⟩
  intro hempty
  exact hne (by simpa using congrArg String.toList hempty)

namespace Specific

/-- Every part of a specific implementation may stand between some separators. -/
structure Parts (separators : List Char) (s : Specific) : Prop where
  vendor : Part separators s.vendor
  product : Part separators s.product
  variant : Part separators s.variant
  version : Part separators s.version

theorem Parts.mono {separators fewer : List Char} {s : Specific} (h : s.Parts separators)
    (hsub : fewer ⊆ separators) : s.Parts fewer :=
  ⟨h.vendor.mono hsub, h.product.mono hsub, h.variant.mono hsub, h.version.mono hsub⟩

theorem toList_print (s : Specific) :
    s.print.toList =
      [':'].intercalate [s.vendor.toList, s.product.toList, s.variant.toList, s.version.toList] := by
  simp [print, List.intercalate, toString]

/-- What is not in a written specific implementation is in none of its parts. -/
theorem Parts.append {more : List Char} {s : Specific} (h : s.Parts more) (fewer : List Char)
    (hfree : ∀ c ∈ fewer, c ∉ s.print.toList) : s.Parts (fewer ++ more) := by
  -- everything in a part is in what is written
  have hpart : ∀ {part : String}, Part more part → (∀ c ∈ part.toList, c ∈ s.print.toList) →
      Part (fewer ++ more) part := by
    intro part hpart hsub
    refine ⟨hpart.nonempty, ?_⟩
    intro c hc hmem
    rcases List.mem_append.mp hc with hc | hc
    · exact hfree c hc (hsub c hmem)
    · exact hpart.free c hc hmem
  constructor
  case vendor => exact hpart h.vendor (by simp +contextual [toList_print, List.intercalate])
  case product => exact hpart h.product (by simp +contextual [toList_print, List.intercalate])
  case variant => exact hpart h.variant (by simp +contextual [toList_print, List.intercalate])
  case version => exact hpart h.version (by simp +contextual [toList_print, List.intercalate])

/-- A character that is in no part of a specific implementation is in the written one only if it separates
them. -/
theorem Parts.not_mem_print {separators : List Char} {s : Specific} (h : s.Parts separators)
    {c : Char} (hc : c ∈ separators) (hcolon : c ≠ ':') : c ∉ s.print.toList := by
  simp [toList_print, List.intercalate, hcolon, h.vendor.free c hc, h.product.free c hc,
    h.variant.free c hc, h.version.free c hc]

/-- Reading a specific implementation accepts what can be written for one. -/
theorem parse_eq_ok {src : String} {s : Specific} :
    parse src = .ok s ↔ s.Parts [':'] ∧ s.print = src := by
  constructor
  · intro h
    rw [parse] at h
    split at h
    case h_1 vendor product variant version hpieces =>
      -- four pieces between colons, which written one after the other are the text again
      obtain ⟨hjoin, hfree⟩ := (piecesAt_eq_iff (by simp)).mp hpieces
      split at h
      · cases h
      · next hempty =>
        obtain rfl := Except.ok.inj h
        simp only [Bool.or_eq_true, List.isEmpty_iff, not_or] at hempty
        obtain ⟨⟨⟨hvendor, hproduct⟩, hvariant⟩, hversion⟩ := hempty
        have hpart : ∀ piece ∈ [vendor, product, variant, version], piece ≠ [] →
            Part [':'] (.ofList piece) := by
          intro piece hpiece hne
          exact part_ofList hne (by simpa using hfree piece hpiece)
        refine ⟨⟨hpart _ (by simp) hvendor, hpart _ (by simp) hproduct,
          hpart _ (by simp) hvariant, hpart _ (by simp) hversion⟩, ?_⟩
        apply String.toList_inj.mp
        rw [toList_print, ← hjoin]
        simp
    case h_2 => cases h
  · rintro ⟨hparts, rfl⟩
    -- none of the parts has a colon in it, so the text falls into them
    have hpieces : piecesAt ':' s.print.toList =
        [s.vendor.toList, s.product.toList, s.variant.toList, s.version.toList] := by
      refine (piecesAt_eq_iff (by simp)).mpr ⟨s.toList_print.symm, ?_⟩
      simp only [List.forall_mem_cons, List.not_mem_nil, false_imp_iff, implies_true, and_true]
      exact ⟨hparts.vendor.free _ (by simp), hparts.product.free _ (by simp),
        hparts.variant.free _ (by simp), hparts.version.free _ (by simp)⟩
    simp [parse, hpieces, hparts.vendor.nonempty, hparts.product.nonempty, hparts.variant.nonempty,
      hparts.version.nonempty]

/-- Whatever it does not accept is complained about. -/
theorem build_of_parse {src : String} {f : Fault} (h : parse src = .error f) :
    ∃ complaint, f = .build complaint := by
  rw [parse] at h
  split at h
  · split at h
    · cases h
      exact ⟨_, rfl⟩
    · cases h
  · cases h
    exact ⟨_, rfl⟩

end Specific

namespace Descriptor

/-- A descriptor that can be written: no part is empty, and none contains what separates it from the
others. -/
structure Grammatical (d : Descriptor) : Prop where
  type : Part ['<', '>'] d.type
  kind : Part ['<', '>'] d.kind
  specific : d.specific.Parts ['<', '>', ':']

theorem toList_print (d : Descriptor) :
    d.print.toList =
      ['<'].intercalate [[], d.type.toList, d.kind.toList, d.specific.print.toList] ++ closing := by
  simp [print, List.intercalate, toString, closing]

/-- There is nothing to trim around a written descriptor. -/
theorem stripped_print (d : Descriptor) : Stripped d.print.toList d.print.toList := by
  refine ⟨⟨[], [], by simp, by simp⟩, ?_, ?_⟩
  · intro c hc
    obtain rfl : '<' = c := by simpa [toList_print, List.intercalate] using hc
    decide
  · intro c hc
    rw [toList_print, List.getLast?_append] at hc
    obtain rfl : '>' = c := by simpa [closing] using hc
    decide

/-- What stands before the closing brackets is left when they are taken off. -/
theorem take_before_closing (body : List Char) :
    (body ++ closing).take ((body ++ closing).length - closing.length) = body := by
  rw [List.length_append, Nat.add_sub_cancel, List.take_left]

/-- The pieces between opening brackets are the parts of a descriptor that can be written, if none of them
is empty or has a closing bracket. -/
theorem grammatical_of_pieces {type kind specific : List Char} {s : Specific}
    (hopen : ∀ piece ∈ [type, kind, specific], '<' ∉ piece)
    (hclosed : ∀ piece ∈ [type, kind, specific], '>' ∉ piece) (htype : type ≠ []) (hkind : kind ≠ [])
    (hs : Specific.parse (.ofList specific) = .ok s) :
    Grammatical ⟨.ofList type, .ofList kind, s⟩ := by
  -- the code looks for opening brackets by splitting, and for closing ones by searching
  have hbrackets : ∀ piece ∈ [type, kind, specific], ∀ c ∈ ['<', '>'], c ∉ piece := by
    intro piece hpiece c hc
    rcases List.mem_cons.mp hc with rfl | hc
    · exact hopen piece hpiece
    · obtain rfl := List.mem_singleton.mp hc
      exact hclosed piece hpiece
  obtain ⟨hparts, hprint⟩ := Specific.parse_eq_ok.mp hs
  refine ⟨?_, ?_, hparts.append ['<', '>'] ?_⟩
  · exact part_ofList htype (hbrackets type (by simp))
  · exact part_ofList hkind (hbrackets kind (by simp))
  · rw [hprint, String.toList_ofList]
    exact hbrackets specific (by simp)

/-- A written descriptor is split at its opening brackets into what was put between them. -/
theorem Grammatical.piecesAt_print {d : Descriptor} (h : d.Grammatical) :
    piecesAt '<' (['<'].intercalate [[], d.type.toList, d.kind.toList, d.specific.print.toList]) =
      [[], d.type.toList, d.kind.toList, d.specific.print.toList] := by
  have hopen : '<' ∉ d.specific.print.toList := h.specific.not_mem_print (by simp) (by decide)
  refine (piecesAt_eq_iff (by simp)).mpr ⟨rfl, ?_⟩
  simp only [List.forall_mem_cons, List.not_mem_nil, false_imp_iff, implies_true, and_true,
    not_false_eq_true, true_and]
  exact ⟨h.type.free _ (by simp), h.kind.free _ (by simp), hopen⟩

/-- Reading a descriptor accepts what is left of a text without the white space around it if that can be
written for one. -/
theorem parseText_eq_ok {src : String} {d : Descriptor} :
    parseText src = .ok d ↔ d.Grammatical ∧ d.print.toList = trim src.toList := by
  constructor
  · intro h
    simp only [parseText] at h
    split at h
    case isFalse => cases h
    case isTrue hclosing =>
      obtain ⟨body, hbody⟩ := List.isSuffixOf_iff_suffix.mp hclosing
      rw [← hbody, take_before_closing] at h
      split at h
      case h_2 => cases h
      case h_1 type kind specific hpieces =>
        -- three pieces behind an empty one: the text begins with a bracket
        obtain ⟨hjoin, hfree⟩ := (piecesAt_eq_iff (by simp)).mp hpieces
        split at h
        · cases h
        · next hempty =>
          split at h
          · cases h
          · next hclosed =>
            obtain ⟨s, hs, hd⟩ := bind_eq_ok.mp h
            obtain rfl := Except.ok.inj hd
            simp only [Bool.or_eq_true, List.isEmpty_iff, List.contains_iff_mem, not_or]
              at hempty hclosed
            have hopen : ∀ piece ∈ [type, kind, specific], '<' ∉ piece :=
              fun piece hpiece => hfree piece (List.mem_cons_of_mem _ hpiece)
            refine ⟨grammatical_of_pieces hopen (by simpa [and_assoc] using hclosed) hempty.1 hempty.2 hs,
              ?_⟩
            rw [toList_print, (Specific.parse_eq_ok.mp hs).2, ← hbody, ← hjoin]
            simp
  · rintro ⟨hgrammar, hprint⟩
    -- the specific implementation is the last piece, and it is the one the closing brackets follow
    have hclose : '>' ∉ d.specific.print.toList :=
      hgrammar.specific.not_mem_print (by simp) (by decide)
    have hspecific : Specific.parse d.specific.print = .ok d.specific :=
      Specific.parse_eq_ok.mpr ⟨hgrammar.specific.mono (by simp), rfl⟩
    have hsuffix : closing.isSuffixOf (trim src.toList) = true := by
      rw [List.isSuffixOf_iff_suffix, ← hprint, toList_print]
      exact List.suffix_append _ _
    simp only [parseText, hsuffix, if_true]
    rw [← hprint, toList_print, take_before_closing, hgrammar.piecesAt_print]
    simp [hgrammar.type.nonempty, hgrammar.kind.nonempty, hgrammar.type.free, hgrammar.kind.free,
      hclose, hspecific, bind, Except.bind, pure, Except.pure]

/-- The only complaint about a text is that it is no descriptor. -/
theorem build_of_parseText {src : String} {f : Fault} (h : parseText src = .error f) :
    ∃ complaint, f = .build complaint := by
  simp only [parseText] at h
  split at h
  · split at h
    · split at h
      · cases h
        exact ⟨_, rfl⟩
      · split at h
        · cases h
          exact ⟨_, rfl⟩
        · -- only the specific implementation is left to complain about
          simp only [bind, Except.bind] at h
          split at h
          · next g hg =>
            cases h
            exact Specific.build_of_parse hg
          · cases h
    · cases h
      exact ⟨_, rfl⟩
  · cases h
    exact ⟨_, rfl⟩

/-- A text that was given is read, and an empty one is no descriptor. -/
theorem parse_text_eq_ok {src : String} {d : Descriptor} :
    parse (.text src) = .ok d ↔ d.Grammatical ∧ Stripped src.toList d.print.toList := by
  rw [← trim_eq_iff, eq_comm (a := trim src.toList), ← parseText_eq_ok]
  by_cases hempty : src = ""
  · subst hempty
    have hnot : parseText "" ≠ .ok d := by
      intro h
      have hprint := (parseText_eq_ok.mp h).2
      simp [toList_print, List.intercalate, trim, trimBy, trimEnd] at hprint
    simp [parse, Value.truthy, hnot]
  · simp [parse, Value.truthy, hempty]

/-- A text that is no descriptor fails with a complaint, with white space around it or not. -/
theorem build_of_parse_text {src : String} {f : Fault} (h : parse (.text src) = .error f) :
    ∃ complaint, f = .build complaint := by
  rw [parse] at h
  split at h
  · exact build_of_parseText h
  · cases h
    exact ⟨_, rfl⟩

/-- Reading accepts a descriptor exactly if it is written in the grammar, white space around it aside, and
complains about every other text and about an absent one. Writing what was read gives back the text without
that white space, what can be written is read back, and the labels name the parts in order. -/
theorem parse_exactly_grammar :
    (∀ src d, parse (.text src) = .ok d ↔ d.Grammatical ∧ Stripped src.toList d.print.toList) ∧
    (∀ src, (∀ d : Descriptor, d.Grammatical → ¬ Stripped src.toList d.print.toList) →
      ∃ complaint, parse (.text src) = .error (.build complaint)) ∧
    (∃ complaint, parse .null = .error (.build complaint)) ∧
    (∀ d : Descriptor, d.Grammatical → parse (.text d.print) = .ok d) ∧
    ∀ src d, parse (.text src) = .ok d → ∃ type kind vendor product variant version : String,
      Stripped src.toList
        s!"<{type}<{kind}<{vendor}:{product}:{variant}:{version}>>>".toList ∧
      d.labels = [("type", .text type), ("kind", .text kind), ("vendor", .text vendor),
        ("product", .text product), ("variant", .text variant), ("version", .text version)] := by
  refine ⟨fun src d => parse_text_eq_ok, ?_, ⟨_, rfl⟩, ?_, ?_⟩
  · intro src hother
    -- whatever is accepted is in the grammar, so a text outside it is complained about
    cases h : parse (.text src) with
    | ok d =>
      obtain ⟨hgrammar, hstripped⟩ := parse_text_eq_ok.mp h
      exact absurd hstripped (hother d hgrammar)
    | error f =>
      obtain ⟨complaint, rfl⟩ := build_of_parse_text h
      exact ⟨complaint, rfl⟩
  · intro d hgrammar
    exact parse_text_eq_ok.mpr ⟨hgrammar, d.stripped_print⟩
  · intro src d h
    refine ⟨d.type, d.kind, d.specific.vendor, d.specific.product, d.specific.variant,
      d.specific.version, ?_, rfl⟩
    simpa [print, Specific.print, toString] using (parse_text_eq_ok.mp h).2

-- Colons in the type and white space inside and around are no obstacle.
example : parse (.text " <a:b< c d<w:x:y:z>>>\n") = .ok ⟨"a:b", " c d", ⟨"w", "x", "y", "z"⟩⟩ := by
  decide +kernel

end Descriptor

end Reconciler
