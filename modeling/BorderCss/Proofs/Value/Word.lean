import BorderCss.Proofs.Text.Word
import BorderCss.Value.Fragment

/-!
# Fragments that begin with a word

A text whose first word is made of lower-case letters (`Worded`) is neither a bracket escape nor a
custom property, since it begins with a letter, and no quantity for the same reason. It is no math
function either: the word would have to go on with a parenthesis or a blank. So its only value in
pixels is a CSS-wide keyword (`resolveFragment?_px_worded`). In root ems it may also be the word for
the whole or a name in the scale, and is no other ratio (`resolveFragment?_rem_worded`).
-/

namespace BorderCss

/-- The first word of the text is a word of lower-case letters. -/
structure Worded (text : List Char) : Prop where
  nonempty : firstWord text ≠ []
  lower : ∀ c ∈ firstWord text, c.isLower = true

variable {text rest : List Char} {c : Char}

/-! ## Lower-case letters -/

theorem toNat_of_isLower (h : c.isLower = true) : 97 ≤ c.toNat ∧ c.toNat ≤ 122 := by
  have hrange : (decide ('a'.val ≤ c.val) && decide (c.val ≤ 'z'.val)) = true := h
  rw [Bool.and_eq_true, decide_eq_true_eq, decide_eq_true_eq] at hrange
  exact hrange

theorem isDigit_of_isLower (h : c.isLower = true) : c.isDigit = false := by
  obtain ⟨hlow, -⟩ := toNat_of_isLower h
  rw [← Bool.not_eq_true, Char.isDigit_iff_toNat]
  have hzero : '0'.toNat = 48 := rfl
  have hnine : '9'.toNat = 57 := rfl
  omega

theorem isBlank_of_isLower (h : c.isLower = true) : isBlank c = false := by
  obtain ⟨hlow, hhigh⟩ := toNat_of_isLower h
  rw [← Bool.not_eq_true]
  intro hblank
  simp only [isBlank, Bool.or_eq_true, Bool.and_eq_true, decide_eq_true_eq, beq_iff_eq] at hblank
  omega

theorem ne_of_isLower (h : c.isLower = true) {d : Char} (hd : d.isLower = false) : c ≠ d := by
  rintro rfl
  rw [hd] at h
  cases h

/-- A text that begins with a word begins with a letter. -/
theorem Worded.head (h : Worded text) : ∃ c rest, text = c :: rest ∧ c.isLower = true := by
  cases text with
  | nil => exact absurd firstWord_nil h.nonempty
  | cons c rest =>
    have hne : c ≠ '-' := by
      rintro rfl
      exact h.nonempty (firstWord_hyphen rest)
    refine ⟨c, rest, rfl, h.lower c ?_⟩
    rw [firstWord_cons hne]
    exact List.mem_cons_self

/-! ## What begins with a letter -/

/-- A bracket escape begins with a bracket. -/
theorem readBracket?_of_ne {raw : String} (hraw : raw.toList = c :: rest) (hne : c ≠ '[') :
    readBracket? raw = none := by
  have hcontent : bracketContent? raw.toList = none := by
    rw [hraw]
    unfold bracketContent?
    split
    · next heq => exact absurd (List.cons.inj heq).1 hne
    · rfl
  rw [readBracket?, hcontent]

/-- A custom property begins with a dollar sign. -/
theorem customProperty?_of_ne {raw : String} (hraw : raw.toList = c :: rest) (hne : c ≠ '$') :
    customProperty? raw = none := by
  unfold customProperty?
  rw [hraw]
  split
  · next heq => exact absurd (List.cons.inj heq).1 hne
  · rfl

theorem readBracket?_of_isLower {raw : String} (hraw : raw.toList = c :: rest)
    (h : c.isLower = true) : readBracket? raw = none :=
  readBracket?_of_ne hraw (ne_of_isLower h (by decide))

theorem customProperty?_of_isLower {raw : String} (hraw : raw.toList = c :: rest)
    (h : c.isLower = true) : customProperty? raw = none :=
  customProperty?_of_ne hraw (ne_of_isLower h (by decide))

theorem Numeral.scanFraction_of_isLower (h : c.isLower = true) (rest : List Char) :
    Numeral.scanFraction (c :: rest) = ([], c :: rest) := by
  have hpoint : c ≠ '.' := ne_of_isLower h (by decide)
  unfold Numeral.scanFraction
  split
  · next heq => exact absurd (List.cons.inj heq).1 hpoint
  · rfl

/-- A numeral does not begin with a letter. -/
theorem Numeral.scan_of_isLower (h : c.isLower = true) (rest : List Char) :
    Numeral.scan (c :: rest) = (⟨false, [], []⟩, c :: rest) := by
  have hdigit := isDigit_of_isLower h
  have hminus : c ≠ '-' := ne_of_isLower h (by decide)
  unfold Numeral.scan
  split
  · next heq => exact absurd (List.cons.inj heq).1 hminus
  · rw [Numeral.scanUnsigned, List.takeWhile_cons_of_neg (by simp [hdigit]),
      List.dropWhile_cons_of_neg (by simp [hdigit]), Numeral.scanFraction_of_isLower h]

theorem readQuantity?_of_isLower {raw : String} (hraw : raw.toList = c :: rest)
    (h : c.isLower = true) : readQuantity? raw = none := by
  rw [readQuantity?, hraw, Numeral.scan_of_isLower h]
  simp [Numeral.value?]

/-! ## What begins with a word -/

/-- A call goes on with a blank or a parenthesis behind the name of its function. -/
theorem isCallTail_head (h : isCallTail text = true) :
    ∃ c rest, text = c :: rest ∧ (isBlank c = true ∨ c = '(') := by
  unfold isCallTail at h
  cases text with
  | nil => cases h
  | cons c rest =>
    refine ⟨c, rest, rfl, ?_⟩
    by_cases hblank : isBlank c = true
    · exact .inl hblank
    · rw [List.dropWhile_cons_of_neg hblank] at h
      split at h
      · next heq => exact .inr (List.cons.inj heq).1
      · cases h

theorem mathFunctions_words : ∀ name ∈ mathFunctions, '-' ∉ name.toList := by
  decide

theorem isMathCall_of_worded {raw : String} (h : Worded raw.toList) : isMathCall raw = false := by
  rw [isMathCall, List.any_eq_false]
  intro name hname
  cases hcut : cutStart? name.toList raw.toList with
  | none => exact Bool.false_ne_true
  | some tail =>
    intro hcall
    obtain ⟨c, rest, rfl, hhead⟩ := isCallTail_head hcall
    have htext := cutStart?_eq_some_iff.1 hcut
    have hne : c ≠ '-' := by
      rintro rfl
      rcases hhead with hblank | hparen
      · exact absurd hblank (by decide)
      · cases hparen
    have hlower : c.isLower = true := by
      refine h.lower c ?_
      rw [htext, firstWord_append (mathFunctions_words name hname), firstWord_cons hne]
      simp
    rcases hhead with hblank | rfl
    · rw [isBlank_of_isLower hlower] at hblank
      cases hblank
    · exact absurd hlower (by decide)

/-- A CSS-wide keyword begins with one of four words. -/
theorem wideKeyword?_of_firstWord {raw : String}
    (h : firstWord raw.toList ∉ wideKeywords.map (firstWord ·.toList)) :
    wideKeyword? raw = none := by
  rw [wideKeyword?, if_neg]
  intro hwide
  exact h (List.mem_map_of_mem (List.contains_iff_mem.1 hwide))

/-- A text that begins with a word is spelled out by itself only if it is a CSS-wide keyword, so it
is left to the theme scale and the unit conversion. -/
theorem resolveFragment?_worded {theme : Theme} {mode : UnitMode} {scale : Option ThemeScale}
    {raw : String} (h : Worded raw.toList)
    (hwide : firstWord raw.toList ∉ wideKeywords.map (firstWord ·.toList)) :
    resolveFragment? theme mode scale raw =
      (scale.bind fun scale => scaleValue? theme scale raw).or
        ((convert? mode raw).map ({ css := · })) := by
  obtain ⟨c, rest, hraw, hlower⟩ := h.head
  have hspelled : spelledValue? raw = none := by
    rw [spelledValue?, customProperty?_of_isLower hraw hlower, wideKeyword?_of_firstWord hwide,
      isMathCall_of_worded h]
    rfl
  rw [resolveFragment?, readBracket?_of_isLower hraw hlower]
  simp only [hspelled]

/-- In pixels, a text that begins with a word has no value unless it is a CSS-wide keyword. -/
theorem resolveFragment?_px_worded {theme : Theme} {raw : String} (h : Worded raw.toList)
    (hwide : firstWord raw.toList ∉ wideKeywords.map (firstWord ·.toList)) :
    resolveFragment? theme .px none raw = none := by
  obtain ⟨c, rest, hraw, hlower⟩ := h.head
  rw [resolveFragment?_worded h hwide, convert?, pixels?, readQuantity?_of_isLower hraw hlower]
  rfl

/-! ## Ratios -/

/-- A slash lies behind the first word of a text, if that word has none. -/
theorem cutFirst?_slash {word : List Char} (h : '/' ∉ word) (rest : List Char) :
    cutFirst? '/' (word ++ rest) =
      (cutFirst? '/' rest).map fun cut => (word ++ cut.1, cut.2) := by
  induction word with
  | nil =>
    rw [List.nil_append]
    cases cutFirst? '/' rest <;> rfl
  | cons c word ih =>
    rw [List.mem_cons, not_or] at h
    rw [List.cons_append, cutFirst?, if_neg (Ne.symm h.1), ih h.2, Option.map_map]
    rfl

/-- A number that begins with a letter is one of the words for infinity and for not a number, which
have no hyphen. -/
theorem readNumber?_of_isLower (h : c.isLower = true) (hhyphen : '-' ∈ rest) :
    readNumber? (c :: rest) = none := by
  have hdigit := isDigit_of_isLower h
  have hminus : c ≠ '-' := ne_of_isLower h (by decide)
  have hplus : c ≠ '+' := ne_of_isLower h (by decide)
  have hpoint : c ≠ '.' := ne_of_isLower h (by decide)
  have hlower : '-' ∈ (c :: rest).map Char.toLower :=
    List.mem_map_of_mem (f := Char.toLower) (List.mem_cons_of_mem c hhyphen)
  have hword : ∀ word : String, '-' ∉ word.toList → (c :: rest).map Char.toLower ≠ word.toList := by
    intro word hnone heq
    rw [heq] at hlower
    exact hnone hlower
  have hunsigned : readUnsigned? false (c :: rest) = readScientific? false (c :: rest) := by
    unfold readUnsigned?
    rw [if_neg, if_neg (hword "nan" (by decide))]
    rintro (heq | heq)
    · exact hword "inf" (by decide) heq
    · exact hword "infinity" (by decide) heq
  have hscientific : readScientific? false (c :: rest) = none := by
    unfold readScientific?
    rw [List.takeWhile_cons_of_neg (by simp [hdigit]),
      List.dropWhile_cons_of_neg (by simp [hdigit])]
    dsimp only
    split
    · next heq => exact absurd (List.cons.inj heq).1 hpoint
    · rfl
  unfold readNumber?
  split
  · next heq => exact absurd (List.cons.inj heq).1 hminus
  · next heq => exact absurd (List.cons.inj heq).1 hplus
  · rw [hunsigned, hscientific]

/-- A text that begins with a word is a ratio only if it is the word for the whole. -/
theorem ratio?_of_worded {raw : String} (h : Worded raw.toList) (hfull : raw ≠ "full") :
    ratio? raw = none := by
  have hslash : '/' ∉ firstWord raw.toList := fun hmem =>
    absurd (h.lower '/' hmem) (by decide)
  have hcut := cutFirst?_slash hslash (afterWord raw.toList)
  rw [firstWord_append_afterWord] at hcut
  obtain ⟨c, word, hword⟩ := List.exists_cons_of_ne_nil h.nonempty
  have hlower : c.isLower = true := h.lower c (by rw [hword]; exact List.mem_cons_self)
  rw [ratio?, if_neg hfull, hcut, hword]
  cases hafter : afterWord raw.toList with
  | nil => rfl
  | cons d rest =>
    obtain rfl : d = '-' := eq_hyphen_of_afterWord hafter
    have hnext : cutFirst? '/' ('-' :: rest) =
        (cutFirst? '/' rest).map fun cut => ('-' :: cut.1, cut.2) := rfl
    rw [hnext, Option.map_map]
    cases cutFirst? '/' rest with
    | none => rfl
    | some cut =>
      have hnone : readNumber? ((c :: word) ++ '-' :: cut.1) = none :=
        readNumber?_of_isLower hlower (by simp)
      simp only [Option.map_some, Function.comp_apply, Option.bind_eq_bind, Option.bind_some, hnone,
        Option.bind_none]

/-- In root ems, a text that begins with a word has no value unless it is a CSS-wide keyword, the
word for the whole, or a name in the scale. -/
theorem resolveFragment?_rem_worded {theme : Theme} {raw : String} (h : Worded raw.toList)
    (hwide : firstWord raw.toList ∉ wideKeywords.map (firstWord ·.toList)) (hfull : raw ≠ "full")
    (hkey : theme.radius? raw = none) :
    resolveFragment? theme .rem (some .radius) raw = none := by
  obtain ⟨c, rest, hraw, hlower⟩ := h.head
  rw [resolveFragment?_worded h hwide, convert?, ratio?_of_worded h hfull, rootEms?,
    readQuantity?_of_isLower hraw hlower, Option.bind_some, scaleValue?, ThemeScale.lookup?, hkey]
  rfl

end BorderCss
