import BorderCss.Proofs.Number.Decimal
import BorderCss.Proofs.Value.MathCall

/-!
# Numbers in spaced expressions

A `CssNumber` is an unsigned number in the notation of style sheets, with an optional fraction and
an optional exponent. Where a number may begin, it is written as it stands, unless its exponent has
a sign: the sign follows characters that a number and its unit may have, so it is a binary operator,
except inside a `var(…)`, and is spaced (`readBracket?_number_iff`).
-/

namespace BorderCss

variable {c d : Char} {before after start : List Char}

/-! ## Numbers -/

/-- An exponent: its letter, a sign if it has one, and its digits. -/
structure CssExponent where
  letter : Char
  sign : Option Char
  digits : List Char
  letter_eq : letter = 'e' ∨ letter = 'E'
  sign_eq : ∀ c ∈ sign, c = '+' ∨ c = '-'
  isDigits : IsDigits digits

/-- An unsigned number: the digits in front of the point, those behind it, and its exponent. -/
structure CssNumber where
  whole : List Char
  fraction : List Char
  exponent : Option CssExponent
  isDigits : IsDigits (whole ++ fraction)

/-- The text of an exponent. -/
def CssExponent.text (exponent : CssExponent) : List Char :=
  exponent.letter :: (exponent.sign.toList ++ exponent.digits)

namespace CssNumber

variable {number : CssNumber}

/-- The text in front of the exponent. A point stands in front of a fraction only. -/
def mantissa (number : CssNumber) : List Char :=
  number.whole ++ if number.fraction = [] then [] else '.' :: number.fraction

/-- The text of a number. -/
def text (number : CssNumber) : List Char :=
  number.mantissa ++ number.exponent.elim [] CssExponent.text

/-- The exponent is written with a sign. -/
def HasSignedExponent (number : CssNumber) : Prop :=
  ∃ exponent ∈ number.exponent, exponent.sign ≠ none

theorem beginsToken_of_mem_mantissa (hc : c ∈ number.mantissa) : beginsToken c = true := by
  have hdigit : ∀ c ∈ number.whole ++ number.fraction, beginsToken c = true := fun c hc => by
    rw [beginsToken, number.isDigits.isDigit c hc, Bool.true_or]
  rw [mantissa, List.mem_append] at hc
  obtain hc | hc := hc
  · exact hdigit c (List.mem_append_left _ hc)
  · split at hc
    · cases hc
    · obtain rfl | hc := List.mem_cons.1 hc
      · rfl
      · exact hdigit c (List.mem_append_right _ hc)

theorem mantissa_ne_nil (number : CssNumber) : number.mantissa ≠ [] := by
  intro hmantissa
  obtain ⟨hwhole, hfraction⟩ := List.append_eq_nil_iff.1 hmantissa
  split at hfraction
  next hnone => exact number.isDigits.nonempty (List.append_eq_nil_iff.2 ⟨hwhole, hnone⟩)
  next => cases hfraction

end CssNumber

theorem continuesToken_of_beginsToken (h : beginsToken c = true) : continuesToken c = true := by
  rw [continuesToken, h, Bool.true_or, Bool.true_or]

theorem CssExponent.continuesToken_letter (exponent : CssExponent) :
    continuesToken exponent.letter = true := by
  obtain hletter | hletter := exponent.letter_eq <;> rw [hletter] <;> rfl

theorem CssExponent.isOperator_sign {exponent : CssExponent} (hc : c ∈ exponent.sign) :
    isOperator c = true := by
  obtain rfl | rfl := exponent.sign_eq c hc <;> rfl

theorem CssExponent.continuesToken_of_mem_digits {exponent : CssExponent}
    (hc : c ∈ exponent.digits) : continuesToken c = true :=
  continuesToken_of_beginsToken (by rw [beginsToken, exponent.isDigits.isDigit c hc, Bool.true_or])

namespace CssNumber

variable {number : CssNumber}

/-- Every character of a number but the sign of its exponent may go on with a numeric token. -/
theorem mem_text (hc : c ∈ number.text) :
    continuesToken c = true ∨ ∃ exponent ∈ number.exponent, c ∈ exponent.sign := by
  rw [text, List.mem_append] at hc
  obtain hc | hc := hc
  · exact .inl (continuesToken_of_beginsToken (beginsToken_of_mem_mantissa hc))
  · cases hexponent : number.exponent with
    | none =>
      rw [hexponent] at hc
      cases hc
    | some exponent =>
      rw [hexponent] at hc
      have hc : c ∈ exponent.letter :: (exponent.sign.toList ++ exponent.digits) := hc
      simp only [List.mem_cons, List.mem_append, Option.mem_toList] at hc
      obtain rfl | hc | hc := hc
      · exact .inl exponent.continuesToken_letter
      · exact .inr ⟨exponent, rfl, hc⟩
      · exact .inl (CssExponent.continuesToken_of_mem_digits hc)

/-- The only operator of a number is the sign of its exponent. -/
theorem hasSignedExponent_of_mem (hc : c ∈ number.text) (hop : isOperator c = true) :
    number.HasSignedExponent := by
  obtain hcontinues | ⟨exponent, hexponent, hsign⟩ := mem_text hc
  · rw [continuesToken_of_isOperator hop] at hcontinues
    cases hcontinues
  · exact ⟨exponent, hexponent, Option.ne_none_iff_exists'.2 ⟨c, hsign⟩⟩

/-- A number has no parentheses. -/
theorem notMem_text (hd : continuesToken d = false) (hsign : d ≠ '+' ∧ d ≠ '-') :
    d ∉ number.text := by
  intro hmem
  obtain hcontinues | ⟨exponent, -, hc⟩ := mem_text hmem
  · rw [hd] at hcontinues
    cases hcontinues
  · exact (exponent.sign_eq d hc).elim hsign.1 hsign.2

/-- Being inside of a call does not change within a number. -/
theorem inCall_append_iff {name : String} (h : start <+: number.text) :
    InCall name (before ++ start) ↔ InCall name before :=
  BorderCss.inCall_append_iff
    (fun hmem => notMem_text (d := '(') rfl ⟨by decide, by decide⟩ (h.subset hmem))
    (fun hmem => notMem_text (d := ')') rfl ⟨by decide, by decide⟩ (h.subset hmem))

/-- The sign of an exponent stands behind a numeric token and the letter, which is taken for the
beginning of a unit. -/
theorem exists_sign (hfresh : Fresh before) (h : number.HasSignedExponent) :
    ∃ start c rest, number.text = start ++ c :: rest ∧ isOperator c = true ∧
      EndsNumeric (before ++ start) := by
  obtain ⟨exponent, hexponent, hsign⟩ := h
  obtain ⟨c, hc⟩ := Option.ne_none_iff_exists'.1 hsign
  refine ⟨number.mantissa ++ [exponent.letter], c, exponent.digits, ?_,
    CssExponent.isOperator_sign hc, before, number.mantissa ++ [exponent.letter], rfl, hfresh,
    ?_, ?_⟩
  · rw [text, Option.mem_def.1 hexponent, Option.elim_some, CssExponent.text, hc]
    simp
  · obtain ⟨d, mantissa, hmantissa⟩ := List.exists_cons_of_ne_nil number.mantissa_ne_nil
    have hd : d ∈ number.mantissa := hmantissa ▸ List.mem_cons_self
    exact ⟨d, by rw [hmantissa]; rfl, beginsToken_of_mem_mantissa hd⟩
  · simp only [List.mem_append, List.mem_singleton]
    rintro d (hd | rfl)
    · exact continuesToken_of_beginsToken (beginsToken_of_mem_mantissa hd)
    · exact exponent.continuesToken_letter

/-- Where a number may begin, none of its characters is a binary operator just if its exponent has
no sign or it stands in a `var(…)`. -/
theorem not_isBinary_iff (hfresh : Fresh before) :
    (∀ start c rest, number.text = start ++ c :: rest → ¬IsBinary (before ++ start) c) ↔
      (number.HasSignedExponent → InCall "var" before) := by
  constructor
  · intro hnone hsigned
    obtain ⟨start, c, rest, htext, hop, hends⟩ := exists_sign hfresh hsigned
    by_contra hcall
    have hstart : start <+: number.text := htext ▸ List.prefix_append start (c :: rest)
    exact hnone start c rest htext ⟨hop, .inr hends, mt (inCall_append_iff hstart).1 hcall⟩
  · intro hcall start c rest htext hbinary
    have hstart : start <+: number.text := htext ▸ List.prefix_append start (c :: rest)
    have hmem : c ∈ number.text := htext ▸ by simp
    exact hbinary.outside
      ((inCall_append_iff hstart).2 (hcall (hasSignedExponent_of_mem hmem hbinary.operator)))

end CssNumber

/-! ## Bracket escapes -/

variable {content : List Char} {text value : String}

/-- The name of a custom property, and the fallback behind it, is the argument of a reference as it
stands. -/
theorem toList_value_name {hint : Option BracketHint}
    (hread : readBracket? text = some ⟨hint, value⟩)
    (hsplit : (bracketContent? text.toList).map splitHint = some (hint, content))
    (hname : "--".toList <+: content) : value.toList = "var(".toList ++ content ++ [')'] := by
  rw [toList_value_of_readBracket? hread hsplit]
  exact if_pos (List.isPrefixOf_iff_prefix.2 hname)

/-- A number in a bracket escape without a hint, at a place where one may begin, is in the value as
it stands just if the content calls no math function, the exponent has no sign, or the number stands
in a `var(…)`. The name of a custom property is not spaced at all. -/
theorem readBracket?_number_iff (hread : readBracket? text = some ⟨none, value⟩)
    (hsplit : (bracketContent? text.toList).map splitHint = some (none, content)) :
    ("--".toList <+: content → value.toList = "var(".toList ++ content ++ [')']) ∧
    (¬"--".toList <+: content → ∀ (number : CssNumber) before after,
      spacedOutsideUrls content = before ++ number.text ++ after → Fresh before →
        (Keeps before number.text after value.toList ↔
          (callsMath (spacedOutsideUrls content) = true → number.HasSignedExponent →
            InCall "var" before))) := by
  refine ⟨toList_value_name hread hsplit, fun hname number before after hcontent hfresh => ?_⟩
  rw [toList_value_unhinted hread hsplit hname, hcontent, keeps_spaceMath_iff,
    CssNumber.not_isBinary_iff hfresh]

/-- The number `1.5e3`. -/
def fifteenHundred : CssNumber where
  whole := ['1']
  fraction := ['5']
  exponent := some ⟨'e', none, ['3'], .inl rfl, nofun, .of_all nofun rfl⟩
  isDigits := .of_all nofun rfl

/-- A number whose exponent has no sign is in the value as it stands. -/
theorem readBracket?_number_unsigned :
    readBracket? "[calc(100%-1.5e3px)]" = some ⟨none, "calc(100% - 1.5e3px)"⟩ ∧
      Keeps "calc(100%-".toList "1.5e3".toList "px)".toList "calc(100% - 1.5e3px)".toList := by
  have hread : readBracket? "[calc(100%-1.5e3px)]" = some ⟨none, "calc(100% - 1.5e3px)"⟩ := by
    decide +kernel
  have hsplit : (bracketContent? "[calc(100%-1.5e3px)]".toList).map splitHint =
      some (none, "calc(100%-1.5e3px)".toList) := by decide +kernel
  have hcontent : spacedOutsideUrls "calc(100%-1.5e3px)".toList =
      "calc(100%-".toList ++ fifteenHundred.text ++ "px)".toList := by decide +kernel
  have hfresh : Fresh "calc(100%-".toList := by
    intro c hc
    obtain rfl : '-' = c := Option.some.inj hc
    rfl
  refine ⟨hread, ((readBracket?_number_iff hread hsplit).2 (by decide +kernel) fifteenHundred
    _ _ hcontent hfresh).2 fun _ hsigned => ?_⟩
  obtain ⟨exponent, hexponent, hsign⟩ := hsigned
  obtain rfl := Option.some.inj hexponent
  exact absurd rfl hsign

/-- A number with a signed exponent is split. -/
theorem readBracket?_number_split :
    readBracket? "[calc(1e-3px)]" = some ⟨none, "calc(1e - 3px)"⟩ ∧
      (∃ number : CssNumber, number.text = "1e-3".toList) ∧
      "calc(1e-3px)".toList = "calc(".toList ++ "1e-3".toList ++ "px)".toList ∧
      ¬"1e-3".toList <:+: "calc(1e - 3px)".toList := by
  refine ⟨by decide +kernel, ?_, rfl, by decide +kernel⟩
  exact ⟨⟨['1'], [], some ⟨'e', some '-', ['3'], .inl rfl, by simp, .of_all nofun rfl⟩,
    .of_all nofun rfl⟩, rfl⟩

end BorderCss
