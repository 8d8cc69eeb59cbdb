import BorderCss.Color.Reading
import BorderCss.Proofs.Color.Alpha
import BorderCss.Proofs.Color.Delimiter
import BorderCss.Proofs.Value.Ascii
import BorderCss.Theme.Preset

/-!
# ASCII colours

A text that begins with a hash, or with the word for it (`HexNotation`), is a literal colour only as
a hexadecimal one (`HexNotation.literal_eq`). Where a hexadecimal digit is read, decimal digits of
any script count, and they are kept. So the colour is ASCII, and a hash with hexadecimal digits,
just if the text has no decimal digits but those of ASCII (`HexNotation.isAscii_iff`). With what is
known of numbers, that says which values of fragments are ASCII (`values_ascii_iff`).
-/

namespace BorderCss

variable {theme : Theme} {text css : String} {color : Color} {c : Char} {chars digits : List Char}

/-! ## Hexadecimal colours -/

/-- The decimal digits of the text are those of ASCII. -/
def HasAsciiDigits (text : String) : Prop :=
  ∀ c ∈ text.toList, isDecimalDigit c = true → c.isDigit = true

instance (text : String) : Decidable (HasAsciiDigits text) :=
  List.decidableBAll _ _

/-- The text is a hash and hexadecimal digits. -/
def IsHexLiteral (css : String) : Prop :=
  ∃ digits, css.toList = '#' :: digits ∧ digits ≠ [] ∧ ∀ c ∈ digits, (hexDigit? c).isSome = true

/-- Digits behind a hash, or behind the word for it in any case. -/
inductive HexNotation : List Char → List Char → Prop
  | hash (digits : List Char) : HexNotation ('#' :: digits) digits
  | keyword {word : List Char} (digits : List Char) (hword : word.map foldLatin = "hex-".toList) :
    HexNotation (word ++ digits) digits

/-- The word for a hash begins with a letter, in any case. -/
theorem head_of_hexWord {word : List Char} (h : word.map foldLatin = "hex-".toList) :
    ∃ c rest, word = c :: rest ∧ foldLatin c = 'h' := by
  cases word with
  | nil => cases h
  | cons c rest => exact ⟨c, rest, rfl, (List.cons.inj h).1⟩

namespace HexNotation

/-- Neither a bracket escape nor a custom property begins like that. -/
theorem head (h : HexNotation chars digits) : ∃ c rest, chars = c :: rest ∧ c ≠ '[' ∧ c ≠ '$' := by
  cases h with
  | hash => exact ⟨'#', digits, rfl, by decide, by decide⟩
  | keyword _ hword =>
    obtain ⟨c, rest, rfl, hfirst⟩ := head_of_hexWord hword
    refine ⟨c, rest ++ digits, rfl, ?_, ?_⟩
    all_goals
      rintro rfl
      exact absurd hfirst (by decide)

/-- The colour that is read is a hash and the digits. -/
theorem hexColor?_eq (h : HexNotation chars digits) :
    hexColor? chars =
      if !digits.isEmpty && digits.all isHexLike then some ('#' :: digits) else none := by
  cases h with
  | hash => rfl
  | @keyword word _ hword =>
    have hlength : word.length = 4 := by simpa using congrArg List.length hword
    have htake : (word ++ digits).take 4 = word := List.take_left' hlength
    have hdrop : (word ++ digits).drop 4 = digits := List.drop_left' hlength
    obtain ⟨c, rest, hchars, hfirst⟩ := head_of_hexWord hword
    unfold hexColor?
    split
    · next heq =>
      rw [hchars, List.cons_append] at heq
      rw [(List.cons.inj heq).1] at hfirst
      exact absurd hfirst (by decide)
    · rw [htake, hdrop, if_pos hword]

/-- Decimal digits of the text stand behind the hash or the word for it. -/
theorem mem_digits (h : HexNotation chars digits) (hc : c ∈ chars)
    (hdecimal : isDecimalDigit c = true) : c ∈ digits := by
  cases h with
  | hash =>
    obtain rfl | hc := List.mem_cons.1 hc
    · exact absurd hdecimal (by decide)
    · exact hc
  | @keyword word _ hword =>
    obtain hc | hc := List.mem_append.1 hc
    · have hnone : "hex-".toList.all (!isDecimalDigit ·) = true := by decide
      have hmem : c ∈ "hex-".toList := by
        rw [← hword, ← foldLatin_of_isDecimalDigit hdecimal]
        exact List.mem_map_of_mem hc
      have hnot := List.all_eq_true.1 hnone c hmem
      rw [hdecimal] at hnot
      cases hnot
    · exact hc

/-- All decimal digits of the text are ASCII just if those behind the hash are. -/
theorem hasAsciiDigits_iff (h : HexNotation text.toList digits) :
    HasAsciiDigits text ↔ ∀ c ∈ digits, isDecimalDigit c = true → c.isDigit = true := by
  refine ⟨fun htext c hc => htext c ?_, fun hdigits c hc hdecimal => ?_⟩
  · generalize text.toList = chars at h
    cases h with
    | hash => exact List.mem_cons_of_mem _ hc
    | keyword => exact List.mem_append_right _ hc
  · exact hdigits c (h.mem_digits hc hdecimal) hdecimal

end HexNotation

/-! ## Literals -/

theorem splitAlpha?_none {main : String} (h : splitAlpha? text = some (main, none)) :
    main = text := by
  rw [splitAlpha?] at h
  split at h
  · cases h
  · cases h
  · next chars alpha _ _ hsplit =>
    obtain ⟨rfl, halpha⟩ := Prod.mk.inj (Option.some.inj h)
    rw [Option.map_eq_none_iff.1 halpha] at hsplit
    have htext : text.toList = chars ++ [] := splitSlash_eq hsplit
    rw [← String.toList_inj, String.toList_ofList, htext, List.append_nil]

/-- A colour that is no keyword and has no alpha is that of the whole text. -/
theorem readMain?_of_alpha_eq_none (h : readColor? theme text = some color)
    (halpha : color.alpha = none) (hspecial : color.isSpecial = false) :
    readMain? theme text none = some color := by
  rw [readColor?] at h
  split at h
  · cases h
  · next main hsplit => rwa [← splitAlpha?_none hsplit]
  · next main alphaText _ =>
    split at h
    · cases h
    · next alpha _ =>
      rw [readMain?_some] at h
      obtain ⟨plain, -, rfl⟩ := Option.map_eq_some_iff.1 h
      have hplain : plain.isSpecial = false := hspecial
      rw [Color.withAlpha, hplain] at halpha
      cases halpha

namespace HexNotation

/-- A literal colour behind a hash is the hash and what counts as its digits. -/
theorem literal_eq (h : HexNotation text.toList digits) (hread : readColor? theme text = some color)
    (halpha : color.alpha = none) (hkind : color.kind = .literal css) :
    css.toList = '#' :: digits ∧ digits ≠ [] ∧ ∀ c ∈ digits, isHexLike c = true := by
  have hspecial : color.isSpecial = false := by rw [Color.isSpecial, hkind]
  obtain ⟨c, rest, htext, hbracket, hdollar⟩ := h.head
  have hmain := readMain?_of_alpha_eq_none hread halpha hspecial
  have hnone : colorBracket? text = none := by
    rw [colorBracket?, readBracket?_of_ne htext hbracket]
  have hliteral : literalColor? text none = some css := by
    rw [readMain?, hnone] at hmain
    split at hmain
    · cases hmain
      cases hkind
    · dsimp only at hmain
      split at hmain
      · cases hmain
      · split at hmain
        · next found hfound =>
          cases hmain
          rw [hfound, ColorKind.literal.inj hkind]
        · obtain ⟨found, -, rfl⟩ := Option.map_eq_some_iff.1 hmain
          cases hkind
  rw [literalColor?, Option.getD_none, h.hexColor?_eq] at hliteral
  split at hliteral
  · next hex heq =>
    split at heq
    · next hdigits =>
      obtain rfl := Option.some.inj heq
      obtain rfl := Option.some.inj hliteral
      rw [Bool.and_eq_true, Bool.not_eq_true', List.isEmpty_eq_false_iff, List.all_eq_true]
        at hdigits
      exact ⟨String.toList_ofList, hdigits⟩
    · cases heq
  · split at hliteral
    · rw [customProperty?_of_ne htext hdollar] at hliteral
      cases hliteral
    · cases hliteral

/-- A literal colour behind a hash is ASCII, and hexadecimal, just if the decimal digits of its text
are those of ASCII. -/
theorem isAscii_iff (h : HexNotation text.toList digits)
    (hread : readColor? theme text = some color) (halpha : color.alpha = none)
    (hkind : color.kind = .literal css) :
    (IsAscii css ↔ HasAsciiDigits text) ∧ (IsHexLiteral css ↔ HasAsciiDigits text) := by
  obtain ⟨hcss, hne, hhex⟩ := h.literal_eq hread halpha hkind
  have hascii : HasAsciiDigits text ↔ ∀ c ∈ digits, c.toNat < 128 := by
    rw [h.hasAsciiDigits_iff]
    exact forall₂_congr fun c hc => (toNat_lt_iff_of_isHexLike (hhex c hc)).symm
  constructor
  · rw [hascii, IsAscii, hcss, List.forall_mem_cons]
    exact and_iff_right (by decide)
  · rw [hascii, IsHexLiteral, hcss]
    constructor
    · rintro ⟨others, heq, -, hothers⟩ c hc
      obtain rfl := (List.cons.inj heq).2
      exact (isSome_hexDigit?_iff (hhex c hc)).1 (hothers c hc)
    · exact fun hdigits =>
        ⟨digits, rfl, hne, fun c hc => (isSome_hexDigit?_iff (hhex c hc)).2 (hdigits c hc)⟩

end HexNotation

/-! ## The whole -/

/-- **ASCII values.** Fractions and ratios are ASCII. A length is just if the text has no long `s`,
which stands for an `s` of its unit. And a literal colour without an alpha that is written with a
hash or the word for it is ASCII, and a hash with hexadecimal digits, just if the text has no
decimal digits of other scripts. -/
theorem values_ascii_iff (theme : Theme) (text css : String) :
    (pixels? text = some css → (IsAscii css ↔ '\u017F' ∉ text.toList)) ∧
    (rootEms? text = some css → (IsAscii css ↔ '\u017F' ∉ text.toList)) ∧
    (fraction? text = some css → IsAscii css) ∧
    (ratio? text = some css → IsAscii css) ∧
    ∀ (digits : List Char) (color : Color), HexNotation text.toList digits →
      readColor? theme text = some color → color.alpha = none → color.kind = .literal css →
        (IsAscii css ↔ HasAsciiDigits text) ∧ (IsHexLiteral css ↔ HasAsciiDigits text) :=
  ⟨isAscii_pixels?_iff, isAscii_rootEms?_iff, isAscii_fraction?, isAscii_ratio?,
    fun _ _ h => h.isAscii_iff⟩

/-- Capitals are ASCII. -/
theorem values_ascii_capitals :
    pixels? "1.5SVW" = some "1.5SVW" ∧ IsAscii "1.5SVW" ∧
    rootEms? "3" = some "0.75rem" ∧ IsAscii "0.75rem" ∧
    fraction? "50%" = some "0.5" ∧ IsAscii "0.5" ∧
    ratio? "1/2" = some "50%" ∧ IsAscii "50%" ∧
    readColor? .preset "HEX-FfF" = some ⟨"HEX-FfF", none, .literal "#FfF", none⟩ ∧
    IsAscii "#FfF" ∧ IsHexLiteral "#FfF" := by
  have hpixels : pixels? "1.5SVW" = some "1.5SVW" := by decide +kernel
  have hrootEms : rootEms? "3" = some "0.75rem" := by decide +kernel
  have hfraction : fraction? "50%" = some "0.5" := by decide +kernel
  have hratio : ratio? "1/2" = some "50%" := by decide +kernel
  have hread : readColor? .preset "HEX-FfF" =
      some ⟨"HEX-FfF", none, .literal "#FfF", none⟩ := by decide +kernel
  have hnotation : HexNotation "HEX-FfF".toList ['F', 'f', 'F'] :=
    @HexNotation.keyword ['H', 'E', 'X', '-'] _ rfl
  have hdigits : HasAsciiDigits "HEX-FfF" := by decide
  obtain ⟨hlength, -⟩ := values_ascii_iff .preset "1.5SVW" "1.5SVW"
  obtain ⟨-, hroot, -⟩ := values_ascii_iff .preset "3" "0.75rem"
  obtain ⟨-, -, hhundredth, -⟩ := values_ascii_iff .preset "50%" "0.5"
  obtain ⟨-, -, -, hquotient, -⟩ := values_ascii_iff .preset "1/2" "50%"
  obtain ⟨-, -, -, -, hcolor⟩ := values_ascii_iff .preset "HEX-FfF" "#FfF"
  obtain ⟨hascii, hliteral⟩ := hcolor _ _ hnotation hread rfl rfl
  exact ⟨hpixels, (hlength hpixels).2 (by decide), hrootEms, (hroot hrootEms).2 (by decide),
    hfraction, hhundredth hfraction, hratio, hquotient hratio, hread, hascii.2 hdigits,
    hliteral.2 hdigits⟩

/-- A long `s` in a unit, and Arabic digits behind a hash. -/
theorem values_ascii_foreign :
    pixels? "1\u017Fvw" = some "1\u017Fvw" ∧ ¬IsAscii "1\u017Fvw" ∧
    readColor? .preset "#\u0661\u0662\u0663" =
      some ⟨"#\u0661\u0662\u0663", none, .literal "#\u0661\u0662\u0663", none⟩ ∧
    ¬IsAscii "#\u0661\u0662\u0663" ∧ ¬IsHexLiteral "#\u0661\u0662\u0663" := by
  refine ⟨by decide +kernel, by decide, by decide +kernel, by decide, ?_⟩
  rintro ⟨digits, htext, -, hdigits⟩
  obtain rfl : ['\u0661', '\u0662', '\u0663'] = digits := (List.cons.inj htext).2
  exact absurd (hdigits '\u0661' List.mem_cons_self) (by decide)

end BorderCss
