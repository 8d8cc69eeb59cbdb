import BorderCss.Proofs.Color.Alpha
import BorderCss.Proofs.Color.Percentage
import BorderCss.Proofs.Number.Hundredth
import BorderCss.Proofs.Value.Delimiter

/-!
# An explicit alpha

An alpha that is a numeral is kept as its hundredth (`readAlpha?_numeral`) and declared as a hundred
times that, which is the numeral again, without its superfluous zeros (`alphaPercentage_numeral`,
`declare_explicitAlpha`).
-/

namespace BorderCss

variable {theme : Theme} {main text mark : String} {numeral : Numeral} {chars : List Char}

/-! ## The cut -/

/-- A colour part that has no slash and as many opening as closing brackets is cut behind it. -/
theorem Undivided.of_notMem {color : Color} (hslash : '/' ∉ main.toList)
    (hbrackets : main.toList.count '[' = main.toList.count ']')
    (hmain : readColor? theme main = some color) : Undivided main where
  nonempty := by
    rintro rfl
    cases hmain
  shielded start hstart _ := hslash (hstart.subset (List.mem_append_right start List.mem_cons_self))
  level := by rw [nesting, hbrackets, Int.sub_self]

/-! ## The alpha -/

/-- The percent sign, or nothing, that may follow a percentage. -/
def IsPercentMark (mark : String) : Prop :=
  mark = "" ∨ mark = "%"

/-- A percent sign is left out. -/
theorem getD_cutEnd?_percent (hchars : '%' ∉ chars) (hmark : IsPercentMark mark) :
    (cutEnd? ['%'] (chars ++ mark.toList)).getD (chars ++ mark.toList) = chars := by
  obtain rfl | rfl := hmark
  · have hcut : cutEnd? ['%'] (chars ++ "".toList) = none := by
      refine Option.eq_none_iff_forall_ne_some.2 fun before hbefore => hchars ?_
      have hequal := cutEnd?_eq_some_iff.1 hbefore
      rw [String.toList_empty, List.append_nil] at hequal
      rw [hequal]
      exact List.mem_append_right before List.mem_cons_self
    rw [hcut, Option.getD_none, String.toList_empty, List.append_nil]
  · have hcut : cutEnd? ['%'] (chars ++ "%".toList) = some chars := cutEnd?_eq_some_iff.2 rfl
    rw [hcut, Option.getD_some]

/-- The percentage of a numeral is the hundredth of its value. -/
theorem fraction?_numeral {number : Binary64} (h : numeral.IsPlain) (hmark : IsPercentMark mark)
    (hvalue : numeral.value? = some number)
    (hfinite : (number.div (.ofNat 100)).isFinite = true) :
    fraction? (String.ofList numeral.text ++ mark) =
      some (fixedText (number.div (.ofNat 100))) := by
  have hpercent : '%' ∉ numeral.text := fun hmem =>
    absurd (Numeral.isDecimalChar_of_mem_text h hmem) Bool.false_ne_true
  rw [fraction?, String.toList_append, String.toList_ofList]
  dsimp only
  rw [getD_cutEnd?_percent hpercent hmark, Numeral.readNumeral?_text h, hvalue]
  exact if_pos hfinite

/-- What begins like a numeral is neither a bracket escape nor a custom property. -/
theorem readAlpha?_of_isDecimalChar {c : Char} {rest : List Char} (htext : text.toList = c :: rest)
    (hc : isDecimalChar c = true) : readAlpha? text = fraction? text := by
  have hbracket : c ≠ '[' := by
    rintro rfl
    cases hc
  have hproperty : c ≠ '$' := by
    rintro rfl
    cases hc
  rw [readAlpha?, bracket?, readBracket?_of_ne htext hbracket,
    customProperty?_of_ne htext hproperty]
  rfl

/-- The alpha of a numeral is its hundredth, and it is not too large for that. -/
theorem readAlpha?_numeral {number : Binary64} (h : numeral.IsPlain) (hmark : IsPercentMark mark)
    (hvalue : numeral.value? = some number)
    (hfinite : (number.div (.ofNat 100)).isFinite = true) :
    readAlpha? (String.ofList numeral.text ++ mark) =
      some (fixedText (number.div (.ofNat 100))) := by
  cases htext : numeral.text with
  | nil =>
    have hread := Numeral.readNumeral?_text h
    rw [htext, hvalue] at hread
    cases hread
  | cons c rest =>
    have hc : isDecimalChar c = true :=
      Numeral.isDecimalChar_of_mem_text h (htext ▸ List.mem_cons_self)
    have hlist : (String.ofList (c :: rest) ++ mark).toList = c :: (rest ++ mark.toList) := by
      rw [String.toList_append, String.toList_ofList, List.cons_append]
    rw [readAlpha?_of_isDecimalChar hlist hc, ← htext, fraction?_numeral h hmark hvalue hfinite]

/-- An alpha that is a percentage with eight places at most is declared as that percentage. -/
theorem alphaPercentage_numeral (h : numeral.IsPlain) (hsign : numeral.negative = false)
    (hplaces : numeral.fraction.length ≤ 8) (hvalue : numeral.magnitude ≤ 100)
    (hmark : IsPercentMark mark) :
    ∃ alpha, readAlpha? (String.ofList numeral.text ++ mark) = some alpha ∧
      alphaPercentage alpha = String.ofList numeral.canonical.text ++ "%" := by
  obtain ⟨number, again, hread, hfinite, hagain, htext⟩ := exists_hundredth h hsign hplaces hvalue
  refine ⟨_, readAlpha?_numeral h hmark hread hfinite, ?_⟩
  rw [alphaPercentage, hagain, ← htext, String.ofList_toList]

/-! ## The whole -/

/-- **Explicit alphas.** A colour with a percentage behind a slash, of a hundred at most and with
eight places at most, is the colour mixed by that very percentage, written without superfluous
zeros, on every edge. -/
theorem declare_explicitAlpha (theme : Theme) (main mark base suffix : String) (color : Color)
    (numeral : Numeral) (usage : Usage) (hslash : '/' ∉ main.toList)
    (hbrackets : main.toList.count '[' = main.toList.count ']')
    (hmain : readColor? theme main = some color) (hspecial : color.isSpecial = false)
    (hplain : numeral.IsPlain) (hsign : numeral.negative = false)
    (hplaces : numeral.fraction.length ≤ 8) (hvalue : numeral.magnitude ≤ 100)
    (hmark : IsPercentMark mark) :
    ∃ colored styling after,
      readColor? theme (main ++ "/" ++ (String.ofList numeral.text ++ mark)) = some colored ∧
      (colored.declare base suffix).runFrom usage = (some styling, after) ∧
      styling.block.get? (base ++ suffix ++ "-color") =
        some ("color-mix(in oklch, " ++ color.css ++ " " ++
          (String.ofList numeral.canonical.text ++ "%") ++ ", transparent)") := by
  obtain ⟨alpha, hread, hpercentage⟩ :=
    alphaPercentage_numeral hplain hsign hplaces hvalue hmark
  have hne : String.ofList numeral.text ++ mark ≠ "" := by
    intro hnil
    rw [hnil] at hread
    cases hread
  have hcolored : readColor? theme (main ++ "/" ++ (String.ofList numeral.text ++ mark)) =
      some (color.withAlpha alpha) := by
    rw [(Undivided.of_notMem hslash hbrackets hmain).readColor?_slash hne, hread, hmain]
    rfl
  have halpha : (color.withAlpha alpha).alpha = some alpha := by
    rw [Color.withAlpha, hspecial]
    rfl
  refine ⟨_, _, _, hcolored, Color.declare_settles _ base suffix usage, ?_⟩
  rw [← hpercentage]
  exact Color.get?_styling hspecial halpha

/-- A zero in front and a zero behind are not written. -/
theorem declare_explicitAlpha_zeros :
    ∃ colored styling after,
      readColor? .preset "red-500/029.50%" = some colored ∧
      (colored.declare "border" "-left").runFrom .empty = (some styling, after) ∧
      styling.block.get? "border-left-color" =
        some "color-mix(in oklch, var(--colors-red-500) 29.5%, transparent)" := by
  have hmain : readColor? .preset "red-500" =
      some ⟨"red", some "500", .theme ["red", "500"] "#ef4444", none⟩ := by decide +kernel
  have hplain : (⟨false, ['0', '2', '9'], ['5', '0']⟩ : Numeral).IsPlain := ⟨by simp, by simp⟩
  have hdigits : digitsValue ['0', '2', '9', '5', '0'] = 2950 := rfl
  have hvalue : (⟨false, ['0', '2', '9'], ['5', '0']⟩ : Numeral).magnitude ≤ 100 := by
    have hmagnitude : (⟨false, ['0', '2', '9'], ['5', '0']⟩ : Numeral).magnitude =
        (digitsValue ['0', '2', '9', '5', '0'] : ℚ) / 10 ^ 2 := rfl
    rw [hmagnitude, hdigits]
    norm_num
  have hcss : Color.css ⟨"red", some "500", .theme ["red", "500"] "#ef4444", none⟩ =
      "var(--colors-red-500)" := by decide
  have htext : "red-500" ++ "/" ++ (String.ofList ['0', '2', '9', '.', '5', '0'] ++ "%") =
      "red-500/029.50%" := by decide
  have hproperty : "border" ++ "-left" ++ "-color" = "border-left-color" := by decide
  have hpercentage : String.ofList (Numeral.canonical ⟨false, ['0', '2', '9'], ['5', '0']⟩).text ++
      "%" = "29.5%" := by decide
  have hmix : "color-mix(in oklch, " ++ "var(--colors-red-500)" ++ " " ++ "29.5%" ++
      ", transparent)" = "color-mix(in oklch, var(--colors-red-500) 29.5%, transparent)" := by
    decide
  have hdeclared := declare_explicitAlpha .preset "red-500" "%" "border" "-left" _
    ⟨false, ['0', '2', '9'], ['5', '0']⟩ .empty (by decide) (by decide) hmain rfl hplain rfl
    (by decide) hvalue (.inr rfl)
  rw [hcss, hproperty, hpercentage, hmix] at hdeclared
  rwa [← htext]

end BorderCss
