import BorderCss.Color.Reading
import BorderCss.Proofs.Color.Edges
import BorderCss.Proofs.Css.Lookup
import BorderCss.Proofs.Number.Decimal
import BorderCss.Theme.Preset

/-!
# The percentage of a colour

The alpha of a colour becomes its percentage: a number is multiplied, and any other text is left to
CSS (`alphaPercentage`). A number that is infinite or not a number, or that the multiplication makes
infinite, is written as a word (`alphaPercentage_iff`), which is no CSS value.
-/

namespace BorderCss

variable {alpha base suffix : String} {color : Color}

/-- An alpha is written as a decimal percentage or left to CSS, unless it is read as a number whose
hundredfold is not finite. -/
theorem alphaPercentage_iff (alpha : String) :
    IsPercentage (alphaPercentage alpha) ∨ alphaPercentage alpha = "calc(" ++ alpha ++ " * 100%)" ↔
      ∀ number, readNumber? alpha.toList = some number →
        ∃ negative units, number = .finite negative units ∧
          100 * units < Binary64.overflowUnits := by
  unfold alphaPercentage
  cases readNumber? alpha.toList with
  | none => exact iff_of_true (.inr rfl) nofun
  | some number =>
    -- what is left to CSS ends in a parenthesis
    have hne : fixedText (number.mul (.ofNat 100)) ++ "%" ≠ "calc(" ++ alpha ++ " * 100%)" := by
      refine ne_of_apply_ne (·.toList.getLast?) ?_
      rw [getLast?_percent, getLast?_toList_append _ (by decide)]
      decide
    dsimp only
    rw [or_iff_left hne, isPercentage_fixedText_iff, Binary64.isFinite_mul_hundred_iff]
    simp only [Option.some.injEq, forall_eq']

/-- A colour with an alpha is declared as its mix by the percentage of the alpha. -/
theorem Color.get?_styling (hspecial : color.isSpecial = false)
    (halpha : color.alpha = some alpha) :
    (color.styling base suffix).block.get? (colorProperty base suffix) =
      some (mixed color.css (alphaPercentage alpha)) := by
  have hpercentage : color.percentage base suffix = alphaPercentage alpha := by
    rw [percentage, halpha]
  rw [Block.get?_eq_some_iff, ← Styling.declarations, declarations_styling, mem_edge hspecial,
    hpercentage]
  exact .inl rfl

/-- **Written numbers.** Pixels, root ems and fractions are written as decimals. A ratio is written
as one just if the hundredfold of the quotient, which itself is finite, does not overflow. And a
colour with an alpha, wherever it was read and on whatever edge it is declared, is mixed by a
decimal percentage or by one that is left to CSS just if the alpha is not read as a number, or as
one whose hundredfold is finite. -/
theorem written_decimal_iff (text css : String) (color : Color) (alpha base suffix : String)
    (usage : Usage) :
    (pixels? text = some css → IsDimension css) ∧
    (rootEms? text = some css → IsDimension css) ∧
    (fraction? text = some css → IsDecimal css.toList) ∧
    (ratio? text = some css →
      (css = "0" ∨ IsPercentage css ↔
        ∀ negative units, quotient? text = some (.finite negative units) →
          100 * units < Binary64.overflowUnits)) ∧
    (color.isSpecial = false → color.alpha = some alpha →
      ∃ styling after percentage,
        (color.declare base suffix).runFrom usage = (some styling, after) ∧
        styling.block.get? (base ++ suffix ++ "-color") =
          some ("color-mix(in oklch, " ++ color.css ++ " " ++ percentage ++ ", transparent)") ∧
        (IsPercentage percentage ∨ percentage = "calc(" ++ alpha ++ " * 100%)" ↔
          ∀ number, readNumber? alpha.toList = some number →
            ∃ negative units, number = .finite negative units ∧
              100 * units < Binary64.overflowUnits)) := by
  refine ⟨pixels?_dimension, rootEms?_dimension, fraction?_decimal, ratio?_percentage_iff, ?_⟩
  intro hspecial halpha
  exact ⟨_, _, alphaPercentage alpha, color.declare_settles base suffix usage,
    Color.get?_styling hspecial halpha, alphaPercentage_iff alpha⟩

/-- An ordinary number of each kind. -/
theorem written_decimal_half :
    pixels? "-0.5" = some "-0.5px" ∧ IsDimension "-0.5px" ∧
    rootEms? "2" = some "0.5rem" ∧ IsDimension "0.5rem" ∧
    fraction? "50%" = some "0.5" ∧ IsDecimal "0.5".toList ∧
    ratio? "1/2" = some "50%" ∧ ("50%" = "0" ∨ IsPercentage "50%") ∧
    readColor? .preset "#fff/50" = some ⟨"#fff", none, .literal "#fff", some "0.5"⟩ ∧
    ∃ styling after percentage,
      (Color.declare ⟨"#fff", none, .literal "#fff", some "0.5"⟩ "border" "-left").runFrom .empty =
        (some styling, after) ∧
      styling.block.get? "border-left-color" =
        some ("color-mix(in oklch, #fff " ++ percentage ++ ", transparent)") ∧
      (IsPercentage percentage ∨ percentage = "calc(0.5 * 100%)") := by
  have hpx : pixels? "-0.5" = some "-0.5px" := by decide +kernel
  have hrem : rootEms? "2" = some "0.5rem" := by decide +kernel
  have hpercent : fraction? "50%" = some "0.5" := by decide +kernel
  have hhalf : ratio? "1/2" = some "50%" := by decide +kernel
  have hread : readColor? .preset "#fff/50" =
      some ⟨"#fff", none, .literal "#fff", some "0.5"⟩ := by decide +kernel
  have hquotient : quotient? "1/2" = some (.finite false (Nat.pow 2 1073)) := by decide +kernel
  have hnumber : readNumber? "0.5".toList = some (.finite false (Nat.pow 2 1073)) := by
    decide +kernel
  have hlimit : 100 * Nat.pow 2 1073 < Binary64.overflowUnits := by decide +kernel
  have hwritten := fun text css => written_decimal_iff text css
    ⟨"#fff", none, .literal "#fff", some "0.5"⟩ "0.5" "border" "-left" .empty
  obtain ⟨hpixels, -, -, -, hcolor⟩ := hwritten "-0.5" "-0.5px"
  obtain ⟨-, hrootEms, -⟩ := hwritten "2" "0.5rem"
  obtain ⟨-, -, hfraction, -⟩ := hwritten "50%" "0.5"
  obtain ⟨-, -, -, hratio, -⟩ := hwritten "1/2" "50%"
  refine ⟨hpx, hpixels hpx, hrem, hrootEms hrem, hpercent, hfraction hpercent, hhalf,
    (hratio hhalf).2 ?_, hread, ?_⟩
  · intro negative units hunits
    rw [hquotient] at hunits
    obtain ⟨-, rfl⟩ := Binary64.finite.inj (Option.some.inj hunits)
    exact hlimit
  · obtain ⟨styling, after, percentage, hdeclared, hmix, hiff⟩ := hcolor rfl rfl
    refine ⟨styling, after, percentage, hdeclared, hmix, hiff.2 fun number hnumber' => ?_⟩
    rw [hnumber] at hnumber'
    obtain rfl := Option.some.inj hnumber'
    exact ⟨false, _, rfl, hlimit⟩

/-- A finite quotient whose hundredfold overflows, and an alpha that overflows as it is read. -/
theorem written_decimal_overflow :
    ratio? "1e307/1" = some "inf%" ∧ "inf%" ≠ "0" ∧ ¬IsPercentage "inf%" ∧
    readColor? .preset "#fff/[1e400]" = some ⟨"#fff", none, .literal "#fff", some "1e400"⟩ ∧
    (Color.styling ⟨"#fff", none, .literal "#fff", some "1e400"⟩ "border" "").block.get?
        "border-color" = some "color-mix(in oklch, #fff inf%, transparent)" ∧
    "inf%" ≠ "calc(1e400 * 100%)" := by
  refine ⟨by decide +kernel, by decide, ?_, by decide +kernel, by decide +kernel, by decide⟩
  intro h
  have hword : "inf%" = fixedText (.infinite false) ++ "%" := rfl
  rw [hword, isPercentage_fixedText_iff] at h
  cases h

end BorderCss
