import BorderCss.Proofs.Number.Overflow
import BorderCss.Proofs.Value.Delimiter
import BorderCss.Value.Conversion

/-!
# Decimals

A number is written as a decimal, digits with an optional sign and an optional fraction, just if it
is finite (`isDecimal_fixedText_iff`). A quantity is read only if it is finite, so what is made of
it is a decimal with a unit (`pixels?_dimension`, `rootEms?_dimension`); and a fraction, which is
checked right before it is written, is a decimal (`fraction?_decimal`). A ratio is checked before
it is made a percentage, so its percentage is a decimal only if the hundredfold is finite as well
(`ratio?_percentage_iff`).
-/

namespace BorderCss

/-! ## Decimals -/

/-- At least one digit, and nothing else. -/
structure IsDigits (text : List Char) : Prop where
  nonempty : text ≠ []
  isDigit : ∀ c ∈ text, c.isDigit = true

/-- Digits and, if there is one, a fraction: a point and more digits. -/
inductive IsMagnitude : List Char → Prop
  | whole {whole : List Char} (hwhole : IsDigits whole) : IsMagnitude whole
  | fraction {whole fraction : List Char} (hwhole : IsDigits whole)
    (hfraction : IsDigits fraction) : IsMagnitude (whole ++ '.' :: fraction)

/-- A magnitude with a minus sign or without a sign. -/
inductive IsDecimal : List Char → Prop
  | positive {chars : List Char} (h : IsMagnitude chars) : IsDecimal chars
  | negative {chars : List Char} (h : IsMagnitude chars) : IsDecimal ('-' :: chars)

variable {c : Char} {chars : List Char} {text css : String} {number : Binary64}

theorem IsDigits.of_all (hne : chars ≠ []) (h : chars.all Char.isDigit = true) : IsDigits chars :=
  ⟨hne, List.all_eq_true.1 h⟩

theorem IsDigits.isDecimalChar (h : IsDigits chars) (hc : c ∈ chars) :
    isDecimalChar c = true := by
  rw [BorderCss.isDecimalChar, h.isDigit c hc, Bool.true_or, Bool.true_or]

theorem IsMagnitude.isDecimalChar (h : IsMagnitude chars) (hc : c ∈ chars) :
    isDecimalChar c = true := by
  cases h with
  | whole hwhole => exact hwhole.isDecimalChar hc
  | fraction hwhole hfraction =>
    obtain hc | hc := List.mem_append.1 hc
    · exact hwhole.isDecimalChar hc
    · obtain rfl | hc := List.mem_cons.1 hc
      · rfl
      · exact hfraction.isDecimalChar hc

/-- A decimal has no letters. -/
theorem IsDecimal.isDecimalChar (h : IsDecimal chars) (hc : c ∈ chars) :
    isDecimalChar c = true := by
  cases h with
  | positive h => exact h.isDecimalChar hc
  | negative h =>
    obtain rfl | hc := List.mem_cons.1 hc
    · rfl
    · exact h.isDecimalChar hc

theorem not_isDecimal_of_mem (hc : c ∈ chars) (hletter : isDecimalChar c = false) :
    ¬IsDecimal chars := by
  intro h
  rw [h.isDecimalChar hc] at hletter
  cases hletter

/-! ## Written numbers -/

theorem isDigits_toDigits (n : Nat) : IsDigits (Nat.toDigits 10 n) where
  nonempty := Nat.toDigits_ne_nil
  isDigit _ := Nat.isDigit_of_mem_toDigits (by decide) (by decide)

theorem isMagnitude_placesText (n : Nat) : IsMagnitude (placesText n) := by
  have hwhole := isDigits_toDigits (n / Nat.pow 10 places)
  unfold placesText
  dsimp only
  split
  · exact .whole hwhole
  · next hne =>
    refine .fraction hwhole ⟨hne, fun c hc => ?_⟩
    exact isDigit_of_mem_paddedDigits (dropTrailingZeros_subset _ hc)

/-- **Decimals.** The text of a number is a decimal just if the number is finite; infinities and
non-numbers are words. -/
theorem isDecimal_fixedText_iff : IsDecimal (fixedText number).toList ↔ number.isFinite = true := by
  cases number with
  | finite negative units =>
    refine iff_of_true ?_ rfl
    rw [fixedText, String.toList_ofList]
    split
    · exact .negative (isMagnitude_placesText _)
    · exact .positive (isMagnitude_placesText _)
  | infinite negative =>
    refine iff_of_false (not_isDecimal_of_mem (c := 'n') ?_ rfl) Bool.false_ne_true
    cases negative <;> decide
  | nan =>
    exact iff_of_false (not_isDecimal_of_mem (c := 'N') (by decide) rfl) Bool.false_ne_true

/-! ## Conversions -/

/-- The number of a quantity is a finite double. -/
theorem readQuantity?_finite {quantity : Quantity} (h : readQuantity? text = some quantity) :
    ∃ negative units, quantity.number = .finite negative units ∧ units < Binary64.unitsLimit := by
  obtain ⟨hvalue, hfinite, -⟩ := readQuantity?_spec h
  cases hnumber : quantity.number with
  | finite negative units =>
    rw [Numeral.value?, hnumber] at hvalue
    split at hvalue
    · cases hvalue
    · exact ⟨negative, units, rfl, Binary64.units_lt_of_ofDecimal (Option.some.inj hvalue)⟩
  | infinite negative =>
    rw [hnumber] at hfinite
    cases hfinite
  | nan =>
    rw [hnumber] at hfinite
    cases hfinite

/-- The text is a decimal with a unit behind it. -/
def IsDimension (text : String) : Prop :=
  ∃ number unit : String, text = number ++ unit ∧ IsDecimal number.toList ∧
    isUnit unit.toList = true

theorem isDimension_fixedText {unit : String} (hnumber : number.isFinite = true)
    (hunit : isUnit unit.toList = true) : IsDimension (fixedText number ++ unit) :=
  ⟨fixedText number, unit, rfl, isDecimal_fixedText_iff.2 hnumber, hunit⟩

theorem pixels?_dimension (h : pixels? text = some css) : IsDimension css := by
  obtain ⟨quantity, hquantity, rfl⟩ := Option.map_eq_some_iff.1 h
  obtain ⟨-, hfinite, hunit, -⟩ := readQuantity?_spec hquantity
  refine isDimension_fixedText hfinite ?_
  cases hread : quantity.unit with
  | none => decide +kernel
  | some unit => exact hunit unit hread

theorem rootEms?_dimension (h : rootEms? text = some css) : IsDimension css := by
  obtain ⟨quantity, hquantity, rfl⟩ := Option.map_eq_some_iff.1 h
  obtain ⟨-, hfinite, hunit, -⟩ := readQuantity?_spec hquantity
  split
  · next unit hread => exact isDimension_fixedText hfinite (hunit unit hread)
  · obtain ⟨negative, units, hnumber, hlimit⟩ := readQuantity?_finite hquantity
    rw [hnumber]
    exact isDimension_fixedText (Binary64.isFinite_div_four hlimit) (by decide +kernel)

theorem fraction?_decimal (h : fraction? text = some css) : IsDecimal css.toList := by
  obtain ⟨number, -, h⟩ := Option.bind_eq_some_iff.1 h
  dsimp only at h
  split at h
  · next hfinite =>
    obtain rfl := Option.some.inj h
    exact isDecimal_fixedText_iff.2 hfinite
  · cases h

/-- The quotient of the two numbers around the first slash of a text. -/
def quotient? (text : String) : Option Binary64 := do
  let (left, right) ← cutFirst? '/' text.toList
  return (← readNumber? left).div (← readNumber? right)

/-- The text is a number as a percentage. -/
def IsPercentage (text : String) : Prop :=
  ∃ number : String, text = number ++ "%" ∧ IsDecimal number.toList

theorem isPercentage_fixedText_iff : IsPercentage (fixedText number ++ "%") ↔
    number.isFinite = true := by
  rw [← isDecimal_fixedText_iff]
  constructor
  · rintro ⟨decimal, heq, hdecimal⟩
    rwa [(String.append_left_inj "%").1 heq]
  · exact fun h => ⟨_, rfl, h⟩

/-- A percentage ends with its sign. -/
theorem getLast?_percent (text : String) : (text ++ "%").toList.getLast? = some '%' := by
  rw [String.toList_append]
  exact List.getLast?_concat

/-- A quotient is written as a percentage or, if it is zero, as zero, unless its hundredfold
overflows. -/
theorem ratio?_percentage_iff (h : ratio? text = some css) : css = "0" ∨ IsPercentage css ↔
    ∀ negative units, quotient? text = some (.finite negative units) →
      100 * units < Binary64.overflowUnits := by
  unfold ratio? at h
  split at h
  case isTrue hfull =>
    obtain rfl := Option.some.inj h
    have hwhole : IsDecimal "100".toList := .positive (.whole (.of_all nofun rfl))
    have hnone : quotient? "full" = none := rfl
    refine iff_of_true (.inr ⟨"100", rfl, hwhole⟩) fun negative units hquotient => ?_
    rw [hfull, hnone] at hquotient
    cases hquotient
  case isFalse =>
    obtain ⟨⟨left, right⟩, hcut, h⟩ := Option.bind_eq_some_iff.1 h
    obtain ⟨dividend, hleft, h⟩ := Option.bind_eq_some_iff.1 h
    obtain ⟨divisor, hright, h⟩ := Option.bind_eq_some_iff.1 h
    have hquotient : quotient? text = some (dividend.div divisor) := by
      simp only [quotient?, hcut, hleft, hright, Option.bind_eq_bind, Option.bind_some,
        Option.pure_def]
    rw [hquotient]
    simp only [Option.some.injEq]
    dsimp only at h
    generalize dividend.div divisor = ratio at h
    split at h
    · cases h
    · next hfinite =>
      split at h
      case isTrue hzero =>
        obtain rfl := Option.some.inj h
        refine iff_of_true (.inl rfl) fun negative units hratio => ?_
        rw [hratio, Binary64.isZero, beq_iff_eq] at hzero
        rw [hzero]
        exact Binary64.overflowUnits_pos
      case isFalse =>
        obtain rfl := Option.some.inj h
        have hne : fixedText (ratio.mul (.ofNat 100)) ++ "%" ≠ "0" :=
          ne_of_apply_ne (·.toList.getLast?) (by rw [getLast?_percent]; decide)
        rw [or_iff_right hne, isPercentage_fixedText_iff, Binary64.isFinite_mul_hundred_iff]
        constructor
        · rintro ⟨s, units, rfl, hunits⟩ negative others heq
          obtain ⟨-, rfl⟩ := Binary64.finite.inj heq
          exact hunits
        · intro hunits
          cases ratio with
          | finite negative units => exact ⟨negative, units, rfl, hunits negative units rfl⟩
          | infinite negative => exact absurd rfl hfinite
          | nan => exact absurd rfl hfinite

end BorderCss
