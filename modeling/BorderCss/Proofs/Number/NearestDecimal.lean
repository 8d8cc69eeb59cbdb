import BorderCss.Proofs.Number.Rereading

/-!
# The nearest decimal

A finite number is written as a multiple of 10^-10 that is at most half a unit of the last place
away from its exact value, and as the even one if two are as near (`fixedText_nearest`). The text is
the canonical one of that multiple. It has a sign only where the multiple is below zero, so that
nothing is written as a negative zero (`fixedText_ne_negative_zero`), neither the zero that has a
sign nor a small number that is rounded to zero.
-/

namespace BorderCss

open Binary64

variable {units : Nat}

/-! ## Numbers with a sign -/

/-- The number of this sign and magnitude. -/
def signed (negative : Bool) (magnitude : ℚ) : ℚ :=
  if negative then -magnitude else magnitude

/-- Numbers of one sign are as far from each other as their magnitudes are. -/
theorem abs_signed_sub (negative : Bool) (a b : ℚ) :
    |signed negative a - signed negative b| = |a - b| := by
  cases negative with
  | false => rfl
  | true =>
    have hswap : signed true a - signed true b = b - a := neg_sub_neg a b
    rw [hswap, abs_sub_comm]

/-- The number that the numeral writes. -/
def Numeral.toRat (numeral : Numeral) : ℚ :=
  signed numeral.negative numeral.magnitude

/-! ## Written numerals -/

theorem length_fraction_placesNumeral (negative : Bool) (n : Nat) :
    (placesNumeral negative n).fraction.length ≤ places := by
  obtain ⟨k, hk⟩ :=
    exists_dropTrailingZeros (paddedDigits places (n % Nat.pow 10 places))
  have hlength := congrArg List.length hk
  rw [length_paddedDigits, List.length_append] at hlength
  exact hlength ▸ Nat.le_add_right _ _

/-- The numeral of a finite number stands for the multiple of 10^-10 with the sign of the number. -/
theorem toRat_writtenNumeral (negative : Bool) (units : Nat) :
    (writtenNumeral negative units).toRat =
      signed negative (placesValue (roundedPlaces units)) := by
  rw [Numeral.toRat, writtenNumeral, magnitude_placesNumeral, negative_placesNumeral]
  by_cases hzero : roundedPlaces units = 0
  · -- zero is its own opposite, so the sign that is left out does not count
    have hvalue : placesValue 0 = 0 := by rw [placesValue, Nat.cast_zero, zero_div]
    rw [hzero, hvalue]
    cases negative <;> simp [signed]
  · rw [bne_iff_ne.2 hzero, Bool.and_true]

/-- The numeral of a finite number has a sign only if it is not zero. -/
theorem magnitude_writtenNumeral_ne {negative : Bool}
    (h : (writtenNumeral negative units).negative = true) :
    (writtenNumeral negative units).magnitude ≠ 0 := by
  rw [writtenNumeral, negative_placesNumeral, Bool.and_eq_true, bne_iff_ne] at h
  rw [writtenNumeral, magnitude_placesNumeral, placesValue]
  exact div_ne_zero (Nat.cast_ne_zero.2 h.2) (by positivity)

/-- A finite number is not written as a negative zero. -/
theorem fixedText_ne_negative_zero (negative : Bool) (units : Nat) :
    fixedText (.finite negative units) ≠ "-0" := by
  intro htext
  have hplain := (isCanonical_writtenNumeral negative units).isPlain
  have hscan : Numeral.scan ((writtenNumeral negative units).text ++ []) =
      (writtenNumeral negative units, []) := Numeral.scan_text hplain nofun
  rw [← toList_fixedText, htext] at hscan
  have hnumeral : ⟨true, ['0'], []⟩ = writtenNumeral negative units := congrArg Prod.fst hscan
  have hsign : (writtenNumeral negative units).negative = true := by rw [← hnumeral]
  have hzero : digitsValue ['0'] = 0 := rfl
  refine magnitude_writtenNumeral_ne hsign ?_
  rw [← hnumeral, Numeral.magnitude, List.append_nil, hzero, Nat.cast_zero, zero_div]

/-- The greatest number below zero is rounded to zero and loses its sign. -/
example : fixedText (.finite true 1) = "0" := by decide +kernel

/-! ## The nearest multiple -/

/-- A number halfway between two multiples of 10^-10 is written as the even one. -/
theorem roundedPlaces_even
    (htie : |placesValue (roundedPlaces units) - unitsValue units| = 1 / 2 / 10 ^ places) :
    roundedPlaces units % 2 = 0 := by
  rw [abs_placesValue_sub, div_left_inj' (by positivity)] at htie
  exact roundHalfEven_even unitsPerOne_pos htie

/-- The multiple with a sign is a whole number of units of the last place, of the same parity. -/
theorem exists_signed_placesValue (negative : Bool) (n : Nat) :
    ∃ k : ℤ, signed negative (placesValue n) = k / 10 ^ places ∧ (Even k ↔ n % 2 = 0) := by
  have hparity : Even (n : ℤ) ↔ n % 2 = 0 := by rw [Int.even_coe_nat, Nat.even_iff]
  cases negative with
  | false => exact ⟨n, by rw [Int.cast_natCast]; rfl, hparity⟩
  | true =>
    refine ⟨-n, ?_, even_neg.trans hparity⟩
    rw [Int.cast_neg, Int.cast_natCast, neg_div]
    rfl

/-- **The nearest decimal.** A finite number is written as a numeral without superfluous zeros, with
ten digits behind the point at most, and never as a negative zero. The numeral stands for a multiple
of 10^-10 at a distance of at most half of 10^-10 from the exact value of the number; at a distance
of just that, the multiple is even. -/
theorem fixedText_nearest (negative : Bool) (units : Nat) :
    ∃ numeral : Numeral, (fixedText (.finite negative units)).toList = numeral.text ∧
      numeral.IsCanonical ∧ numeral.fraction.length ≤ 10 ∧
      fixedText (.finite negative units) ≠ "-0" ∧
      ∃ k : ℤ, numeral.toRat = k / 10 ^ 10 ∧
        |numeral.toRat - signed negative (unitsValue units)| ≤ 1 / 2 / 10 ^ 10 ∧
        (|numeral.toRat - signed negative (unitsValue units)| = 1 / 2 / 10 ^ 10 → Even k) := by
  obtain ⟨k, hmultiple, hparity⟩ := exists_signed_placesValue negative (roundedPlaces units)
  rw [← toRat_writtenNumeral] at hmultiple
  have hdistance : |(writtenNumeral negative units).toRat - signed negative (unitsValue units)| =
      |placesValue (roundedPlaces units) - unitsValue units| := by
    rw [toRat_writtenNumeral, abs_signed_sub]
  refine ⟨writtenNumeral negative units, toList_fixedText negative units,
    isCanonical_writtenNumeral negative units, length_fraction_placesNumeral _ _,
    fixedText_ne_negative_zero negative units, k, hmultiple, ?_, ?_⟩
  · rw [hdistance]
    exact abs_roundedPlaces_sub_le units
  · rw [hdistance]
    exact fun htie => hparity.2 (roundedPlaces_even htie)

end BorderCss
