import BorderCss.Proofs.Number.Rereading

/-!
# A hundredth and back

A percentage is divided by a hundred and written; what is written is read, multiplied by a hundred
and written again. Numbers below 128 are rounded with an error of 2^-47 at most (`isNear_ofRatio`),
so the four roundings add up to far less than half a unit of the tenth place. Up to the eighth place
a numeral therefore comes back as it was, without its superfluous zeros (`exists_hundredth`), though
neither its hundredth nor the number that is multiplied need be exact.
-/

namespace BorderCss

variable {number : Binary64} {value : ℚ} {count num den units : Nat} {numeral : Numeral}

namespace Binary64

/-- The number is positive or zero, and as many errors of 2^-47 away from the value at most. -/
def IsNear (number : Binary64) (value : ℚ) (count : Nat) : Prop :=
  ∃ units, number = .finite false units ∧ |unitsValue units - value| ≤ count / 2 ^ 47

theorem IsNear.isFinite (h : number.IsNear value count) : number.isFinite = true := by
  obtain ⟨units, rfl, -⟩ := h
  rfl

/-- A ratio below 128 is rounded with one error. -/
theorem isNear_ofRatio (hden : 0 < den) (h : num < 128 * den) :
    (ofRatio false num den).IsNear (num / den) 1 := by
  have hlimit : 128 * unitsPerOne ≤ overflowUnits := by decide +kernel
  have hfinite : (ofRatio false num den).isFinite = true := by
    rw [isFinite_ofRatio_iff hden]
    calc num * unitsPerOne < 128 * den * unitsPerOne :=
          Nat.mul_lt_mul_of_pos_right h unitsPerOne_pos
      _ = 128 * unitsPerOne * den := Nat.mul_right_comm _ _ _
      _ ≤ overflowUnits * den := Nat.mul_le_mul_right den hlimit
  have herror := abs_rounded_sub_le (m := 7) hden (by omega)
  rw [ofRatio_eq] at hfinite ⊢
  split at hfinite
  · next hlt =>
    rw [if_pos hlt]
    refine ⟨_, rfl, herror.trans_eq ?_⟩
    norm_num
  · cases hfinite

/-- Units are compared like their values. -/
theorem units_lt_iff (bound : Nat) : units < bound * unitsPerOne ↔ unitsValue units < bound := by
  rw [unitsValue, div_lt_iff₀ unitsPerOne_cast_pos]
  norm_cast

/-- The hundredth has a hundredth of the errors, and one of its own. -/
theorem IsNear.div_hundred (h : number.IsNear value count) (hvalue : value ≤ 100)
    (hcount : count ≤ 1000) : (number.div (.ofNat 100)).IsNear (value / 100) (count + 1) := by
  obtain ⟨units, rfl, herror⟩ := h
  have hhundred : 0 < 100 * unitsPerOne := Nat.mul_pos (by decide) unitsPerOne_pos
  have hcount' : (count : ℚ) ≤ 1000 := by exact_mod_cast hcount
  have hlarge : (count : ℚ) / 2 ^ 47 ≤ 1 := by
    rw [div_le_one (by positivity)]
    exact hcount'.trans (by norm_num)
  have hbound : units < 128 * (100 * unitsPerOne) := by
    have hlt : unitsValue units < (12800 : Nat) := by
      rw [abs_le] at herror
      push_cast
      linarith
    rw [← units_lt_iff] at hlt
    omega
  have hquotient : (units : ℚ) / (100 * unitsPerOne : Nat) = unitsValue units / 100 := by
    rw [unitsValue, Nat.cast_mul, div_div, mul_comm, Nat.cast_ofNat]
  obtain ⟨rounded, hrounded, hown⟩ := isNear_ofRatio hhundred hbound
  refine ⟨rounded, ?_, ?_⟩
  · rw [ofNat_hundred, div, if_neg hhundred.ne']
    exact hrounded
  · rw [hquotient] at hown
    have hscaled : |unitsValue units / 100 - value / 100| ≤ count / 2 ^ 47 := by
      rw [← sub_div, abs_div, abs_of_pos (by norm_num : (0 : ℚ) < 100), div_le_iff₀ (by norm_num)]
      refine herror.trans ?_
      have hnonneg : (0 : ℚ) ≤ count / 2 ^ 47 := div_nonneg count.cast_nonneg (by norm_num)
      linarith
    calc |unitsValue rounded - value / 100|
        ≤ |unitsValue rounded - unitsValue units / 100| +
          |unitsValue units / 100 - value / 100| := abs_sub_le _ _ _
      _ ≤ (1 : Nat) / 2 ^ 47 + count / 2 ^ 47 := add_le_add hown hscaled
      _ = (count + 1 : Nat) / 2 ^ 47 := by push_cast; ring

/-- The hundredfold has a hundred times the errors, and one of its own. -/
theorem IsNear.mul_hundred (h : number.IsNear value count) (hvalue : value ≤ 1)
    (hcount : count ≤ 1000) : (number.mul (.ofNat 100)).IsNear (value * 100) (count * 100 + 1) := by
  obtain ⟨units, rfl, herror⟩ := h
  have hone : 0 < unitsPerOne * unitsPerOne := Nat.mul_pos unitsPerOne_pos unitsPerOne_pos
  have hcount' : (count : ℚ) ≤ 1000 := by exact_mod_cast hcount
  have hsmall : (count : ℚ) / 2 ^ 47 ≤ 1 / 5 := by
    rw [div_le_iff₀ (by positivity)]
    exact hcount'.trans (by norm_num)
  have hbound : units * (100 * unitsPerOne) < 128 * (unitsPerOne * unitsPerOne) := by
    have hlt : unitsValue (units * 100) < (128 : Nat) := by
      rw [abs_le] at herror
      rw [unitsValue, Nat.cast_mul, mul_div_right_comm, ← unitsValue]
      push_cast
      linarith
    rw [← units_lt_iff] at hlt
    calc units * (100 * unitsPerOne) = units * 100 * unitsPerOne := (Nat.mul_assoc _ _ _).symm
      _ < 128 * unitsPerOne * unitsPerOne := Nat.mul_lt_mul_of_pos_right hlt unitsPerOne_pos
      _ = 128 * (unitsPerOne * unitsPerOne) := Nat.mul_assoc _ _ _
  have hproduct : ((units * (100 * unitsPerOne) : Nat) : ℚ) / (unitsPerOne * unitsPerOne : Nat) =
      unitsValue units * 100 := by
    have hpos := unitsPerOne_cast_pos
    rw [unitsValue]
    push_cast
    generalize (unitsPerOne : ℚ) = one at hpos ⊢
    field_simp
  obtain ⟨rounded, hrounded, hown⟩ := isNear_ofRatio hone hbound
  refine ⟨rounded, ?_, ?_⟩
  · rw [ofNat_hundred, mul]
    exact hrounded
  · rw [hproduct] at hown
    have hscaled : |unitsValue units * 100 - value * 100| ≤ count / 2 ^ 47 * 100 := by
      rw [← sub_mul, abs_mul, abs_of_pos (by norm_num : (0 : ℚ) < 100)]
      exact mul_le_mul_of_nonneg_right herror (by norm_num)
    calc |unitsValue rounded - value * 100|
        ≤ |unitsValue rounded - unitsValue units * 100| +
          |unitsValue units * 100 - value * 100| := abs_sub_le _ _ _
      _ ≤ (1 : Nat) / 2 ^ 47 + count / 2 ^ 47 * 100 := add_le_add hown hscaled
      _ = (count * 100 + 1 : Nat) / 2 ^ 47 := by push_cast; ring

/-- A number near a multiple of 10^-10 is written as the multiple. -/
theorem IsNear.toList_fixedText {n : Nat} (h : number.IsNear (placesValue n) count)
    (hcount : count ≤ 1000) : (fixedText number).toList = (placesNumeral false n).text := by
  obtain ⟨units, rfl, herror⟩ := h
  have hcount' : (count : ℚ) ≤ 1000 := by exact_mod_cast hcount
  have hplaces : roundedPlaces units = n := by
    refine roundedPlaces_eq ?_
    rw [abs_sub_comm]
    calc |unitsValue units - placesValue n| ≤ count / 2 ^ 47 := herror
      _ ≤ 1000 / 2 ^ 47 := div_le_div_of_nonneg_right hcount' (by positivity)
      _ < 1 / 2 / 10 ^ places := by norm_num [places]
  rw [BorderCss.toList_fixedText, writtenNumeral, hplaces, Bool.false_and]

end Binary64

/-- A numeral is read with one error. -/
theorem Numeral.exists_isNear (h : numeral.IsPlain) (hsign : numeral.negative = false)
    (hvalue : numeral.magnitude < 128) :
    ∃ number, numeral.value? = some number ∧ number.IsNear numeral.magnitude 1 := by
  have hten : 0 < 10 ^ numeral.fraction.length := Nat.pow_pos (by decide)
  have hbound : digitsValue (numeral.whole ++ numeral.fraction) <
      128 * 10 ^ numeral.fraction.length := by
    rw [magnitude, div_lt_iff₀ (by positivity)] at hvalue
    exact_mod_cast hvalue
  have hnear := Binary64.isNear_ofRatio hten hbound
  rw [Nat.cast_pow, Nat.cast_ofNat] at hnear
  exact ⟨_, hsign ▸ value?_eq h, hnear⟩

/-- A numeral with eight places stands for a hundred times a multiple of 10^-10. -/
theorem Numeral.exists_hundredfold (h : numeral.fraction.length ≤ 8) :
    ∃ n, numeral.magnitude = placesValue n * 100 ∧ numeral.magnitude = placesValue (n * 100) := by
  refine ⟨digitsValue (numeral.whole ++ numeral.fraction) * 10 ^ (8 - numeral.fraction.length),
    ?_, ?_⟩
  all_goals
    have hten : (10 : ℚ) ^ places =
        10 ^ (8 - numeral.fraction.length) * 10 ^ numeral.fraction.length * 100 := by
      rw [← pow_add, Nat.sub_add_cancel h]
      norm_num [places]
    rw [magnitude, placesValue, hten]
    push_cast
    field_simp

/-- **A hundredth and back.** Up to the eighth place, the hundredth of a percentage is written so
that a hundred times the number that it is read as is written as the percentage was. -/
theorem exists_hundredth (h : numeral.IsPlain) (hsign : numeral.negative = false)
    (hplaces : numeral.fraction.length ≤ 8) (hvalue : numeral.magnitude ≤ 100) :
    ∃ number again, numeral.value? = some number ∧
      (number.div (.ofNat 100)).isFinite = true ∧
      readNumber? (fixedText (number.div (.ofNat 100))).toList = some again ∧
      (fixedText (again.mul (.ofNat 100))).toList = numeral.canonical.text := by
  obtain ⟨n, hhundred, hmultiple⟩ := Numeral.exists_hundredfold hplaces
  obtain ⟨number, hread, hnear⟩ := Numeral.exists_isNear h hsign (by linarith)
  have hdiv := hnear.div_hundred hvalue (by decide)
  rw [hhundred, mul_div_cancel_right₀ _ (by norm_num)] at hdiv
  have hcanonical := isCanonical_placesNumeral false n
  have hmagnitude := magnitude_placesNumeral false n
  have hsmall : placesValue n ≤ 1 := by linarith
  obtain ⟨again, hagain, hnearAgain⟩ :=
    Numeral.exists_isNear hcanonical.isPlain rfl (by rw [hmagnitude]; linarith)
  rw [hmagnitude] at hnearAgain
  have hmul := hnearAgain.mul_hundred hsmall (by decide)
  rw [← hhundred, hmultiple] at hmul
  refine ⟨number, again, hread, hdiv.isFinite, ?_, ?_⟩
  · rw [hdiv.toList_fixedText (by decide), Numeral.readNumber?_text hcanonical.isPlain, hagain]
  · have hfraction : ∀ c ∈ numeral.fraction, c.isDigit = true :=
      fun c hc => h.isDigit c (List.mem_append_right _ hc)
    rw [hmul.toList_fixedText (by decide),
      (isCanonical_placesNumeral false (n * 100)).eq (Numeral.isCanonical_canonical hfraction)
        hsign.symm]
    rw [magnitude_placesNumeral, Numeral.magnitude_canonical, hmultiple]

end BorderCss
