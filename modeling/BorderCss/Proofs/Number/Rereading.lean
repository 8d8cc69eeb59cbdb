import BorderCss.Proofs.Number.Canonical
import BorderCss.Proofs.Number.Places

/-!
# Reading what was written

A finite number is written as a numeral (`toList_fixedText`) without superfluous zeros
(`isCanonical_placesNumeral`), which stands for a multiple of 10^-10 exactly
(`magnitude_placesNumeral`). So what is written is read again, and the number that is read is
written in the same way (`exists_reread`).
-/

namespace BorderCss

open Binary64

variable {number : Binary64}

/-! ## Written numerals -/

theorem length_paddedDigits (count n : Nat) : (paddedDigits count n).length = count := by
  induction count with
  | zero => rfl
  | succ count ih => rw [paddedDigits, List.length_cons, ih]

/-- The last digits of a number are its remainder. -/
theorem digitsValue_paddedDigits (count n : Nat) :
    digitsValue (paddedDigits count n) = n % 10 ^ count := by
  induction count with
  | zero => rw [pow_zero, Nat.mod_one]; rfl
  | succ count ih =>
    have hdigit : n / 10 ^ count % 10 < 10 := Nat.mod_lt _ (by decide)
    have hpadded : paddedDigits (count + 1) n =
        [(n / 10 ^ count % 10).digitChar] ++ paddedDigits count n := rfl
    have hfirst : digitsValue [(n / 10 ^ count % 10).digitChar] = n / 10 ^ count % 10 := by
      rw [digitsValue_singleton, Nat.toNat_digitChar_sub_48_of_lt_ten hdigit]
    rw [hpadded, digitsValue_append, hfirst, ih, length_paddedDigits, Nat.mod_pow_succ]
    ring

/-- The numeral of `n` units of 10^-10 with all of its places. -/
def paddedNumeral (negative : Bool) (n : Nat) : Numeral where
  negative := negative
  whole := Nat.toDigits 10 (n / Nat.pow 10 places)
  fraction := paddedDigits places (n % Nat.pow 10 places)

/-- The numeral of `n` units of 10^-10. -/
def placesNumeral (negative : Bool) (n : Nat) : Numeral :=
  (paddedNumeral negative n).canonical

@[simp] theorem negative_placesNumeral (negative : Bool) (n : Nat) :
    (placesNumeral negative n).negative = negative := rfl

theorem isCanonical_placesNumeral (negative : Bool) (n : Nat) :
    (placesNumeral negative n).IsCanonical :=
  Numeral.isCanonical_canonical fun _ hc => isDigit_of_mem_paddedDigits hc

/-- The numeral stands for the multiple of 10^-10 exactly. -/
theorem magnitude_placesNumeral (negative : Bool) (n : Nat) :
    (placesNumeral negative n).magnitude = placesValue n := by
  have hpow : Nat.pow 10 places = 10 ^ places := rfl
  have hwhole : digitsValue (Nat.toDigits 10 (n / 10 ^ places)) = n / 10 ^ places :=
    Nat.ofDigitChars_ten_toDigits
  rw [placesNumeral, Numeral.magnitude_canonical, Numeral.magnitude_eq, paddedNumeral, placesValue]
  dsimp only
  rw [digitsValue_paddedDigits, length_paddedDigits, hpow, hwhole, Nat.mod_mod, Nat.div_add_mod']

/-- The text of so many places is that of the numeral. -/
theorem text_placesNumeral (negative : Bool) (n : Nat) :
    (placesNumeral negative n).text = if negative then '-' :: placesText n else placesText n := by
  have hwhole : digitsValue (Nat.toDigits 10 (n / Nat.pow 10 places)) = n / Nat.pow 10 places :=
    Nat.ofDigitChars_ten_toDigits
  have hplaces : placesText n = (placesNumeral negative n).whole ++
      Numeral.fractionText (placesNumeral negative n).fraction := by
    rw [placesText, Numeral.fractionText, placesNumeral, paddedNumeral, Numeral.canonical]
    dsimp only
    rw [hwhole]
    split
    · next hnil => rw [if_pos hnil, List.append_nil]
    · next hne => rw [if_neg hne]
  rw [Numeral.text, hplaces]
  cases negative <;> rfl

/-! ## Reading again -/

/-- The numeral that a finite number is written as. Zero has no sign. -/
def writtenNumeral (negative : Bool) (units : Nat) : Numeral :=
  placesNumeral (negative && roundedPlaces units != 0) (roundedPlaces units)

theorem isCanonical_writtenNumeral (negative : Bool) (units : Nat) :
    (writtenNumeral negative units).IsCanonical :=
  isCanonical_placesNumeral _ _

/-- A finite number is written as its numeral. -/
theorem toList_fixedText (negative : Bool) (units : Nat) :
    (fixedText (.finite negative units)).toList = (writtenNumeral negative units).text := by
  rw [fixedText, String.toList_ofList, writtenNumeral, text_placesNumeral]

/-- The text of a finite number depends on what its numeral is. -/
theorem fixedText_congr {s t : Bool} {a b : Nat} (hplaces : roundedPlaces a = roundedPlaces b)
    (hsign : roundedPlaces b ≠ 0 → s = t) : fixedText (.finite s a) = fixedText (.finite t b) := by
  rw [fixedText, fixedText, hplaces]
  by_cases hzero : roundedPlaces b = 0
  · simp only [hzero, bne_self_eq_false, Bool.and_false]
  · rw [hsign hzero]

/-- **Reading again.** A double is written as a numeral that has a finite double for its value, and
that is written in the same way. -/
theorem exists_reread (h : number.IsDouble) :
    ∃ numeral again, (fixedText number).toList = Numeral.text numeral ∧ numeral.IsPlain ∧
      numeral.value? = some again ∧ again.isFinite = true ∧ fixedText again = fixedText number := by
  obtain ⟨negative, a, rfl, ha, hlimit⟩ := h
  have hplain := (isCanonical_writtenNumeral negative a).isPlain
  have hmagnitude : (writtenNumeral negative a).magnitude = placesValue (roundedPlaces a) :=
    magnitude_placesNumeral _ _
  have hten : 0 < 10 ^ places := by positivity
  have hnearest := isNearest_rounded hten (roundedPlaces a)
  rw [Nat.cast_pow, Nat.cast_ofNat, ← placesValue] at hnearest
  obtain ⟨hvalue, hfinite⟩ := (Numeral.value?_eq_some_iff hplain).2
    ⟨_, rfl, hmagnitude ▸ hnearest, lt_unitsLimit_of_isNearest ha hlimit hnearest⟩
  refine ⟨_, _, toList_fixedText negative a, hplain, hvalue, hfinite,
    fixedText_congr (roundedPlaces_of_isNearest ha hnearest) fun hne => ?_⟩
  simp [writtenNumeral, hne]

end BorderCss
