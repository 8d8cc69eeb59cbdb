import BorderCss.Number.Numeral
import BorderCss.Proofs.Number.Decimal
import BorderCss.Proofs.Number.Nearest
import BorderCss.Proofs.Text.Classes
import BorderCss.Proofs.Value.Word

/-!
# Numerals

The text of a numeral is scanned back to the numeral, wherever no digit, point or sign follows it
(`Numeral.scan_text`), and every text begins with the text of the numeral that is scanned off it
(`Numeral.text_scan`). A numeral with a digit has a double for its value, its magnitude correctly
rounded unless that overflows (`Numeral.value?_eq`, `Binary64.rounds_iff`), whether it is read as a
numeral or in the wide notation (`readNumber?_text`).
-/

namespace BorderCss

variable {numeral : Numeral} {digits rest chars : List Char} {c : Char}

/-! ## Digits -/

theorem takeWhile_digits (hdigits : ∀ c ∈ digits, c.isDigit = true)
    (hrest : ∀ c ∈ rest.head?, c.isDigit = false) :
    (digits ++ rest).takeWhile Char.isDigit = digits := by
  rw [List.takeWhile_append_of_pos hdigits]
  cases rest with
  | nil => simp
  | cons c rest => simp [hrest c rfl]

theorem dropWhile_digits (hdigits : ∀ c ∈ digits, c.isDigit = true)
    (hrest : ∀ c ∈ rest.head?, c.isDigit = false) :
    (digits ++ rest).dropWhile Char.isDigit = rest := by
  rw [List.dropWhile_append_of_pos hdigits]
  cases rest with
  | nil => simp
  | cons c rest => simp [hrest c rfl]

theorem isDigit_of_isDecimalChar (h : isDecimalChar c = false) :
    c.isDigit = false ∧ c ≠ '.' ∧ c ≠ '-' := by
  simpa [isDecimalChar, and_assoc] using h

theorem digitsValue_append (a b : List Char) :
    digitsValue (a ++ b) = digitsValue a * 10 ^ b.length + digitsValue b := by
  rw [digitsValue, Nat.ofDigitChars_append, Nat.ofDigitChars_eq_ofDigitChars_zero, Nat.mul_comm]
  rfl

/-! ## Texts -/

namespace Numeral

/-- A point and the digits behind it, if there are any. -/
def fractionText (fraction : List Char) : List Char :=
  if fraction = [] then [] else '.' :: fraction

/-- The text of a numeral. -/
def text (numeral : Numeral) : List Char :=
  (if numeral.negative then ['-'] else []) ++ (numeral.whole ++ fractionText numeral.fraction)

/-- There is a digit in front of the point or behind it, and nothing but digits. -/
def IsPlain (numeral : Numeral) : Prop :=
  IsDigits (numeral.whole ++ numeral.fraction)

/-- The number that the numeral writes, its sign apart. -/
def magnitude (numeral : Numeral) : ℚ :=
  digitsValue (numeral.whole ++ numeral.fraction) / 10 ^ numeral.fraction.length

theorem isDecimalChar_of_mem_text (h : numeral.IsPlain) (hc : c ∈ numeral.text) :
    isDecimalChar c = true := by
  have hfraction : ∀ d ∈ fractionText numeral.fraction, isDecimalChar d = true := by
    intro d hd
    unfold fractionText at hd
    split at hd
    · cases hd
    · obtain rfl | hd := List.mem_cons.1 hd
      · rfl
      · exact h.isDecimalChar (List.mem_append_right _ hd)
  obtain hc | hc := List.mem_append.1 hc
  · split at hc
    · rw [List.mem_singleton.1 hc]
      rfl
    · cases hc
  · obtain hc | hc := List.mem_append.1 hc
    · exact h.isDecimalChar (List.mem_append_left _ hc)
    · exact hfraction c hc

theorem scanFraction_fractionText (hdigits : ∀ c ∈ digits, c.isDigit = true)
    (hrest : ∀ c ∈ rest.head?, isDecimalChar c = false) :
    scanFraction (fractionText digits ++ rest) = (digits, rest) := by
  have hnext : ∀ c ∈ rest.head?, c.isDigit = false :=
    fun c hc => (isDigit_of_isDecimalChar (hrest c hc)).1
  cases digits with
  | nil =>
    cases rest with
    | nil => rfl
    | cons c rest =>
      obtain ⟨-, hpoint, -⟩ := isDigit_of_isDecimalChar (hrest c rfl)
      simp [fractionText, scanFraction, hpoint]
  | cons d digits =>
    rw [fractionText, if_neg (List.cons_ne_nil d digits), List.cons_append, scanFraction,
      takeWhile_digits hdigits hnext, dropWhile_digits hdigits hnext]
    rfl

/-- Neither a digit nor a point nor a sign follows the whole part. -/
theorem head?_fractionText (hrest : ∀ c ∈ rest.head?, isDecimalChar c = false) :
    ∀ c ∈ (fractionText digits ++ rest).head?, c.isDigit = false := by
  unfold fractionText
  split
  · exact fun c hc => (isDigit_of_isDecimalChar (hrest c hc)).1
  · intro c hc
    obtain rfl : '.' = c := Option.some.inj hc
    rfl

theorem scanUnsigned_text (h : numeral.IsPlain)
    (hrest : ∀ c ∈ rest.head?, isDecimalChar c = false) :
    scanUnsigned numeral.negative (numeral.whole ++ fractionText numeral.fraction ++ rest) =
      (numeral, rest) := by
  have hwhole : ∀ c ∈ numeral.whole, c.isDigit = true :=
    fun c hc => h.isDigit c (List.mem_append_left _ hc)
  have hfraction : ∀ c ∈ numeral.fraction, c.isDigit = true :=
    fun c hc => h.isDigit c (List.mem_append_right _ hc)
  rw [scanUnsigned, List.append_assoc, takeWhile_digits hwhole (head?_fractionText hrest),
    dropWhile_digits hwhole (head?_fractionText hrest), scanFraction_fractionText hfraction hrest]

/-- A numeral without a sign begins with a digit or a point. -/
theorem head_unsigned (h : numeral.IsPlain) :
    ∃ c tail, numeral.whole ++ fractionText numeral.fraction = c :: tail ∧
      (c.isDigit = true ∨ c = '.') := by
  cases hwhole : numeral.whole with
  | cons c whole =>
    exact ⟨c, _, rfl, .inl (h.isDigit c (by simp [hwhole]))⟩
  | nil =>
    have hfraction : numeral.fraction ≠ [] := fun hnil => h.nonempty (by simp [hwhole, hnil])
    exact ⟨'.', numeral.fraction, by simp [fractionText, hfraction], .inr rfl⟩

/-- The text of a numeral is scanned back to it, if it does not go on. -/
theorem scan_text (h : numeral.IsPlain) (hrest : ∀ c ∈ rest.head?, isDecimalChar c = false) :
    scan (numeral.text ++ rest) = (numeral, rest) := by
  have hunsigned := scanUnsigned_text h hrest
  unfold text
  cases hsign : numeral.negative with
  | true =>
    rw [hsign] at hunsigned
    exact hunsigned
  | false =>
    obtain ⟨c, tail, htext, hc⟩ := head_unsigned h
    have hminus : c ≠ '-' := by
      rintro rfl
      simp at hc
    rw [hsign] at hunsigned
    simp only [htext, Bool.false_eq_true, if_false, List.nil_append, List.cons_append]
      at hunsigned ⊢
    unfold scan
    split
    · next heq => exact absurd (List.cons.inj heq).1 hminus
    · exact hunsigned

/-- A text is the fraction at its start and what follows it. -/
theorem fractionText_scanFraction (chars : List Char) :
    fractionText (scanFraction chars).1 ++ (scanFraction chars).2 = chars ∧
      ∀ c ∈ (scanFraction chars).1, c.isDigit = true := by
  unfold scanFraction
  split
  · split
    · simp [fractionText]
    · next rest hne =>
      rw [List.isEmpty_iff] at hne
      refine ⟨?_, fun c hc => (List.mem_takeWhile_imp hc)⟩
      simp [fractionText, hne, List.takeWhile_append_dropWhile]
  · simp [fractionText]

theorem text_scanUnsigned (negative : Bool) (chars : List Char) :
    (scanUnsigned negative chars).1.text ++ (scanUnsigned negative chars).2 =
        (if negative then ['-'] else []) ++ chars ∧
      ∀ c ∈ (scanUnsigned negative chars).1.whole ++ (scanUnsigned negative chars).1.fraction,
        c.isDigit = true := by
  obtain ⟨htext, hdigits⟩ := fractionText_scanFraction (chars.dropWhile Char.isDigit)
  refine ⟨?_, fun c hc => ?_⟩
  · simp only [scanUnsigned, text, List.append_assoc, htext, List.takeWhile_append_dropWhile]
    rfl
  · obtain hc | hc := List.mem_append.1 hc
    · exact List.mem_takeWhile_imp hc
    · exact hdigits c hc

/-- A text begins with the text of the numeral that is scanned off it. -/
theorem text_scan (chars : List Char) :
    (scan chars).1.text ++ (scan chars).2 = chars ∧
      ∀ c ∈ (scan chars).1.whole ++ (scan chars).1.fraction, c.isDigit = true := by
  unfold scan
  split
  · exact text_scanUnsigned true _
  · exact text_scanUnsigned false _

/-! ## Values -/

/-- What counts as too small to be rounded to anything but zero is less than half a unit. -/
theorem two_mul_units_lt {digits k : Nat} (h : 400 + digits.log2 < k) :
    2 * (digits * Binary64.unitsPerOne) < 10 ^ (k + 1) := by
  have hdigits : digits < 2 ^ (digits.log2 + 1) := Nat.lt_log2_self
  have hsmall : 2 * Binary64.unitsPerOne < 10 ^ 400 := by decide +kernel
  calc 2 * (digits * Binary64.unitsPerOne) = digits * (2 * Binary64.unitsPerOne) := by ring
    _ < 2 ^ (digits.log2 + 1) * 10 ^ 400 := Nat.mul_lt_mul'' hdigits hsmall
    _ ≤ 10 ^ (digits.log2 + 1) * 10 ^ 400 :=
        Nat.mul_le_mul_right _ (Nat.pow_le_pow_left (by omega) _)
    _ = 10 ^ (digits.log2 + 1 + 400) := (pow_add 10 _ _).symm
    _ ≤ 10 ^ (k + 1) := Nat.pow_le_pow_right (by omega) (by omega)

/-- A decimal with places is rounded like any ratio. -/
theorem ofDecimal_neg (negative : Bool) (digits k : Nat) :
    Binary64.ofDecimal negative digits (-(k : Int)) =
      .ofRatio negative digits (10 ^ k) := by
  have hzero : 0 < Binary64.unitsLimit := by decide +kernel
  cases k with
  | zero =>
    have hexponent : -((0 : Nat) : Int) = .ofNat 0 := rfl
    rw [hexponent, Binary64.ofDecimal, pow_zero]
    split
    · next h =>
      rw [h, Binary64.ofRatio_eq, Binary64.rounded_eq_zero (by omega), if_pos hzero]
    · rw [if_neg (by omega)]
      exact congrArg (Binary64.ofRatio negative · 1) (Nat.mul_one digits)
  | succ k =>
    have hexponent : -((k + 1 : Nat) : Int) = .negSucc k := rfl
    rw [hexponent, Binary64.ofDecimal]
    split
    · next h =>
      rw [Binary64.ofRatio_eq, Binary64.rounded_eq_zero (two_mul_units_lt h), if_pos hzero]
    · rfl

/-- A numeral with a digit has the value of its magnitude. -/
theorem value?_eq (h : numeral.IsPlain) :
    numeral.value? = some (.ofRatio numeral.negative
      (digitsValue (numeral.whole ++ numeral.fraction)) (10 ^ numeral.fraction.length)) := by
  have hempty : ¬(numeral.whole.isEmpty && numeral.fraction.isEmpty) = true := by
    simpa using h.nonempty
  rw [value?, if_neg hempty, ofDecimal_neg]

theorem isPlain_of_value? {number : Binary64} (h : numeral.value? = some number)
    (hdigits : ∀ c ∈ numeral.whole ++ numeral.fraction, c.isDigit = true) : numeral.IsPlain := by
  refine ⟨fun hnil => ?_, hdigits⟩
  rw [value?, if_pos (by simpa using hnil)] at h
  cases h

/-- The value of a numeral, if it is finite, is its magnitude correctly rounded, with its sign. -/
theorem value?_eq_some_iff (h : numeral.IsPlain) {number : Binary64} :
    numeral.value? = some number ∧ number.isFinite = true ↔
      number.Rounds numeral.negative numeral.magnitude := by
  have hten : 0 < 10 ^ numeral.fraction.length := by positivity
  rw [value?_eq h, Option.some.injEq, ← Binary64.rounds_iff hten, magnitude, Nat.cast_pow,
    Nat.cast_ofNat]

/-! ## Reading -/

/-- A numeral is its own text, read as a numeral. -/
theorem readNumeral?_text (h : numeral.IsPlain) : readNumeral? numeral.text = numeral.value? := by
  have hscan : scan (numeral.text ++ []) = (numeral, []) := scan_text h nofun
  rw [List.append_nil] at hscan
  rw [readNumeral?, hscan]

/-- Digits and a fraction are an unsigned number in exponent notation. -/
theorem readScientific?_text (h : numeral.IsPlain) :
    readScientific? numeral.negative (numeral.whole ++ fractionText numeral.fraction) =
      numeral.value? := by
  have hwhole : ∀ c ∈ numeral.whole, c.isDigit = true :=
    fun c hc => h.isDigit c (List.mem_append_left _ hc)
  have hfraction : ∀ c ∈ numeral.fraction, c.isDigit = true :=
    fun c hc => h.isDigit c (List.mem_append_right _ hc)
  have hend : ∀ c ∈ (fractionText numeral.fraction).head?, c.isDigit = false := by
    rw [← List.append_nil (fractionText numeral.fraction)]
    exact head?_fractionText nofun
  have htake : numeral.fraction.takeWhile Char.isDigit = numeral.fraction :=
    List.takeWhile_eq_self_iff.2 hfraction
  have hdrop : numeral.fraction.dropWhile Char.isDigit = [] :=
    List.dropWhile_eq_nil_iff.2 hfraction
  rw [readScientific?, takeWhile_digits hwhole hend, dropWhile_digits hwhole hend, value?]
  cases hcase : numeral.fraction with
  | nil => simp [fractionText]
  | cons d fraction =>
    rw [hcase] at htake hdrop
    simp [fractionText, htake, hdrop]

/-- A number does not begin like the words for infinity and for not a number. -/
theorem readUnsigned?_text (h : numeral.IsPlain) :
    readUnsigned? numeral.negative (numeral.whole ++ fractionText numeral.fraction) =
      numeral.value? := by
  have hword : ∀ word : String, word.toList.head?.any Char.isLower = true →
      (numeral.whole ++ fractionText numeral.fraction).map Char.toLower ≠ word.toList := by
    intro word halpha heq
    obtain ⟨c, tail, htext, hc⟩ := head_unsigned h
    have hlower : c.toLower = c := hc.elim toLower_of_isDigit fun heq => heq ▸ rfl
    rw [htext, List.map_cons, hlower] at heq
    have hletter : c.isLower = true := by
      rw [← heq] at halpha
      exact halpha
    rcases hc with hdigit | rfl
    · rw [isDigit_of_isLower hletter] at hdigit
      cases hdigit
    · cases hletter
  rw [readUnsigned?, if_neg, if_neg (hword "nan" rfl), readScientific?_text h]
  rintro (heq | heq)
  · exact hword "inf" rfl heq
  · exact hword "infinity" rfl heq

/-- The wide notation reads numerals in the same way. -/
theorem readNumber?_text (h : numeral.IsPlain) : readNumber? numeral.text = numeral.value? := by
  have hunsigned := readUnsigned?_text h
  unfold text
  cases hsign : numeral.negative with
  | true =>
    rw [hsign] at hunsigned
    exact hunsigned
  | false =>
    obtain ⟨c, tail, htext, hc⟩ := head_unsigned h
    rw [hsign, htext] at hunsigned
    simp only [htext, Bool.false_eq_true, if_false, List.nil_append]
    unfold readNumber?
    split
    · next heq =>
      obtain ⟨rfl, -⟩ := List.cons.inj heq
      simp at hc
    · next heq =>
      obtain ⟨rfl, -⟩ := List.cons.inj heq
      simp at hc
    · exact hunsigned

end Numeral

end BorderCss
