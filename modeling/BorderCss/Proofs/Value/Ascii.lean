import BorderCss.Proofs.Value.Quantity
import BorderCss.Value.Conversion

/-!
# ASCII values

A written number has none but ASCII characters (`isAscii_fixedText`), so fractions and ratios have
none else, whatever they were converted from. A unit is kept as it was written, though, and a long
`s` may stand for an `s` in it; no other foreign character folds into one of a unit
(`IsLengthUnit.isAscii_iff`). So a length is ASCII just if its text has no long `s`
(`isAscii_pixels?_iff`, `isAscii_rootEms?_iff`).
-/

namespace BorderCss

/-- All characters are ASCII. -/
def IsAscii (text : String) : Prop :=
  ∀ c ∈ text.toList, c.toNat < 128

instance (text : String) : Decidable (IsAscii text) :=
  List.decidableBAll _ _

variable {text css name : String} {numeral : Numeral} {unit : Option String} {c : Char}

theorem isAscii_append {a b : String} : IsAscii (a ++ b) ↔ IsAscii a ∧ IsAscii b := by
  simp only [IsAscii, String.toList_append, List.mem_append, or_imp, forall_and]

/-! ## Numbers -/

theorem toNat_lt_of_isDecimalChar (h : isDecimalChar c = true) : c.toNat < 128 := by
  simp only [isDecimalChar, Bool.or_eq_true, beq_iff_eq] at h
  obtain (hdigit | rfl) | rfl := h
  · have hnine : c.toNat ≤ 57 := (Char.isDigit_iff_toNat.1 hdigit).2
    omega
  · decide
  · decide

theorem isAscii_fixedText (number : Binary64) : IsAscii (fixedText number) := by
  cases number with
  | finite negative units =>
    intro c hc
    rw [toList_fixedText] at hc
    exact toNat_lt_of_isDecimalChar
      (Numeral.isDecimalChar_of_mem_text (isCanonical_writtenNumeral negative units).isPlain hc)
  | infinite negative => cases negative <;> decide
  | nan => decide

theorem isAscii_fraction? (h : fraction? text = some css) : IsAscii css := by
  obtain ⟨number, -, h⟩ := Option.bind_eq_some_iff.1 h
  dsimp only at h
  split at h
  · obtain rfl := Option.some.inj h
    exact isAscii_fixedText _
  · cases h

theorem isAscii_ratio? (h : ratio? text = some css) : IsAscii css := by
  unfold ratio? at h
  split at h
  · obtain rfl := Option.some.inj h
    decide
  · obtain ⟨cut, -, h⟩ := Option.bind_eq_some_iff.1 h
    obtain ⟨left, -, h⟩ := Option.bind_eq_some_iff.1 h
    obtain ⟨right, -, h⟩ := Option.bind_eq_some_iff.1 h
    dsimp only at h
    split at h
    · cases h
    · split at h
      · obtain rfl := Option.some.inj h
        decide
      · obtain rfl := Option.some.inj h
        exact isAscii_append.2 ⟨isAscii_fixedText _, by decide⟩

/-! ## Units -/

/-- No unit has a `k`, which the Kelvin sign folds into. -/
theorem lengthUnits_ascii :
    lengthUnits.all (fun name => name.toList.all fun c => c.toNat < 128 && c != 'k') = true := by
  decide

/-- A unit is ASCII just if it has no long `s`. -/
theorem IsLengthUnit.isAscii_iff (h : IsLengthUnit name) :
    IsAscii name ↔ '\u017F' ∉ name.toList := by
  obtain ⟨folded, hfolded, hname⟩ := h
  have hunit := List.all_eq_true.1 lengthUnits_ascii folded (isUnitName_iff.1 hfolded)
  constructor
  · intro hascii hmem
    exact absurd (hascii _ hmem) (by decide)
  · intro hlong c hc
    have hmem : foldLatin c ∈ folded.toList := hname ▸ List.mem_map_of_mem hc
    have hchar := List.all_eq_true.1 hunit _ hmem
    rw [Bool.and_eq_true, decide_eq_true_eq, bne_iff_ne] at hchar
    exact toNat_lt_of_foldLatin hchar.1 hchar.2 fun heq => hlong (heq ▸ hc)

/-! ## Lengths -/

/-- A long `s` of a quantity stands in its unit. -/
theorem IsQuantityText.long_s_mem_iff (h : IsQuantityText text numeral unit) :
    '\u017F' ∈ text.toList ↔ '\u017F' ∈ (unit.getD "").toList := by
  have hnumeral : '\u017F' ∉ numeral.text := fun hmem =>
    absurd (Numeral.isDecimalChar_of_mem_text h.isPlain hmem) Bool.false_ne_true
  rw [h.text_eq, List.mem_append, or_iff_right hnumeral]

/-- A number is written as a length that is ASCII just if the text that it was read from, with its
unit, has no long `s`. -/
theorem isAscii_length_iff {quantity : Quantity} (h : readQuantity? text = some quantity)
    (number : Binary64) {bare : String} (hbare : IsAscii bare) :
    IsAscii (fixedText number ++ quantity.unit.getD bare) ↔ '\u017F' ∉ text.toList := by
  obtain ⟨numeral, htext, -⟩ := isQuantityText_of_readQuantity? h
  rw [isAscii_append, and_iff_right (isAscii_fixedText number), htext.long_s_mem_iff]
  cases hunit : quantity.unit with
  | none => exact iff_of_true hbare List.not_mem_nil
  | some name => exact (htext.isUnit name hunit).isAscii_iff

theorem isAscii_pixels?_iff (h : pixels? text = some css) :
    IsAscii css ↔ '\u017F' ∉ text.toList := by
  obtain ⟨quantity, hquantity, rfl⟩ := Option.map_eq_some_iff.1 h
  exact isAscii_length_iff hquantity quantity.number (by decide)

theorem isAscii_rootEms?_iff (h : rootEms? text = some css) :
    IsAscii css ↔ '\u017F' ∉ text.toList := by
  obtain ⟨quantity, hquantity, rfl⟩ := Option.map_eq_some_iff.1 h
  have hbare : IsAscii "rem" := by decide
  have hlength := fun number => isAscii_length_iff hquantity number hbare
  cases hunit : quantity.unit with
  | none =>
    rw [hunit] at hlength
    exact hlength _
  | some name =>
    rw [hunit] at hlength
    exact hlength quantity.number

end BorderCss
