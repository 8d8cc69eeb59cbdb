import BorderCss.Proofs.Number.Rereading

/-!
# Quantities

A quantity is a numeral and a unit, if there is one (`IsQuantityText`): the text is read as one just
if it can be cut in that way and the numeral does not overflow, and then there is only one cut
(`readQuantity?_eq_some_iff`). A length that was written is a quantity again, of a number that is
written alike, so converting it a second time changes nothing (`conversions_idempotent`).
-/

namespace BorderCss

variable {text css : String} {numeral : Numeral} {unit : Option String} {number : Binary64}
  {quantity : Quantity}

/-! ## Units -/

/-- The units that stand on their own. -/
def absoluteUnits : List String := ["px", "pt", "pc", "%", "in", "cm", "mm", "rpx"]

/-- The units that depend on a font, which may be that of the root. -/
def fontUnits : List String := ["em", "ex", "lh", "cap", "ch", "ic"]

/-- The frames that a length may be measured by, in short. -/
def frameFamilies : List String := ["v", "sv", "lv", "dv", "cq"]

/-- The side of a frame that is measured. -/
def frameSides : List String := ["w", "h", "i", "b", "min", "max"]

/-- The names of the units, in lower case. -/
inductive IsUnitName : String → Prop
  | absolute {name : String} (h : name ∈ absoluteUnits) : IsUnitName name
  | font {name : String} (h : name ∈ fontUnits) : IsUnitName name
  | rootFont {name : String} (h : name ∈ fontUnits) : IsUnitName ("r" ++ name)
  | frame {family side : String} (hfamily : family ∈ frameFamilies) (hside : side ∈ frameSides) :
    IsUnitName (family ++ side)

/-- The text is the name of a unit, its case apart. -/
def IsLengthUnit (text : String) : Prop :=
  ∃ name, IsUnitName name ∧ text.toList.map foldLatin = name.toList

theorem lengthUnits_eq :
    lengthUnits = absoluteUnits.take 4 ++ fontUnits ++ fontUnits.map ("r" ++ ·) ++
      frameFamilies.flatMap (fun family => frameSides.map (family ++ ·)) ++
      absoluteUnits.drop 4 := by
  decide

theorem isUnitName_iff {name : String} : IsUnitName name ↔ name ∈ lengthUnits := by
  simp only [lengthUnits_eq, List.mem_append, List.mem_map, List.mem_flatMap]
  constructor
  · intro h
    cases h with
    | absolute h =>
      rw [← List.take_append_drop 4 absoluteUnits, List.mem_append] at h
      exact h.imp_left fun h => .inl (.inl (.inl h))
    | font h => exact .inl (.inl (.inl (.inr h)))
    | rootFont h => exact .inl (.inl (.inr ⟨_, h, rfl⟩))
    | frame hfamily hside => exact .inl (.inr ⟨_, hfamily, _, hside, rfl⟩)
  · rintro ((((h | h) | ⟨name, h, rfl⟩) | ⟨family, hfamily, side, hside, rfl⟩) | h)
    · exact .absolute (List.mem_of_mem_take h)
    · exact .font h
    · exact .rootFont h
    · exact .frame hfamily hside
    · exact .absolute (List.mem_of_mem_drop h)

theorem isUnit_iff : isUnit text.toList = true ↔ IsLengthUnit text := by
  simp only [isUnit, List.any_eq_true, beq_iff_eq, IsLengthUnit, isUnitName_iff]
  exact exists_congr fun name => and_congr_right fun _ => eq_comm

theorem lengthUnits_head :
    ∀ name ∈ lengthUnits, name.toList.head?.any (!isDecimalChar ·) = true := by
  decide

/-- Digits, points and signs are written in one case only. -/
theorem foldLatin_of_isDecimalChar {c : Char} (h : isDecimalChar c = true) : foldLatin c = c := by
  simp only [isDecimalChar, Bool.or_eq_true, beq_iff_eq] at h
  obtain (hdigit | rfl) | rfl := h
  · have hlong : c ≠ '\u017F' := by rintro rfl; cases hdigit
    have hkelvin : c ≠ '\u212A' := by rintro rfl; cases hdigit
    rw [foldLatin_eq_toLower hlong hkelvin, toLower_of_isDigit hdigit]
  · rfl
  · rfl

/-- Units begin with a letter or the percent sign, in any case. -/
theorem IsLengthUnit.head (h : IsLengthUnit text) :
    ∃ c rest, text.toList = c :: rest ∧ isDecimalChar c = false := by
  obtain ⟨name, hname, hfold⟩ := h
  have hhead := lengthUnits_head name (isUnitName_iff.1 hname)
  rw [← hfold] at hhead
  cases htext : text.toList with
  | nil => simp [htext] at hhead
  | cons c rest =>
    refine ⟨c, rest, rfl, Bool.eq_false_iff.2 fun hc => ?_⟩
    simp [htext, foldLatin_of_isDecimalChar hc, hc] at hhead

/-! ## Texts -/

/-- The text is that of the numeral and, behind it, the unit if there is one. -/
structure IsQuantityText (text : String) (numeral : Numeral) (unit : Option String) : Prop where
  text_eq : text.toList = numeral.text ++ (unit.getD "").toList
  isPlain : numeral.IsPlain
  isUnit : ∀ name ∈ unit, IsLengthUnit name

namespace IsQuantityText

/-- A quantity is cut into its numeral and its unit by the scan. -/
theorem scan_eq (h : IsQuantityText text numeral unit) :
    Numeral.scan text.toList = (numeral, (unit.getD "").toList) := by
  rw [h.text_eq]
  refine Numeral.scan_text h.isPlain fun c hc => ?_
  cases hunit : unit with
  | none => simp [hunit] at hc
  | some name =>
    obtain ⟨d, rest, hname, hd⟩ := (h.isUnit name hunit).head
    obtain rfl : d = c := by simpa [hunit, hname] using hc
    exact hd

/-- No unit is empty. -/
theorem unit_eq (h : IsQuantityText text numeral unit) :
    unit = if (unit.getD "").toList.isEmpty then none else some (unit.getD "") := by
  cases hunit : unit with
  | none => rfl
  | some name =>
    obtain ⟨d, rest, hname, -⟩ := (h.isUnit name hunit).head
    simp [hname]

/-- There is one way to cut a quantity. -/
theorem unique {other : Numeral} {another : Option String}
    (h : IsQuantityText text numeral unit) (hother : IsQuantityText text other another) :
    numeral = other ∧ unit = another := by
  obtain ⟨hnumeral, hrest⟩ := Prod.mk.inj (h.scan_eq.symm.trans hother.scan_eq)
  refine ⟨hnumeral, ?_⟩
  rw [h.unit_eq, hother.unit_eq, String.toList_inj.1 hrest]

end IsQuantityText

/-- A text whose numeral is scanned off and whose rest is a unit is a quantity of that numeral. -/
theorem readQuantity?_of_isQuantityText (h : IsQuantityText text numeral unit)
    (hvalue : numeral.value? = some number) (hfinite : number.isFinite = true) :
    readQuantity? text = some ⟨number, unit⟩ := by
  have hunit : ((unit.getD "").toList.isEmpty || isUnit (unit.getD "").toList) = true := by
    cases hcase : unit with
    | none => rfl
    | some name =>
      rw [Option.getD_some, isUnit_iff.2 (h.isUnit name hcase), Bool.or_true]
  rw [readQuantity?, h.scan_eq]
  simp only [hunit, if_true, hvalue, hfinite, String.ofList_toList]
  rw [← h.unit_eq]

/-- A quantity is cut into a numeral that has its number for a value, and its unit. -/
theorem isQuantityText_of_readQuantity? (h : readQuantity? text = some quantity) :
    ∃ numeral : Numeral, IsQuantityText text numeral quantity.unit ∧
      numeral.value? = some quantity.number ∧ quantity.number.isFinite = true := by
  obtain ⟨htext, hdigits⟩ := Numeral.text_scan text.toList
  obtain ⟨hvalue, hfinite, hunit, hrest⟩ := readQuantity?_spec h
  rw [hrest] at htext
  exact ⟨_, ⟨htext.symm, Numeral.isPlain_of_value? hvalue hdigits,
    fun name hname => isUnit_iff.1 (hunit name hname)⟩, hvalue, hfinite⟩

/-- **The grammar of quantities.** A text is read as a number and a unit just if it is the text of a
numeral with that number for its correctly rounded, finite value, and then the unit, in any case, if
there is one; and it can be cut in that way in one place only. -/
theorem readQuantity?_eq_some_iff (text : String) (number : Binary64) (unit : Option String) :
    (readQuantity? text = some ⟨number, unit⟩ ↔
      ∃ numeral : Numeral, IsQuantityText text numeral unit ∧
        number.Rounds numeral.negative numeral.magnitude) ∧
    ∀ (numeral other : Numeral) (name another : Option String),
      IsQuantityText text numeral name → IsQuantityText text other another →
        numeral = other ∧ name = another := by
  refine ⟨⟨fun h => ?_, fun ⟨numeral, htext, hrounds⟩ => ?_⟩,
    fun _ _ _ _ h hother => h.unique hother⟩
  · obtain ⟨numeral, htext, hvalue, hfinite⟩ := isQuantityText_of_readQuantity? h
    exact ⟨numeral, htext, (Numeral.value?_eq_some_iff htext.isPlain).1 ⟨hvalue, hfinite⟩⟩
  · obtain ⟨hvalue, hfinite⟩ := (Numeral.value?_eq_some_iff htext.isPlain).2 hrounds
    exact readQuantity?_of_isQuantityText htext hvalue hfinite

/-- A long `s` stands for an `s` in a unit, and the unit is kept as it is. -/
theorem readQuantity?_long_s :
    ∃ numeral : Numeral, numeral = ⟨true, ['1'], ['5']⟩ ∧
      IsQuantityText "-1.5\u017FVW" numeral (some "\u017FVW") ∧
      (Binary64.finite true (3 * Nat.pow 2 1073)).Rounds numeral.negative numeral.magnitude := by
  have hplain : (⟨true, ['1'], ['5']⟩ : Numeral).IsPlain := ⟨by simp, by simp⟩
  have hunit : IsLengthUnit "\u017FVW" := isUnit_iff.1 rfl
  have hcut : IsQuantityText "-1.5\u017FVW" ⟨true, ['1'], ['5']⟩ (some "\u017FVW") :=
    ⟨rfl, hplain, fun _ h => Option.mem_some.1 h ▸ hunit⟩
  obtain ⟨hread, hunique⟩ := readQuantity?_eq_some_iff "-1.5\u017FVW"
    (.finite true (3 * Nat.pow 2 1073)) (some "\u017FVW")
  obtain ⟨numeral, htext, hrounds⟩ := hread.1 (by decide +kernel)
  exact ⟨numeral, (hunique _ _ _ _ htext hcut).1, htext, hrounds⟩

/-! ## Lengths -/

/-- A number that was written is read again with a unit behind it, and is written alike. -/
theorem readQuantity?_fixedText (h : number.IsDouble) {name : String} (hname : IsLengthUnit name) :
    ∃ again, readQuantity? (fixedText number ++ name) = some ⟨again, some name⟩ ∧
      fixedText again = fixedText number := by
  obtain ⟨numeral, again, htext, hplain, hvalue, hfinite, halike⟩ := exists_reread h
  refine ⟨again, readQuantity?_of_isQuantityText ⟨?_, hplain, ?_⟩ hvalue hfinite, halike⟩
  · rw [String.toList_append, htext, Option.getD_some]
  · intro other hother
    rwa [← Option.mem_some.1 hother]

/-- A quantity has a double for its number and a unit of the grammar, if it has one. -/
theorem isDouble_of_readQuantity? (h : readQuantity? text = some quantity) :
    quantity.number.IsDouble ∧ ∀ name ∈ quantity.unit, IsLengthUnit name := by
  obtain ⟨numeral, htext, hvalue⟩ := isQuantityText_of_readQuantity? h
  exact ⟨((Numeral.value?_eq_some_iff htext.isPlain).1 hvalue).isDouble, htext.isUnit⟩

/-- A quarter of a double is a double. -/
theorem isDouble_div_four (h : number.IsDouble) : (number.div (.ofNat 4)).IsDouble := by
  obtain ⟨negative, units, rfl, -, hlimit⟩ := h
  have hfour : 0 < 4 * Binary64.unitsPerOne := Nat.mul_pos (by decide) Binary64.unitsPerOne_pos
  have hfinite := Binary64.isFinite_div_four (s := negative) hlimit
  rw [Binary64.ofNat_four, Binary64.div, if_neg hfour.ne'] at hfinite ⊢
  exact (Binary64.rounds_iff hfour).2 ⟨rfl, hfinite⟩ |>.isDouble

theorem isLengthUnit_px : IsLengthUnit "px" :=
  isUnit_iff.1 rfl

theorem isLengthUnit_rem : IsLengthUnit "rem" :=
  isUnit_iff.1 rfl

/-- A quantity with a unit is kept by both conversions. -/
theorem conversions_of_unit {name : String}
    (h : readQuantity? text = some ⟨number, some name⟩) :
    pixels? text = some (fixedText number ++ name) ∧
      rootEms? text = some (fixedText number ++ name) := by
  rw [pixels?, rootEms?, h]
  exact ⟨rfl, rfl⟩

/-- A length that was written is converted to itself. -/
theorem conversions_fixedText (h : number.IsDouble) {name : String} (hname : IsLengthUnit name) :
    pixels? (fixedText number ++ name) = some (fixedText number ++ name) ∧
      rootEms? (fixedText number ++ name) = some (fixedText number ++ name) := by
  obtain ⟨again, hread, halike⟩ := readQuantity?_fixedText h hname
  rw [conversions_of_unit hread |>.1, conversions_of_unit hread |>.2, halike]
  exact ⟨rfl, rfl⟩

/-- **Conversions are idempotent.** A length that was converted is converted to itself. -/
theorem conversions_idempotent (text css : String) :
    (pixels? text = some css → pixels? css = some css) ∧
      (rootEms? text = some css → rootEms? css = some css) := by
  refine ⟨fun h => ?_, fun h => ?_⟩
  · obtain ⟨⟨number, unit⟩, hquantity, rfl⟩ := Option.map_eq_some_iff.1 h
    obtain ⟨hdouble, hname⟩ := isDouble_of_readQuantity? hquantity
    cases unit with
    | none => exact (conversions_fixedText hdouble isLengthUnit_px).1
    | some name => exact (conversions_fixedText hdouble (hname name rfl)).1
  · obtain ⟨⟨number, unit⟩, hquantity, rfl⟩ := Option.map_eq_some_iff.1 h
    obtain ⟨hdouble, hname⟩ := isDouble_of_readQuantity? hquantity
    cases unit with
    | none => exact (conversions_fixedText (isDouble_div_four hdouble) isLengthUnit_rem).2
    | some name => exact (conversions_fixedText hdouble (hname name rfl)).2

/-- An eleventh place is rounded away at first. -/
theorem conversions_rounded :
    pixels? "0.12345678916" = some "0.1234567892px" ∧
      pixels? "0.1234567892px" = some "0.1234567892px" ∧
      rootEms? "3" = some "0.75rem" ∧ rootEms? "0.75rem" = some "0.75rem" := by
  have hpixels : pixels? "0.12345678916" = some "0.1234567892px" := by decide +kernel
  have hrootEms : rootEms? "3" = some "0.75rem" := by decide +kernel
  exact ⟨hpixels, (conversions_idempotent _ _).1 hpixels, hrootEms,
    (conversions_idempotent _ _).2 hrootEms⟩

end BorderCss
