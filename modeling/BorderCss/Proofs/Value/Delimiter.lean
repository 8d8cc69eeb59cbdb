import BorderCss.Proofs.Text.Word
import BorderCss.Value.Fragment

/-!
# Values without delimiters

A value that has a semicolon or a brace ends its declaration or its rule (`Inert` says that it has
none). What is written from a number, a unit, a keyword or a key of an inert theme is inert. Two
spellings are written out as they are, and bring along whatever delimiters they have: the name and
the fallback of a custom property, and a math call (`Spells`). So a fragment that is no bracket
escape has no delimiters in its value but those of such a spelling
(`resolveFragment?_delimitedBy`).
-/

namespace BorderCss

/-- The characters that end a declaration or the block around it, or open another one. -/
def delimiters : List Char := [';', '{', '}']

/-- The text has no delimiter. -/
def Inert (text : String) : Prop :=
  ∀ c ∈ delimiters, c ∉ text.toList

-- by the list, since a search may settle on the type of all characters instead
instance (text : String) : Decidable (Inert text) :=
  List.decidableBAll (fun c => c ∉ text.toList) delimiters

variable {a b text css : String} {c : Char}

@[simp] theorem inert_append : Inert (a ++ b) ↔ Inert a ∧ Inert b := by
  simp only [Inert, String.toList_append, List.mem_append, not_or]
  exact ⟨fun h => ⟨fun c hc => (h c hc).1, fun c hc => (h c hc).2⟩,
    fun h c hc => ⟨h.1 c hc, h.2 c hc⟩⟩

/-- An inert text adds no delimiter to what follows it. -/
theorem mem_append_of_inert_left (ha : Inert a) (hc : c ∈ delimiters) :
    c ∈ (a ++ b).toList ↔ c ∈ b.toList := by
  rw [String.toList_append, List.mem_append, or_iff_right (ha c hc)]

/-- An inert text adds no delimiter to what it follows. -/
theorem mem_append_of_inert_right (hb : Inert b) (hc : c ∈ delimiters) :
    c ∈ (a ++ b).toList ↔ c ∈ a.toList := by
  rw [String.toList_append, List.mem_append, or_iff_left (hb c hc)]

/-- A text of characters of a class without delimiters is inert. -/
theorem inert_of_class (p : Char → Bool) (hp : delimiters.any p = false)
    (h : ∀ c ∈ text.toList, p c = true) : Inert text := by
  intro c hc hmem
  have hnone := List.any_eq_false.1 hp c hc
  exact hnone (h c hmem)

theorem inert_join {texts : List String} (h : ∀ text ∈ texts, Inert text) :
    Inert (String.join texts) := by
  intro c hc hmem
  rw [String.toList_join] at hmem
  obtain ⟨text, htext, hmem⟩ := List.mem_flatMap.1 hmem
  exact h text htext c hc hmem

/-! ## Numbers -/

/-- The characters of a decimal. -/
def isDecimalChar (c : Char) : Bool :=
  c.isDigit || c == '.' || c == '-'

theorem isDigit_of_mem_paddedDigits {count n : Nat} (h : c ∈ paddedDigits count n) :
    c.isDigit = true := by
  induction count with
  | zero => cases h
  | succ count ih =>
    rcases List.mem_cons.1 h with rfl | h
    · have hdigit : n / Nat.pow 10 count % 10 < 10 := Nat.mod_lt _ (by decide)
      rw [Nat.isDigit_digitChar, decide_eq_true hdigit]
    · exact ih h

/-- The digits that are left without trailing zeros were there before. -/
theorem dropTrailingZeros_subset (digits : List Char) : dropTrailingZeros digits ⊆ digits := by
  intro c hc
  rw [dropTrailingZeros, List.mem_reverse] at hc
  exact List.mem_reverse.1 ((List.dropWhile_sublist _).subset hc)

theorem isDecimalChar_of_mem_placesText {n : Nat} (h : c ∈ placesText n) :
    isDecimalChar c = true := by
  have hdigit : c.isDigit = true → isDecimalChar c = true := by
    intro hc
    rw [isDecimalChar, hc]
    rfl
  have hwhole : c ∈ Nat.toDigits 10 (n / Nat.pow 10 places) → isDecimalChar c = true :=
    fun hc => hdigit (Nat.isDigit_of_mem_toDigits (by decide) (by decide) hc)
  unfold placesText at h
  split at h
  · exact hwhole h
  · next hfraction =>
    rcases List.mem_append.1 h with h | h
    · exact hwhole h
    · rcases List.mem_cons.1 h with rfl | h
      · rfl
      · exact hdigit (isDigit_of_mem_paddedDigits (dropTrailingZeros_subset _ h))

/-- A written number is inert. -/
theorem inert_fixedText (number : Binary64) : Inert (fixedText number) := by
  cases number with
  | finite negative units =>
    refine inert_of_class isDecimalChar (by decide) fun c hc => ?_
    rw [fixedText, String.toList_ofList] at hc
    split at hc
    · rcases List.mem_cons.1 hc with rfl | hc
      · rfl
      · exact isDecimalChar_of_mem_placesText hc
    · exact isDecimalChar_of_mem_placesText hc
  | infinite negative => cases negative <;> decide
  | nan => decide

/-! ## Units -/

theorem inert_of_mem_lengthUnits : ∀ unit ∈ lengthUnits, Inert unit := by
  decide +kernel

/-- Case folding does not turn a delimiter into a letter, so a unit has none. -/
theorem inert_of_isUnit {unit : List Char} (h : isUnit unit = true) :
    Inert (String.ofList unit) := by
  have hall : delimiters.all (fun c => foldLatin c == c) = true := by decide
  have hfold : ∀ c ∈ delimiters, foldLatin c = c :=
    fun c hc => eq_of_beq (List.all_eq_true.1 hall c hc)
  intro c hc hmem
  obtain ⟨word, hword, hequal⟩ := List.any_eq_true.1 h
  refine inert_of_mem_lengthUnits word hword c hc ?_
  rw [eq_of_beq hequal, ← hfold c hc]
  rw [String.toList_ofList] at hmem
  exact List.mem_map_of_mem hmem

/-- A quantity is a finite numeral with a unit behind it, if anything. -/
theorem readQuantity?_spec {quantity : Quantity} (h : readQuantity? text = some quantity) :
    (Numeral.scan text.toList).1.value? = some quantity.number ∧ quantity.number.isFinite = true ∧
      (∀ unit ∈ quantity.unit, isUnit unit.toList = true) ∧
      (Numeral.scan text.toList).2 = (quantity.unit.getD "").toList := by
  rw [readQuantity?] at h
  generalize Numeral.scan text.toList = scanned at h ⊢
  obtain ⟨numeral, rest⟩ := scanned
  dsimp only at h ⊢
  split at h
  · next hrest =>
    split at h
    · next number hvalue =>
      split at h
      · next hfinite =>
        cases h
        refine ⟨hvalue, hfinite, fun unit hunit => ?_, ?_⟩
        · dsimp only at hunit
          split at hunit
          · cases hunit
          · next hempty =>
            cases hunit
            rw [Bool.or_eq_true] at hrest
            rw [String.toList_ofList]
            exact hrest.resolve_left hempty
        · dsimp only
          split
          · next hempty => exact List.isEmpty_iff.1 hempty
          · rw [Option.getD_some, String.toList_ofList]
      · cases h
    · cases h
  · cases h

theorem readQuantity?_unit {quantity : Quantity} (h : readQuantity? text = some quantity) :
    ∀ unit ∈ quantity.unit, Inert unit := by
  intro unit hunit
  obtain ⟨-, -, hunits, -⟩ := readQuantity?_spec h
  have hinert := inert_of_isUnit (hunits unit hunit)
  rwa [String.ofList_toList] at hinert

/-! ## Conversions -/

theorem pixels?_inert (h : pixels? text = some css) : Inert css := by
  obtain ⟨quantity, hquantity, rfl⟩ := Option.map_eq_some_iff.1 h
  refine inert_append.2 ⟨inert_fixedText _, ?_⟩
  cases hunit : quantity.unit with
  | none => decide
  | some unit => exact readQuantity?_unit hquantity unit hunit

theorem rootEms?_inert (h : rootEms? text = some css) : Inert css := by
  obtain ⟨quantity, hquantity, rfl⟩ := Option.map_eq_some_iff.1 h
  split
  · next unit hunit =>
    exact inert_append.2 ⟨inert_fixedText _, readQuantity?_unit hquantity unit hunit⟩
  · exact inert_append.2 ⟨inert_fixedText _, by decide⟩

theorem ratio?_inert (h : ratio? text = some css) : Inert css := by
  unfold ratio? at h
  split at h
  · cases h
    decide
  · obtain ⟨cut, -, h⟩ := Option.bind_eq_some_iff.1 h
    obtain ⟨left, -, h⟩ := Option.bind_eq_some_iff.1 h
    obtain ⟨right, -, h⟩ := Option.bind_eq_some_iff.1 h
    dsimp only at h
    split at h
    · cases h
    · split at h
      · cases h
        decide
      · cases h
        exact inert_append.2 ⟨inert_fixedText _, by decide⟩

theorem fraction?_inert (h : fraction? text = some css) : Inert css := by
  obtain ⟨number, -, h⟩ := Option.bind_eq_some_iff.1 h
  dsimp only at h
  split at h
  · cases h
    exact inert_fixedText _
  · cases h

/-- A converted number is inert. -/
theorem convert?_inert {mode : UnitMode} (hmode : mode ≠ .plain)
    (h : convert? mode text = some css) : Inert css := by
  cases mode with
  | px => exact pixels?_inert h
  | rem =>
    obtain h | ⟨-, h⟩ := Option.or_eq_some_iff.1 h
    · exact ratio?_inert h
    · exact rootEms?_inert h
  | percent => exact fraction?_inert h
  | plain => exact absurd rfl hmode

/-! ## Spellings that are written out -/

/-- The fragment is written out: it is a custom property or a math call. -/
def Spells (fragment css : String) : Prop :=
  customProperty? fragment = some css ∨ isMathCall fragment = true ∧ css = fragment

/-- The text is cut at the separator. -/
theorem cutFirst?_eq_some {separator : Char} {text before after : List Char}
    (h : cutFirst? separator text = some (before, after)) :
    text = before ++ separator :: after := by
  induction text generalizing before with
  | nil => cases h
  | cons c rest ih =>
    unfold cutFirst? at h
    split at h
    · next hc =>
      cases h
      rw [hc, List.nil_append]
    · obtain ⟨cut, hcut, heq⟩ := Option.map_eq_some_iff.1 h
      cases heq
      rw [List.cons_append, ih hcut]

/-- The reference to a custom property has the delimiters of its spelling. -/
theorem mem_customProperty? (h : customProperty? text = some css) (hc : c ∈ delimiters) :
    c ∈ css.toList ↔ c ∈ text.toList := by
  have hopening : Inert "var(--" := by decide
  have hclosing : Inert ")" := by decide
  have hcomma : Inert ", " := by decide
  have hmarks : '$' ∉ delimiters ∧ ',' ∉ delimiters := by decide
  have hdollar : c ≠ '$' := ne_of_mem_of_not_mem hc hmarks.1
  have hseparator : c ≠ ',' := ne_of_mem_of_not_mem hc hmarks.2
  unfold customProperty? at h
  split at h
  · next first rest htext =>
    rw [htext, List.mem_cons, or_iff_right hdollar]
    split at h
    · cases h
    · split at h
      · next name hcut =>
        cases h
        rw [cutFirst?_eq_some hcut, mem_append_of_inert_right hclosing hc,
          mem_append_of_inert_left hopening hc]
        simp [hseparator]
      · next name fallback _ hcut =>
        cases h
        rw [cutFirst?_eq_some hcut, mem_append_of_inert_right hclosing hc, String.append_assoc,
          String.append_assoc, mem_append_of_inert_left hopening hc, String.toList_append,
          List.mem_append, mem_append_of_inert_left hcomma hc]
        simp [hseparator]
      · cases h
        rw [mem_append_of_inert_right hclosing hc, mem_append_of_inert_left hopening hc,
          String.toList_ofList]
  · cases h

/-- What is written out has the delimiters of its spelling. -/
theorem Spells.mem_iff (h : Spells text css) (hc : c ∈ delimiters) :
    c ∈ css.toList ↔ c ∈ text.toList := by
  obtain h | ⟨-, rfl⟩ := h
  · exact mem_customProperty? h hc
  · exact Iff.rfl

/-- The delimiters of the value stand in fragments of the text that the value writes out. -/
def DelimitedBy (text value : String) : Prop :=
  ∀ c ∈ delimiters, c ∈ value.toList →
    ∃ fragment css : String, fragment.toList <:+: text.toList ∧ Spells fragment css ∧
      css.toList <:+: value.toList ∧ c ∈ fragment.toList

theorem Inert.delimitedBy (h : Inert css) (text : String) : DelimitedBy text css :=
  fun c hc hmem => absurd hmem (h c hc)

theorem Spells.delimitedBy (h : Spells text css) : DelimitedBy text css :=
  fun _ hc hmem => ⟨text, css, List.infix_refl _, h, List.infix_refl _, (h.mem_iff hc).1 hmem⟩

theorem DelimitedBy.append (ha : DelimitedBy text a) (hb : DelimitedBy text b) :
    DelimitedBy text (a ++ b) := by
  intro c hc hmem
  rw [String.toList_append] at hmem
  rcases List.mem_append.1 hmem with hmem | hmem
  · obtain ⟨fragment, css, hfragment, hspells, hcss, hchar⟩ := ha c hc hmem
    refine ⟨fragment, css, hfragment, hspells, hcss.trans ?_, hchar⟩
    rw [String.toList_append]
    exact (List.prefix_append _ _).isInfix
  · obtain ⟨fragment, css, hfragment, hspells, hcss, hchar⟩ := hb c hc hmem
    refine ⟨fragment, css, hfragment, hspells, hcss.trans ?_, hchar⟩
    rw [String.toList_append]
    exact (List.suffix_append _ _).isInfix

/-- A part of a text has no fragments that the text lacks. -/
theorem DelimitedBy.mono {part : String} (hpart : part.toList <:+: text.toList)
    (h : DelimitedBy part css) : DelimitedBy text css := by
  intro c hc hmem
  obtain ⟨fragment, spelled, hfragment, hrest⟩ := h c hc hmem
  exact ⟨fragment, spelled, hfragment.trans hpart, hrest⟩

/-- An inert text has no fragments with delimiters. -/
theorem DelimitedBy.inert (htext : Inert text) (h : DelimitedBy text css) : Inert css := by
  intro c hc hmem
  obtain ⟨fragment, spelled, hfragment, -, -, hchar⟩ := h c hc hmem
  exact htext c hc (hfragment.subset hchar)

/-! ## Fragments -/

theorem inert_of_mem_wideKeywords : ∀ keyword ∈ wideKeywords, Inert keyword := by
  decide

/-- Only the two spellings that are written out need not be inert. -/
theorem spelledValue?_delimitedBy (h : spelledValue? text = some css) : DelimitedBy text css := by
  obtain h | ⟨-, h⟩ := Option.or_eq_some_iff.1 h
  · exact Spells.delimitedBy (.inl h)
  · obtain h | ⟨-, h⟩ := Option.or_eq_some_iff.1 h
    · rw [wideKeyword?] at h
      split at h
      · next hwide =>
        cases h
        exact (inert_of_mem_wideKeywords _ (List.contains_iff_mem.1 hwide)).delimitedBy _
      · cases h
    · split at h
      · next hcall =>
        cases h
        exact Spells.delimitedBy (.inr ⟨hcall, rfl⟩)
      · cases h

/-- The custom property of inert keys is inert. -/
theorem inert_themeVariable {space : String} {keys : List String} (hspace : Inert space)
    (h : ∀ key ∈ keys, Inert key) : Inert (themeVariable space keys) := by
  refine inert_append.2 ⟨inert_append.2 ⟨by decide, hspace⟩, inert_join ?_⟩
  intro text htext
  obtain ⟨key, hkey, rfl⟩ := List.mem_map.1 htext
  exact inert_append.2 ⟨by decide, h key hkey⟩

/-- A text without an opening bracket is no bracket escape. -/
theorem readBracket?_of_notMem (h : '[' ∉ text.toList) : readBracket? text = none := by
  have hcontent : bracketContent? text.toList = none := by
    unfold bracketContent?
    split
    · next heq =>
      rw [heq] at h
      exact absurd List.mem_cons_self h
    · rfl
  rw [readBracket?, hcontent]

variable {theme : Theme}

theorem scaleValue?_inert (hradii : ∀ entry ∈ theme.radii, Inert entry.1 ∧ Inert entry.2)
    {scale : ThemeScale} {key : String} {value : FragmentValue}
    (h : scaleValue? theme scale key = some value) : Inert value.css := by
  obtain ⟨radius, hradius, rfl⟩ := Option.map_eq_some_iff.1 h
  obtain ⟨before, after, hentries, -⟩ := List.lookup_eq_some_iff.1 hradius
  have hentry : (key, radius) ∈ theme.radii := by simp [hentries]
  obtain ⟨hkey, hvalue⟩ := hradii _ hentry
  split
  · exact hvalue
  · have hspace : Inert scale.space := by cases scale; decide
    exact inert_append.2 ⟨inert_append.2 ⟨by decide,
      inert_themeVariable hspace (List.forall_mem_singleton.2 hkey)⟩, by decide⟩

/-- A fragment that is no bracket escape has no delimiters in its value but those of fragments that
are written out. -/
theorem resolveFragment?_delimitedBy {mode : UnitMode} {scale : Option ThemeScale}
    {value : FragmentValue} (hmode : mode ≠ .plain)
    (hradii : ∀ entry ∈ theme.radii, Inert entry.1 ∧ Inert entry.2) (hbracket : '[' ∉ text.toList)
    (h : resolveFragment? theme mode scale text = some value) : DelimitedBy text value.css := by
  unfold resolveFragment? at h
  rw [readBracket?_of_notMem hbracket] at h
  dsimp only at h
  split at h
  · next css hspelled =>
    cases h
    exact spelledValue?_delimitedBy hspelled
  · obtain h | ⟨-, h⟩ := Option.or_eq_some_iff.1 h
    · obtain ⟨scale, -, h⟩ := Option.bind_eq_some_iff.1 h
      exact (scaleValue?_inert hradii h).delimitedBy text
    · obtain ⟨css, hcss, rfl⟩ := Option.map_eq_some_iff.1 h
      exact (convert?_inert hmode hcss).delimitedBy text

end BorderCss
