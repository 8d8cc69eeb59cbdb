import BorderCss.Proofs.Color.Delimiter
import BorderCss.Proofs.Color.Segment
import BorderCss.Proofs.Text.Classes

/-!
# Colour parts that name a theme colour

A colour part of lower-case letters, digits and hyphens that begins with a word and goes on behind
it (`Named`) has no alpha and is no keyword, number or bracket escape. Unless the word is that of
hexadecimal colours, it is no literal either, so it is left to the theme (`Named.readColor?_eq`).
-/

namespace BorderCss

/-- The characters of the name of a theme colour, without capitals. -/
def isColorNameChar (c : Char) : Bool :=
  c.isLower || c.isDigit || c = '-'

/-- The text is a word of lower-case letters with more behind it, all of it characters of a name. -/
structure Named (word body : String) : Prop extends LowerWord word where
  behind : ∃ c rest, body.toList = word.toList ++ c :: rest ∧ c.isLower = false
  plain : ∀ c ∈ body.toList, isColorNameChar c = true

variable {theme : Theme} {word body : String} {c : Char}

theorem isColorNameChar_of (h : c.isLower = true ∨ c.isDigit = true) :
    isColorNameChar c = true := by
  rcases h with h | h
  · rw [isColorNameChar, h]
    rfl
  · rw [isColorNameChar, h, Bool.or_true, Bool.true_or]

/-- Characters of a name are their own folded form. -/
theorem foldLatin_of_isColorNameChar (h : isColorNameChar c = true) : foldLatin c = c := by
  have hrange : c.toNat < 65 ∨ 90 < c.toNat ∧ c.toNat < 128 := by
    simp only [isColorNameChar, Bool.or_eq_true, decide_eq_true_eq] at h
    rcases h with (hlower | hdigit) | rfl
    · have := toNat_of_isLower hlower
      omega
    · have hnine : '9'.toNat = 57 := rfl
      have := Char.isDigit_iff_toNat.1 hdigit
      omega
    · decide
  have hs : c ≠ '\u017F' := by
    rintro rfl
    exact absurd hrange (by decide)
  have hk : c ≠ '\u212A' := by
    rintro rfl
    exact absurd hrange (by decide)
  rw [foldLatin_eq_toLower hs hk, toLower_of_not_capital (by omega)]

namespace Named

variable (h : Named word body)

include h

/-- The word is what the text begins with in letters. -/
theorem takeWhile_isLower : body.toList.takeWhile Char.isLower = word.toList := by
  obtain ⟨c, rest, hbody, hc⟩ := h.behind
  rw [hbody, List.takeWhile_append_of_pos h.lower, List.takeWhile_cons_of_neg (by simp [hc]),
    List.append_nil]

theorem head : ∃ c rest, body.toList = c :: rest ∧ c.isLower = true := by
  obtain ⟨d, behind, hbody, -⟩ := h.behind
  obtain ⟨c, rest, hword⟩ := List.exists_cons_of_ne_nil (mt String.toList_eq_nil_iff.1 h.nonempty)
  refine ⟨c, rest ++ d :: behind, by rw [hbody, hword, List.cons_append], ?_⟩
  exact h.lower c (by rw [hword]; exact List.mem_cons_self)

theorem splitAlpha?_eq : splitAlpha? body = some (body, none) := by
  obtain ⟨c, rest, hbody, -⟩ := h.head
  have hslash : '/' ∉ body.toList := fun hmem => absurd (h.plain '/' hmem) (by decide)
  rcases hsplit : splitSlash 0 body.toList with ⟨main, _ | alpha⟩
  · have hmain : body.toList = main := (splitSlash_eq hsplit).trans (List.append_nil main)
    rw [splitAlpha?, hsplit, ← hmain, hbody]
    show some (String.ofList (c :: rest), none) = _
    rw [← hbody, String.ofList_toList]
  · have hmain : body.toList = main ++ '/' :: alpha := splitSlash_eq hsplit
    rw [hmain] at hslash
    exact absurd (List.mem_append_right main List.mem_cons_self) hslash

/-- The keywords are single words, or have a capital. -/
theorem special_eq_none : SpecialColor.read? body = none := by
  obtain ⟨c, rest, hbody, hc⟩ := h.behind
  have hword : ∀ keyword : String, keyword.toList.all Char.isLower = true → body ≠ keyword := by
    rintro _ hlower rfl
    have hmem : c ∈ body.toList := hbody ▸ List.mem_append_right _ List.mem_cons_self
    rw [List.all_eq_true.1 hlower c hmem] at hc
    cases hc
  have hcapital : body ≠ "currentColor" := by
    rintro rfl
    exact absurd (h.plain 'C' (by decide)) (by decide)
  rw [SpecialColor.read?, if_neg (hword _ (by decide)), if_neg, if_neg (hword _ (by decide))]
  rintro (heq | heq)
  · exact hword _ (by decide) heq
  · exact hcapital heq

theorem hexColor?_eq_none (hhex : word ≠ "hex") : hexColor? body.toList = none := by
  obtain ⟨c, rest, hbody, hc⟩ := h.head
  have hhash : c ≠ '#' := ne_of_isLower hc (by decide)
  have hfold : (body.toList.take 4).map foldLatin = body.toList.take 4 :=
    (List.map_congr_left fun d hd =>
      foldLatin_of_isColorNameChar (h.plain d (List.mem_of_mem_take hd))).trans (List.map_id _)
  have hprefix : (body.toList.take 4).map foldLatin ≠ "hex-".toList := by
    -- Folding changes nothing here, so the first word would be that of hexadecimal colours.
    rw [hfold]
    intro htake
    have hletters := h.takeWhile_isLower
    rw [← List.take_append_drop 4 body.toList, htake] at hletters
    have hword : "hex".toList = word.toList := hletters
    exact hhex (String.toList_inj.1 hword).symm
  rw [hbody] at hprefix ⊢
  unfold hexColor?
  split
  · next heq => exact absurd (List.cons.inj heq).1 hhash
  · rw [if_neg hprefix]

/-- A name is read as the theme colour that it names, known by its first segment. -/
theorem readColor?_eq (theme : Theme) (hhex : word ≠ "hex") :
    readColor? theme body = (themeColor? theme body).map fun color =>
      ⟨firstSegment body, color.shade, .theme color.keys color.value, none⟩ := by
  obtain ⟨c, rest, hbody, hc⟩ := h.head
  have hdollar : c ≠ '$' := ne_of_isLower hc (by decide)
  have hbracket : colorBracket? body = none := by
    rw [colorBracket?, readBracket?_of_isLower hbody hc]
  have hliteral : literalColor? body none = none := by
    rw [literalColor?, Option.getD_none, h.hexColor?_eq_none hhex, hbody]
    dsimp only
    rw [if_neg]
    intro hstart
    obtain ⟨tail, htail⟩ := List.isPrefixOf_iff_prefix.1 hstart
    exact hdollar (List.cons.inj htail).1.symm
  rw [readColor?, h.splitAlpha?_eq]
  dsimp only
  rw [readMain?, h.special_eq_none]
  dsimp only
  rw [hbracket, Option.getD_none, readQuantity?_of_isLower hbody hc, hliteral]
  rfl

end Named

end BorderCss
