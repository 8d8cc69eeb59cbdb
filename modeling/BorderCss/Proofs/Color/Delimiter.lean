import BorderCss.Proofs.Color.KeyPath
import BorderCss.Proofs.Theme.Names
import BorderCss.Proofs.Value.Delimiter

/-!
# Colours without delimiters

A colour part that is no bracket escape is read as a keyword, a hexadecimal colour, a custom
property or a theme colour, whose keys are names of the theme (`themeColor?_names`), and its alpha
as a custom property or a percentage. So under inert names only the custom properties bring
delimiters along (`readColor?_delimitedBy`).
-/

namespace BorderCss

variable {theme : Theme} {p : String → Prop} {hit : ThemeHit} {path : List String} {text : String}

/-! ## The keys of theme colours -/

theorem shadeColor?_names {shade : String} {color : ThemeColor} (hkeys : ∀ key ∈ hit.keys, p key)
    (hnode : hit.node.Names p) (h : shadeColor? hit shade = some color) :
    ∀ key ∈ color.keys, p key := by
  obtain ⟨css, hcss, rfl⟩ := Option.map_eq_some_iff.1 h
  obtain ⟨entry, hentry, -⟩ := Option.bind_eq_some_iff.1 hcss
  refine List.forall_mem_append.2 ⟨hkeys, List.forall_mem_singleton.2 ?_⟩
  cases hscale : hit.node with
  | value _ =>
    rw [hscale] at hentry
    cases hentry
  | scale entries =>
    rw [hscale] at hentry hnode
    exact (EntryNames.lookup hnode hentry).1

/-- The keys of a theme colour are names of the theme. -/
theorem themeColor?_names {name : String} {color : ThemeColor}
    (hcolors : EntryNames p theme.colors) (h : themeColor? theme name = some color) :
    ∀ key ∈ color.keys, p key := by
  obtain ⟨css, hcss, rfl⟩ | h := themeColor?_cases h
  · exact List.forall_mem_singleton.2 (hcolors.lookup hcss).1
  · obtain ⟨start, number, hit, -, -, hhit, hcolor⟩ | ⟨hit, hhit, hcolor⟩ :=
      segmentedColor?_cases h
    · obtain ⟨hkeys, hnode⟩ := walk?_names hcolors hhit
      exact shadeColor?_names hkeys hnode hcolor
    · rw [(bareColor?_spec hcolor).1]
      exact (walk?_names hcolors hhit).1

/-! ## The colour and its alpha -/

/-- A colour part is its colour and, behind a slash, its alpha. -/
theorem splitSlash_eq {depth : Int} {text main : List Char} {alpha : Option (List Char)}
    (h : splitSlash depth text = (main, alpha)) : text = main ++ alpha.elim [] ('/' :: ·) := by
  induction text generalizing depth main alpha with
  | nil =>
    cases h
    rfl
  | cons c rest ih =>
    rw [splitSlash] at h
    split at h
    · next hslash =>
      cases h
      rw [hslash.1]
      rfl
    · dsimp only at h
      cases h
      exact congrArg (c :: ·) (ih rfl)

theorem splitAlpha?_infix {main : String} {alpha : Option String}
    (h : splitAlpha? text = some (main, alpha)) :
    main.toList <:+: text.toList ∧ ∀ part ∈ alpha, part.toList <:+: text.toList := by
  rw [splitAlpha?] at h
  split at h
  · cases h
  · cases h
  · next main alpha _ _ hsplit =>
    cases h
    have htext := splitSlash_eq hsplit
    rw [htext, String.toList_ofList]
    refine ⟨(List.prefix_append _ _).isInfix, fun part hpart => ?_⟩
    obtain ⟨chars, rfl, rfl⟩ := Option.map_eq_some_iff.1 hpart
    rw [String.toList_ofList]
    exact ((List.suffix_cons '/' chars).trans (List.suffix_append _ _)).isInfix

/-! ## Literals -/

theorem hexColor?_inert {chars css : List Char} (h : hexColor? chars = some css) :
    Inert (String.ofList css) := by
  have hclass : delimiters.any (fun c => c == '#' || isHexLike c) = false := by decide +kernel
  have hdigits : ∀ digits : List Char, digits.all isHexLike = true →
      Inert (String.ofList ('#' :: digits)) := by
    intro digits hall
    refine inert_of_class _ hclass fun c hc => ?_
    rw [String.toList_ofList] at hc
    rcases List.mem_cons.1 hc with rfl | hc
    · rfl
    · rw [List.all_eq_true.1 hall c hc, Bool.or_true]
  unfold hexColor? at h
  split at h
  · split at h
    · next hhex =>
      cases h
      rw [Bool.and_eq_true] at hhex
      exact hdigits _ hhex.2
    · cases h
  · split at h
    · dsimp only at h
      split at h
      · next hhex =>
        cases h
        rw [Bool.and_eq_true] at hhex
        exact hdigits _ hhex.2
      · cases h
    · cases h

theorem literalColor?_delimitedBy {css : String} (h : literalColor? text none = some css) :
    DelimitedBy text css := by
  unfold literalColor? at h
  split at h
  · next hhex =>
    cases h
    exact (hexColor?_inert hhex).delimitedBy text
  · split at h
    · exact Spells.delimitedBy (.inl h)
    · cases h

/-! ## Colours -/

theorem inert_css (keyword : SpecialColor) : Inert keyword.css := by
  cases keyword <;> decide

theorem readMain?_delimitedBy {main : String} {alpha : Option String} {color : Color}
    (hcolors : EntryNames Inert theme.colors) (hbracket : '[' ∉ main.toList)
    (h : readMain? theme main alpha = some color) :
    DelimitedBy main color.css ∧ ∀ part ∈ color.alpha, part ∈ alpha := by
  have hnone : colorBracket? main = none := by rw [colorBracket?, readBracket?_of_notMem hbracket]
  unfold readMain? at h
  split at h
  · next keyword _ =>
    cases h
    exact ⟨(inert_css keyword).delimitedBy main, nofun⟩
  · dsimp only at h
    split at h
    · cases h
    · split at h
      · next css hcss =>
        cases h
        rw [hnone] at hcss
        exact ⟨literalColor?_delimitedBy hcss, fun _ => id⟩
      · obtain ⟨found, hfound, rfl⟩ := Option.map_eq_some_iff.1 h
        have hspace : Inert "colors" := by decide
        have hkeys := inert_themeVariable hspace (themeColor?_names hcolors hfound)
        refine ⟨Inert.delimitedBy ?_ main, fun _ => id⟩
        exact inert_append.2 ⟨inert_append.2 ⟨by decide, hkeys⟩, by decide⟩

theorem readAlpha?_delimitedBy {alpha : String} (hbracket : '[' ∉ text.toList)
    (h : readAlpha? text = some alpha) : DelimitedBy text alpha := by
  have hnone : bracket? text = none := by rw [bracket?, readBracket?_of_notMem hbracket]; rfl
  rw [readAlpha?, hnone, Option.map_none, Option.none_or] at h
  obtain h | ⟨-, h⟩ := Option.or_eq_some_iff.1 h
  · exact Spells.delimitedBy (.inl h)
  · exact (fraction?_inert h).delimitedBy text

/-- Neither the colour of a colour part without brackets nor its alpha has delimiters but those of
fragments that are written out. -/
theorem readColor?_delimitedBy {color : Color} (hcolors : EntryNames Inert theme.colors)
    (hbracket : '[' ∉ text.toList) (h : readColor? theme text = some color) :
    DelimitedBy text color.css ∧ ∀ alpha ∈ color.alpha, DelimitedBy text alpha := by
  unfold readColor? at h
  split at h
  · cases h
  · next main hsplit =>
    obtain ⟨hmain, -⟩ := splitAlpha?_infix hsplit
    obtain ⟨hcss, halpha⟩ :=
      readMain?_delimitedBy hcolors (fun hmem => hbracket (hmain.subset hmem)) h
    exact ⟨hcss.mono hmain, fun alpha hmem => absurd (halpha alpha hmem) nofun⟩
  · next main part hsplit =>
    obtain ⟨hmain, hpart⟩ := splitAlpha?_infix hsplit
    have hinside := hpart part rfl
    split at h
    · cases h
    · next alpha hread =>
      obtain ⟨hcss, halpha⟩ :=
        readMain?_delimitedBy hcolors (fun hmem => hbracket (hmain.subset hmem)) h
      have hdelimited := readAlpha?_delimitedBy (fun hmem => hbracket (hinside.subset hmem)) hread
      refine ⟨hcss.mono hmain, fun other hmem => ?_⟩
      cases halpha other hmem
      exact hdelimited.mono hinside

end BorderCss
