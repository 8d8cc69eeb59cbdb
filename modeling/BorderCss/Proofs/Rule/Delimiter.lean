import BorderCss.Proofs.Color.Delimiter
import BorderCss.Proofs.Rule.Dispatch
import BorderCss.Proofs.Rule.Shape

/-!
# Delimiters in declarations

What a token captures for its body is a part of the token (`Pattern.captures?_body`). So its
declarations have no delimiters but those of fragments of the token that are written out, if the
token has no brackets and the names and radii of the theme are inert (`resolveToken_delimiters`).
The two spellings that are written out are recognised by their beginning or by their ends, and what
else they hold may well end the declaration (`delimiters_written_out`).
-/

namespace BorderCss

variable {theme : Theme} {token side : String}

/-- The names of colours and the names and values of radii have no delimiters. -/
structure Theme.Inert (theme : Theme) : Prop where
  colors : EntryNames BorderCss.Inert theme.colors
  radii : ∀ entry ∈ theme.radii, BorderCss.Inert entry.1 ∧ BorderCss.Inert entry.2

/-! ## Bodies -/

theorem TailClass.body?_suffix {tail : TailClass} {text body : List Char}
    (h : tail.body? text = some (some body)) : body <:+ text := by
  cases text with
  | nil =>
    rw [TailClass.body?] at h
    split at h <;> cases h
  | cons c rest =>
    by_cases hc : c = '-'
    · rw [hc, tail.body?_hyphen] at h
      obtain ⟨lead, -, hlead⟩ := List.exists_of_findSome?_eq_some h
      obtain ⟨found, hfound, hline⟩ := Option.bind_eq_some_iff.1 hlead
      split at hline
      · cases hline
        rw [cutStart?_eq_some_iff.1 hfound, hc]
        exact (List.suffix_append _ _).trans (List.suffix_cons _ _)
      · cases hline
    · rw [TailClass.body?_cons_of_ne hc] at h
      cases h

/-- The body that a pattern captures is a part of the token. -/
theorem Pattern.captures?_body {pattern : Pattern} {captures : Captures}
    (h : pattern.captures? token = some captures) :
    ∃ side body, captures = ⟨[some side, body]⟩ ∧ ∀ text ∈ body, text.toList <:+: token.toList := by
  obtain ⟨⟨side, body⟩, hsplit, rfl⟩ := Option.map_eq_some_iff.1 h
  refine ⟨side, body.map String.ofList, rfl, fun text htext => ?_⟩
  obtain ⟨chars, hbody, rfl⟩ := Option.map_eq_some_iff.1 htext
  obtain ⟨stem, -, hstem⟩ := List.exists_of_findSome?_eq_some hsplit
  obtain ⟨rest, hrest, hsides⟩ := Option.bind_eq_some_iff.1 hstem
  obtain ⟨word, -, hword⟩ := List.exists_of_findSome?_eq_some hsides
  obtain ⟨tail, htail, hpair⟩ := Option.bind_eq_some_iff.1 hword
  obtain ⟨found, hfound, heq⟩ := Option.map_eq_some_iff.1 hpair
  cases heq
  cases hbody
  have hcut : tail <:+ rest := by
    unfold cutSide? at htail
    split at htail
    · cases htail
      exact List.suffix_rfl
    · rw [cutStart?_eq_some_iff.1 htail]
      exact List.suffix_append _ _
  rw [String.toList_ofList, cutStart?_eq_some_iff.1 hrest]
  exact ((TailClass.body?_suffix hfound).trans
    (hcut.trans (List.suffix_append _ _))).isInfix

/-- What stands for the body is the body, if there is one, or a fixed text. -/
theorem Captures.getD_two (side fallback : String) (body : Option String) :
    (⟨[some side, body]⟩ : Captures).getD 2 fallback = fallback ∨
      body = some ((⟨[some side, body]⟩ : Captures).getD 2 fallback) := by
  cases body with
  | none => exact .inl rfl
  | some text =>
    show (if text = "" then fallback else text) = fallback ∨
      some text = some (if text = "" then fallback else text)
    split
    · exact .inl rfl
    · exact .inr rfl

/-! ## Declarations -/

variable {text : String}

/-- The declarations of the styling have no delimiters but those of fragments of the text that are
written out. -/
def Styling.DelimitedBy (text : String) (styling : Styling) : Prop :=
  ∀ d ∈ styling.declarations, BorderCss.DelimitedBy text d.value

theorem delimitedBy_of_fanOut {α : Type} {parts : Option α} {value : Option (Reading String)}
    {suffixes : α → List String} {property : String → String} {outcome : Reading Styling}
    (hvalue : ∀ reading ∈ value, DelimitedBy text reading.value)
    (h : (parts.bind fun part => value.map (Reading.map (.fanOut (suffixes part) property))) =
      some outcome) : outcome.value.DelimitedBy text := by
  obtain ⟨part, -, h⟩ := Option.bind_eq_some_iff.1 h
  obtain ⟨reading, hreading, rfl⟩ := Option.map_eq_some_iff.1 h
  intro d hd
  obtain ⟨suffix, -, rfl⟩ := List.mem_map.1 (Block.mem_declarations_ofList hd)
  exact hvalue reading hreading

theorem delimitedBy_of_reading (htheme : theme.Inert) (hbracket : '[' ∉ text.toList)
    (mode : UnitMode) (hmode : mode ≠ .plain) {scale : Option ThemeScale} :
    ∀ reading ∈ (resolveFragment? theme mode scale text).map FragmentValue.reading,
      DelimitedBy text reading.value := by
  intro reading hreading
  obtain ⟨value, hvalue, rfl⟩ := Option.map_eq_some_iff.1 hreading
  exact resolveFragment?_delimitedBy hmode htheme.radii hbracket hvalue

theorem widthOutcome?_delimitedBy {outcome : Reading Styling} (htheme : theme.Inert)
    (hbracket : '[' ∉ text.toList) (h : widthOutcome? theme side text = some outcome) :
    outcome.value.DelimitedBy text :=
  delimitedBy_of_fanOut (delimitedBy_of_reading htheme hbracket .px nofun) h

theorem opacityOutcome?_delimitedBy {outcome : Reading Styling} (htheme : theme.Inert)
    (hbracket : '[' ∉ text.toList) (h : opacityOutcome? theme side text = some outcome) :
    outcome.value.DelimitedBy text :=
  delimitedBy_of_fanOut (delimitedBy_of_reading htheme hbracket .percent nofun) h

theorem radiusOutcome?_delimitedBy {outcome : Reading Styling} (htheme : theme.Inert)
    (hbracket : '[' ∉ text.toList) (h : radiusOutcome? theme side text = some outcome) :
    outcome.value.DelimitedBy text := by
  refine delimitedBy_of_fanOut (fun reading hreading => ?_) h
  rw [radiusValue?] at hreading
  split at hreading
  · cases hreading
    have hround : Inert infiniteRadius := by decide
    exact hround.delimitedBy text
  · exact delimitedBy_of_reading htheme hbracket .rem (by decide) reading hreading

theorem lineStyling?_delimitedBy {styling : Styling} (h : lineStyling? side text = some styling) :
    styling.DelimitedBy text := by
  have hstyles : ∀ style ∈ lineStyles, Inert style := by decide +kernel
  unfold lineStyling? at h
  split at h
  · next hkeyword =>
    obtain ⟨edges, -, rfl⟩ := Option.map_eq_some_iff.1 h
    have hinert := hstyles text (List.contains_iff_mem.1 hkeyword)
    intro d hd
    have hvalue : d.value = text := by
      rcases List.mem_cons.1 (Block.mem_declarations_ofList hd) with rfl | hd
      · rfl
      · obtain ⟨suffix, -, rfl⟩ := List.mem_map.1 hd
        rfl
    rw [hvalue]
    exact hinert.delimitedBy text
  · cases h

/-! ## Colours -/

variable {color : Color} {suffix : String}

theorem inert_suffix (edge : Edge) : Inert edge.suffix := by
  cases edge <;> decide

theorem alphaPercentage_delimitedBy {alpha : String} (h : DelimitedBy text alpha) :
    DelimitedBy text (alphaPercentage alpha) := by
  have hopening : Inert "calc(" := by decide
  have hclosing : Inert " * 100%)" := by decide
  have hsign : Inert "%" := by decide
  unfold alphaPercentage
  split
  · exact (inert_append.2 ⟨inert_fixedText _, hsign⟩).delimitedBy text
  · exact ((hopening.delimitedBy text).append h).append (hclosing.delimitedBy text)

theorem percentage_delimitedBy (halpha : ∀ alpha ∈ color.alpha, DelimitedBy text alpha)
    (hsuffix : Inert suffix) : DelimitedBy text (color.percentage "border" suffix) := by
  unfold Color.percentage
  split
  · next alpha heq => exact alphaPercentage_delimitedBy (halpha alpha heq)
  · have hbefore : Inert ("--un-" ++ "border") := by decide
    have hafter : Inert "-opacity" := by decide
    have hopening : Inert "calc(var(" := by decide
    have hclosing : Inert ") * 100%)" := by decide
    have hvariable : Inert (opacityVariable "border" suffix) :=
      inert_append.2 ⟨inert_append.2 ⟨hbefore, hsuffix⟩, hafter⟩
    exact (inert_append.2 ⟨inert_append.2 ⟨hopening, hvariable⟩, hclosing⟩).delimitedBy text

theorem mixed_delimitedBy {css percentage : String} (hcss : DelimitedBy text css)
    (hpercentage : DelimitedBy text percentage) : DelimitedBy text (mixed css percentage) := by
  have hopening : Inert "color-mix(in oklch, " := by decide
  have hblank : Inert " " := by decide
  have hclosing : Inert ", transparent)" := by decide
  exact ((((hopening.delimitedBy text).append hcss).append (hblank.delimitedBy text)).append
    hpercentage).append (hclosing.delimitedBy text)

theorem edge_delimitedBy (hcss : DelimitedBy text color.css)
    (halpha : ∀ alpha ∈ color.alpha, DelimitedBy text alpha) (hsuffix : Inert suffix) :
    ∀ d ∈ color.edge "border" suffix, DelimitedBy text d.value := by
  intro d hd
  unfold Color.edge at hd
  split at hd
  · cases List.mem_singleton.1 hd
    exact hcss
  · rcases List.mem_cons.1 hd with rfl | hd
    · exact mixed_delimitedBy hcss (percentage_delimitedBy halpha hsuffix)
    · split at hd
      · cases hd
      · cases List.mem_singleton.1 hd
        have hshared : Inert ("var(" ++ opacityVariable "border" "" ++ ")") := by decide +kernel
        exact hshared.delimitedBy text

theorem colorOutcome?_delimitedBy {outcome : Reading Styling} (htheme : theme.Inert)
    (hbracket : '[' ∉ text.toList) (h : colorOutcome? theme side text = some outcome) :
    outcome.value.DelimitedBy text := by
  obtain ⟨edges, hedges, h⟩ := Option.bind_eq_some_iff.1 h
  split at h
  · exact widthOutcome?_delimitedBy htheme hbracket h
  · obtain ⟨color, hcolor, h⟩ := Option.bind_eq_some_iff.1 h
    obtain ⟨styling, hstyling, rfl⟩ := Option.map_eq_some_iff.1 h
    obtain ⟨hcss, halpha⟩ := readColor?_delimitedBy htheme.colors hbracket hcolor
    have hnodup := (edgeSuffixes_distinct _ (edgesOf?_suffixes hedges)).2
    intro d hd
    rw [Color.declarations_stylings? hstyling hnodup] at hd
    obtain ⟨suffix, hsuffix, hd⟩ := List.mem_flatMap.1 hd
    obtain ⟨edge, -, rfl⟩ := List.mem_map.1 hsuffix
    exact edge_delimitedBy hcss halpha (inert_suffix edge) d hd

/-! ## Tokens -/

theorem Styling.DelimitedBy.mono {part : String} {styling : Styling}
    (hpart : part.toList <:+: text.toList) (h : styling.DelimitedBy part) :
    styling.DelimitedBy text :=
  fun d hd => (h d hd).mono hpart

/-- An inert text in the place of the body brings no delimiters along. -/
theorem Styling.DelimitedBy.of_inert {part : String} {styling : Styling} (hpart : Inert part)
    (h : styling.DelimitedBy part) (text : String) : styling.DelimitedBy text :=
  fun d hd => ((h d hd).inert hpart).delimitedBy text

/-- Whatever a utility makes of the side and the body that a token was captured with, the styling
has no delimiters but those of fragments of the token. -/
theorem Utility.outcome?_delimitedBy {utility : Utility} {body : Option String}
    {outcome : Reading Styling} (htheme : theme.Inert) (hbracket : '[' ∉ token.toList)
    (hbody : ∀ text ∈ body, text.toList <:+: token.toList)
    (h : utility.outcome? theme ⟨[some side, body]⟩ = some outcome) :
    outcome.value.DelimitedBy token := by
  have hpart : ∀ text ∈ body, '[' ∉ text.toList := fun text htext hmem =>
    hbracket ((hbody text htext).subset hmem)
  -- a width and a radius may do without a body, and then stand for a fixed text
  have hfallback : ∀ fallback : String, '[' ∉ fallback.toList → Inert fallback →
      (∀ text, '[' ∉ text.toList → text = (⟨[some side, body]⟩ : Captures).getD 2 fallback →
        outcome.value.DelimitedBy text) → outcome.value.DelimitedBy token := by
    intro fallback hopen hinert houtcome
    rcases Captures.getD_two side fallback body with heq | heq
    · exact (houtcome fallback hopen heq.symm).of_inert hinert token
    · exact (houtcome _ (hpart _ heq) rfl).mono (hbody _ heq)
  cases utility with
  | width =>
    refine hfallback "1" (by decide) (by decide) ?_
    rintro text hopen rfl
    exact widthOutcome?_delimitedBy htheme hopen h
  | color =>
    obtain ⟨text, htext, h⟩ := Option.bind_eq_some_iff.1 h
    exact (colorOutcome?_delimitedBy htheme (hpart text htext) h).mono (hbody text htext)
  | opacity =>
    obtain ⟨text, htext, h⟩ := Option.bind_eq_some_iff.1 h
    exact (opacityOutcome?_delimitedBy htheme (hpart text htext) h).mono (hbody text htext)
  | radius =>
    refine hfallback defaultKey (by decide) (by decide) ?_
    rintro text hopen rfl
    exact radiusOutcome?_delimitedBy htheme hopen h
  | lineStyle =>
    obtain ⟨styling, hstyling, rfl⟩ := Option.map_eq_some_iff.1 h
    obtain ⟨text, htext, hstyling⟩ := Option.bind_eq_some_iff.1 hstyling
    exact (lineStyling?_delimitedBy hstyling).mono (hbody text htext)

/-- A token without brackets, under a theme whose names and radii are inert: a declaration has a
delimiter in its value exactly when the value writes out a fragment of the token that has it, a
custom property or a math call. -/
theorem resolveToken_delimiters {rules : List Rule} {usage : Usage} {styling : Styling}
    (htheme : theme.Inert) (hbracket : '[' ∉ token.toList)
    (h : (resolveToken rules theme token usage).1 = some styling) :
    ∀ d ∈ styling.declarations, ∀ c ∈ [';', '{', '}'],
      c ∈ d.value.toList ↔ ∃ fragment css : String, fragment.toList <:+: token.toList ∧
        (customProperty? fragment = some css ∨ isMathCall fragment = true ∧ css = fragment) ∧
        css.toList <:+: d.value.toList ∧ c ∈ fragment.toList := by
  rw [resolveToken_eq, settle_fst] at h
  obtain ⟨reading, hreading, rfl⟩ := Option.map_eq_some_iff.1 h
  obtain ⟨rule, -, hrule⟩ := List.exists_of_findSome?_eq_some hreading
  obtain ⟨captures, hcaptures, houtcome⟩ := Option.bind_eq_some_iff.1 hrule
  obtain ⟨side, body, rfl, hbody⟩ := Pattern.captures?_body hcaptures
  intro d hd c hc
  refine ⟨Utility.outcome?_delimitedBy htheme hbracket hbody houtcome d hd c hc, ?_⟩
  rintro ⟨fragment, css, -, hspells, hcss, hmem⟩
  exact hcss.subset ((Spells.mem_iff hspells hc).2 hmem)

/-- The alpha of a colour of the built-in theme brings a semicolon along. -/
theorem resolveToken_delimiters_alpha :
    ∃ styling, (resolveToken borderRules .preset "b-red-500/$a;b" .empty).1 = some styling ∧
      ∀ d ∈ styling.declarations, ∀ c ∈ [';', '{', '}'],
        c ∈ d.value.toList ↔ ∃ fragment css : String,
          fragment.toList <:+: "b-red-500/$a;b".toList ∧
          (customProperty? fragment = some css ∨ isMathCall fragment = true ∧ css = fragment) ∧
          css.toList <:+: d.value.toList ∧ c ∈ fragment.toList := by
  have htheme : Theme.preset.Inert := ⟨by decide +kernel, by decide +kernel⟩
  have haccepted : (resolveToken borderRules .preset "b-red-500/$a;b" .empty).1.isSome := by
    decide +kernel
  obtain ⟨styling, hstyling⟩ := Option.isSome_iff_exists.1 haccepted
  exact ⟨styling, hstyling, resolveToken_delimiters htheme (by decide) hstyling⟩

/-- Neither spelling is looked at throughout: the name of a custom property may end the declaration,
and so may what stands between the first and the last parenthesis of a math call. -/
theorem delimiters_written_out :
    Theme.preset.Inert ∧ '[' ∉ "b-$w;color:red".toList ∧
      (resolveToken borderRules .preset "b-$w;color:red" .empty).1.map Styling.declarations =
        some [⟨"border-width", "var(--w;color:red)"⟩] ∧
      '[' ∉ "b-calc(1px);color:red;x:(2px)".toList ∧
      (resolveToken borderRules .preset "b-calc(1px);color:red;x:(2px)" .empty).1.map
          Styling.declarations =
        some [⟨"border-width", "calc(1px);color:red;x:(2px)"⟩] := by
  refine ⟨⟨?_, ?_⟩, ?_, ?_, ?_, ?_⟩ <;> decide +kernel

end BorderCss
