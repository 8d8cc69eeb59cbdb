import BorderCss.Proofs.Css.Lookup
import BorderCss.Proofs.Rule.Fallthrough
import BorderCss.Proofs.Rule.Opacity

/-!
# Colours and opacities of one side

A colour token and an opacity token on the same side meet in the opacity variables of its edges: the
second sets them, and the first sets those of single edges to the shared variable. So the order of
the two matters on a side that is written, and only there: merged behind the colour, the opacity
holds on every edge; merged ahead of it, the opacity holds if it has no side
(`merge_color_opacity`). The colour itself is kept in either order.
-/

namespace BorderCss

variable {rules : List Rule} {theme : Theme} {token side body : String} {utility : Utility}

/-! ## What a token is read as -/

/-- The rule that settles the token is one of the utility, and its pattern captures the side and the
body. -/
def ReadsAs (rules : List Rule) (theme : Theme) (token : String) (utility : Utility)
    (side body : String) : Prop :=
  ∃ rule ∈ firstAccepting? rules theme token,
    rule.utility = utility ∧ rule.pattern.captures? token = some ⟨[some side, some body]⟩

instance : Decidable (ReadsAs rules theme token utility side body) :=
  inferInstanceAs (Decidable (∃ rule ∈ firstAccepting? rules theme token, _))

/-- A token is settled by what it is read as. -/
theorem ReadsAs.resolveToken (h : ReadsAs rules theme token utility side body) (usage : Usage) :
    resolveToken rules theme token usage =
      settle usage (utility.sideOutcome? theme side (some body.toList)) := by
  obtain ⟨rule, hrule, rfl, hcaptures⟩ := h
  rw [resolveToken_eq_attempt, hrule, Option.elim_some, rule.attempt_eq, Rule.outcome?, hcaptures,
    Option.bind_some, Utility.sideOutcome?, Option.map_some, String.ofList_toList]

/-! ## The two stylings -/

variable {color : Color} {suffix value : String} {suffixes : List String}
  {colored faded : Styling}

/-- On each edge a colour sets its mix. -/
theorem Color.get?_colorProperty (h : color.stylings? "border" suffixes = some colored)
    (hnodup : suffixes.Nodup) (hspecial : color.isSpecial = false) (hsuffix : suffix ∈ suffixes) :
    colored.block.get? (colorProperty "border" suffix) =
      some (mixed color.css (color.percentage "border" suffix)) := by
  rw [Block.get?_eq_some_iff, ← Styling.declarations,
    Color.mem_declarations_stylings? h hnodup hspecial]
  exact ⟨suffix, hsuffix, .inl rfl⟩

/-- On a single edge a colour sets the opacity to the shared one. -/
theorem Color.get?_opacityVariable (h : color.stylings? "border" suffixes = some colored)
    (hnodup : suffixes.Nodup) (hspecial : color.isSpecial = false) (hsuffix : suffix ∈ suffixes)
    (hne : suffix ≠ "") :
    colored.block.get? (opacityVariable "border" suffix) = some "var(--un-border-opacity)" := by
  rw [Block.get?_eq_some_iff, ← Styling.declarations,
    Color.mem_declarations_stylings? h hnodup hspecial]
  exact ⟨suffix, hsuffix, .inr ⟨hne, rfl⟩⟩

/-- A colour does not set the shared opacity. -/
theorem Color.get?_opacityVariable_empty (h : color.stylings? "border" suffixes = some colored)
    (hnodup : suffixes.Nodup) (hspecial : color.isSpecial = false) :
    colored.block.get? (opacityVariable "border" "") = none := by
  refine Block.get?_eq_none fun hmem => ?_
  obtain ⟨d, hd, hproperty⟩ := List.mem_map.1 hmem
  rw [← Styling.declarations, Color.mem_declarations_stylings? h hnodup hspecial] at hd
  obtain ⟨suffix, -, rfl | ⟨hne, rfl⟩⟩ := hd
  · exact colorProperty_ne_opacityVariable "border" _ _ hproperty
  · exact hne (opacityVariable_injective "border" hproperty)

theorem Styling.Fans.get?_opacityVariable
    (h : faded.Fans suffixes (opacityVariable "border") value) (hsuffix : suffix ∈ suffixes) :
    faded.block.get? (opacityVariable "border" suffix) = some value := by
  rw [Block.get?_eq_some_iff, ← Styling.declarations, h.declarations]
  exact List.mem_map_of_mem hsuffix

theorem Styling.Fans.get?_colorProperty
    (h : faded.Fans suffixes (opacityVariable "border") value) :
    faded.block.get? (colorProperty "border" suffix) = none := by
  refine Block.get?_eq_none fun hmem => ?_
  rw [h.properties, List.mem_map] at hmem
  obtain ⟨other, -, hother⟩ := hmem
  exact colorProperty_ne_opacityVariable "border" suffix other hother.symm

/-- An opacity that is merged behind a colour is the opacity of each edge; one that is merged ahead
of it is that of the whole border only. Neither order touches the colour. -/
theorem get?_merge_color_opacity (hcolored : color.stylings? "border" suffixes = some colored)
    (hfaded : faded.Fans suffixes (opacityVariable "border") value) (hnodup : suffixes.Nodup)
    (hspecial : color.isSpecial = false) (hsuffix : suffix ∈ suffixes) :
    (colored.merge faded).block.get? (opacityVariable "border" suffix) = some value ∧
      (faded.merge colored).block.get? (opacityVariable "border" suffix) =
        some (if suffix = "" then value else "var(--un-border-opacity)") ∧
      (colored.merge faded).block.get? (colorProperty "border" suffix) =
        colored.block.get? (colorProperty "border" suffix) ∧
      (faded.merge colored).block.get? (colorProperty "border" suffix) =
        colored.block.get? (colorProperty "border" suffix) := by
  have hopacity := hfaded.get?_opacityVariable hsuffix
  have hnone : faded.block.get? (colorProperty "border" suffix) = none := hfaded.get?_colorProperty
  simp only [Styling.get?_merge, hopacity, hnone, Option.some_or, Option.none_or, Option.or_none,
    true_and, and_true]
  split
  · next hempty =>
    rw [hempty, Color.get?_opacityVariable_empty hcolored hnodup hspecial, Option.none_or]
  · next hne =>
    rw [Color.get?_opacityVariable hcolored hnodup hspecial hsuffix hne, Option.some_or]

/-! ## The two tokens -/

theorem ReadsAs.color_styling {edges : List Edge} (hedges : edgesOf? side = some edges)
    (h : ReadsAs rules theme token .color side body) (hmath : isMathBody body = false)
    (hcolor : readColor? theme body = some color) (usage : Usage) :
    ∃ colored after, BorderCss.resolveToken rules theme token usage = (some colored, after) ∧
      color.stylings? "border" (edges.map Edge.suffix) = some colored := by
  have hne : edges.map Edge.suffix ≠ [] := (edgeSuffixes_distinct _ (edgesOf?_suffixes hedges)).1
  obtain ⟨suffix, rest, hsuffixes⟩ := List.exists_cons_of_ne_nil hne
  have hstylings : ∃ colored, color.stylings? "border" (edges.map Edge.suffix) = some colored := by
    rw [hsuffixes]
    exact ⟨_, rfl⟩
  obtain ⟨colored, hcolored⟩ := hstylings
  have hsettled : BorderCss.resolveToken rules theme token usage =
      settle usage (some ⟨colored, color.key?⟩) := by
    rw [h.resolveToken, color_sideOutcome?_some, String.ofList_toList, colorOutcome?, hedges,
      Option.bind_some, hmath, hcolor]
    simp only [Bool.false_eq_true, if_false, Option.bind_some, hcolored, Option.map_some]
  exact ⟨colored, _, hsettled, hcolored⟩

theorem ReadsAs.opacity_styling {edges : List Edge} (hedges : edgesOf? side = some edges)
    (h : ReadsAs rules theme token .opacity side body) {fragment : FragmentValue}
    (hvalue : resolveFragment? theme .percent none body = some fragment) (usage : Usage) :
    ∃ faded, BorderCss.resolveToken rules theme token usage = (some faded, usage) ∧
      faded.Fans (edges.map Edge.suffix) (opacityVariable "border") fragment.css := by
  rw [← String.ofList_toList (s := body)] at hvalue
  refine ⟨_, ?_, Styling.fans_fanOut (edgeSuffixes_distinct _ (edgesOf?_suffixes hedges)).2
    (opacityVariable_injective "border") fragment.css⟩
  rw [h.resolveToken, opacity_sideOutcome?_value hedges hvalue]
  rfl

/-- A colour that is no keyword and an opacity, on the same side. Merged behind the colour, the
opacity is that of every edge of the side. Merged ahead of it, it is if there is no side, and
otherwise the edges have the shared opacity instead, so that the order of the two tokens is of no
matter exactly if there is no side or the opacity is the shared one. Either way the colour of each
edge is kept. -/
theorem merge_color_opacity (theme : Theme) {rules : List Rule} {side : String}
    {edges : List Edge} (hside : (side, edges) ∈ edgeTable) {token body : String} {color : Color}
    (htoken : ReadsAs rules theme token .color side body) (hmath : isMathBody body = false)
    (hcolor : readColor? theme body = some color) (hspecial : color.isSpecial = false)
    {other raw css : String} (hother : ReadsAs rules theme other .opacity side raw)
    {before : Usage}
    (hcss : ((resolveFragment theme .percent none raw).runFrom before).1 = some css)
    (usage : Usage) :
    ∃ colored faded after,
      resolveToken rules theme token usage = (some colored, after) ∧
      resolveToken rules theme other usage = (some faded, usage) ∧
      (∀ edge ∈ edges,
        (colored.merge faded).block.get? ("--un-border" ++ edge.suffix ++ "-opacity") = some css ∧
        (faded.merge colored).block.get? ("--un-border" ++ edge.suffix ++ "-opacity") =
          some (if side = "" then css else "var(--un-border-opacity)") ∧
        ∃ mix, colored.block.get? ("border" ++ edge.suffix ++ "-color") = some mix ∧
          (colored.merge faded).block.get? ("border" ++ edge.suffix ++ "-color") = some mix ∧
          (faded.merge colored).block.get? ("border" ++ edge.suffix ++ "-color") = some mix) ∧
      ((∀ edge ∈ edges, (faded.merge colored).block.get?
          ("--un-border" ++ edge.suffix ++ "-opacity") = some css) ↔
        side = "" ∨ css = "var(--un-border-opacity)") := by
  obtain ⟨hedges, -⟩ := edgeTable_sides _ hside
  obtain ⟨hne, hnodup⟩ := edgeSuffixes_distinct _ (edgesOf?_suffixes hedges)
  obtain ⟨value, hvalue, rfl⟩ := exists_value_of_runFrom hcss
  obtain ⟨colored, after, hresolved, hcolored⟩ :=
    htoken.color_styling hedges hmath hcolor usage
  obtain ⟨faded, hresolved', hfaded⟩ := hother.opacity_styling hedges hvalue usage
  have hall : ∀ edge ∈ edges,
      (colored.merge faded).block.get? (opacityVariable "border" edge.suffix) = some value.css ∧
      (faded.merge colored).block.get? (opacityVariable "border" edge.suffix) =
        some (if side = "" then value.css else "var(--un-border-opacity)") ∧
      ∃ mix, colored.block.get? (colorProperty "border" edge.suffix) = some mix ∧
        (colored.merge faded).block.get? (colorProperty "border" edge.suffix) = some mix ∧
        (faded.merge colored).block.get? (colorProperty "border" edge.suffix) = some mix := by
    intro edge hedge
    have hsuffix : edge.suffix ∈ edges.map Edge.suffix := List.mem_map_of_mem hedge
    have hmix := Color.get?_colorProperty hcolored hnodup hspecial hsuffix
    obtain ⟨hbehind, hahead, hkept, hkept'⟩ :=
      get?_merge_color_opacity hcolored hfaded hnodup hspecial hsuffix
    simp only [suffix_eq_empty_iff _ hside edge hedge] at hahead
    exact ⟨hbehind, hahead, _, hmix, hkept.trans hmix, hkept'.trans hmix⟩
  refine ⟨colored, faded, after, hresolved, hresolved', hall, ⟨fun hahead => ?_, fun hcase => ?_⟩⟩
  · obtain ⟨edge, hedge⟩ := List.exists_mem_of_ne_nil edges fun hnil => hne (by rw [hnil]; rfl)
    have hboth := (hall edge hedge).2.1.symm.trans (hahead edge hedge)
    by_cases hempty : side = ""
    · exact .inl hempty
    · rw [if_neg hempty, Option.some.injEq] at hboth
      exact .inr hboth.symm
  · intro edge hedge
    refine (hall edge hedge).2.1.trans (congrArg some ?_)
    split
    · rfl
    · next hwritten => exact (hcase.resolve_left hwritten).symm

/-- A colour and an opacity of the left edge. -/
theorem merge_color_opacity_left :
    ∃ colored faded after,
      resolveToken borderRules .preset "b-l-red-500" .empty = (some colored, after) ∧
      resolveToken borderRules .preset "b-l-op-50" .empty = (some faded, .empty) ∧
      (∀ edge ∈ [Edge.left],
        (colored.merge faded).block.get? ("--un-border" ++ edge.suffix ++ "-opacity") =
          some "0.5" ∧
        (faded.merge colored).block.get? ("--un-border" ++ edge.suffix ++ "-opacity") =
          some (if "l" = "" then "0.5" else "var(--un-border-opacity)") ∧
        ∃ mix, colored.block.get? ("border" ++ edge.suffix ++ "-color") = some mix ∧
          (colored.merge faded).block.get? ("border" ++ edge.suffix ++ "-color") = some mix ∧
          (faded.merge colored).block.get? ("border" ++ edge.suffix ++ "-color") = some mix) ∧
      ((∀ edge ∈ [Edge.left], (faded.merge colored).block.get?
          ("--un-border" ++ edge.suffix ++ "-opacity") = some "0.5") ↔
        "l" = "" ∨ "0.5" = "var(--un-border-opacity)") := by
  have hside : ("l", [.left]) ∈ edgeTable := by decide
  have htoken : ReadsAs borderRules .preset "b-l-red-500" .color "l" "red-500" := by
    decide +kernel
  have hcolor : readColor? .preset "red-500" =
      some ⟨"red", some "500", .theme ["red", "500"] "#ef4444", none⟩ := by decide +kernel
  have hother : ReadsAs borderRules .preset "b-l-op-50" .opacity "l" "50" := by decide +kernel
  have hcss : ((resolveFragment .preset .percent none "50").runFrom .empty).1 = some "0.5" := by
    decide +kernel
  exact merge_color_opacity .preset hside htoken (by decide +kernel) hcolor (by rfl) hother hcss
    .empty

/-- Merged ahead of the colour, the opacity of the left edge gives way to the shared one. -/
theorem merge_opacity_color_left :
    ∃ color colored faded,
      ReadsAs borderRules .preset "b-l-red-500" .color "l" "red-500" ∧
      readColor? .preset "red-500" = some color ∧ color.isSpecial = false ∧ color.alpha = none ∧
      (resolveToken borderRules .preset "b-l-red-500" .empty).1 = some colored ∧
      ReadsAs borderRules .preset "b-l-op-50" .opacity "l" "50" ∧
      (resolveToken borderRules .preset "b-l-op-50" .empty).1 = some faded ∧
      faded.block.get? "--un-border-left-opacity" = some "0.5" ∧
      (faded.merge colored).block.get? "--un-border-left-opacity" =
        some "var(--un-border-opacity)" := by
  have hcolor : readColor? .preset "red-500" =
      some ⟨"red", some "500", .theme ["red", "500"] "#ef4444", none⟩ := by decide +kernel
  have hcolored : (resolveToken borderRules .preset "b-l-red-500" .empty).1 =
      some (Color.styling ⟨"red", some "500", .theme ["red", "500"] "#ef4444", none⟩ "border"
        "-left") := by decide +kernel
  have hfaded : (resolveToken borderRules .preset "b-l-op-50" .empty).1 =
      some (.fanOut ["-left"] (opacityVariable "border") "0.5") := by decide +kernel
  exact ⟨_, _, _, by decide +kernel, hcolor, rfl, rfl, hcolored, by decide +kernel, hfaded,
    by decide +kernel, by decide +kernel⟩

end BorderCss
