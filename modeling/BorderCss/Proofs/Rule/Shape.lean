import BorderCss.Proofs.Color.Edges
import BorderCss.Theme.Preset

/-!
# Shapes of stylings

Whatever the rules, a token that resolves has one of five shapes, one for each utility (`Shape`). A
shape spreads a property over the suffixes of a side or a corner in the order of their table, with
one value for all of them; only a mixed colour has a prelude. The main statement is
`resolveToken_shape`. A styling has no second shape, since the first property of each shape has a
last character of its own (`Shape.ending`).
-/

namespace BorderCss

/-- The suffixes of each side, in the order of output. -/
def edgeSuffixes : List (List String) :=
  edgeTable.map fun entry => entry.2.map Edge.suffix

/-- The suffixes of each corner part, in the order of output. -/
def cornerSuffixes : List (List String) :=
  cornerTable.map fun entry => entry.2.map Corner.suffix

/-- The styling sets one property per suffix, all to one value, and has no prelude. -/
structure Styling.Fans (styling : Styling) (suffixes : List String) (property : String → String)
    (value : String) : Prop where
  declarations : styling.declarations = suffixes.map fun suffix => ⟨property suffix, value⟩
  preludes : styling.preludes = []

/-- The styling sets the properties of its suffixes and no others. -/
theorem Styling.Fans.properties {styling : Styling} {suffixes : List String}
    {property : String → String} {value : String} (h : styling.Fans suffixes property value) :
    styling.block.properties = suffixes.map property := by
  have hdeclarations := congrArg (List.map Declaration.property) h.declarations
  rwa [List.map_map] at hdeclarations

/-- The shape of a styling that a utility makes. A colour has one of two: all edges are set to a
keyword, or each edge has a mix of its own, followed by its opacity on a single edge. -/
inductive Shape : Utility → Styling → Prop
  | width {styling : Styling} {suffixes : List String} {value : String}
      (side : suffixes ∈ edgeSuffixes)
      (fans : styling.Fans suffixes (fun suffix => "border" ++ suffix ++ "-width") value) :
      Shape .width styling
  | keyword {styling : Styling} {suffixes : List String} {keyword : SpecialColor}
      (side : suffixes ∈ edgeSuffixes)
      (fans : styling.Fans suffixes (fun suffix => "border" ++ suffix ++ "-color") keyword.css) :
      Shape .color styling
  | mix {styling : Styling} {suffixes : List String} {color : Color}
      (side : suffixes ∈ edgeSuffixes)
      (declarations : styling.declarations = suffixes.flatMap fun suffix =>
        ⟨"border" ++ suffix ++ "-color",
            "color-mix(in oklch, " ++ color.css ++ " " ++ color.percentage "border" suffix ++
              ", transparent)"⟩ ::
          if suffix = "" then []
          else [⟨"--un-border" ++ suffix ++ "-opacity", "var(--un-border-opacity)"⟩])
      (preludes : styling.preludes = ["@property --un-border-opacity" ++
        "\x7bsyntax:\"<number>\";inherits:false;initial-value:1;\x7d"]) :
      Shape .color styling
  | opacity {styling : Styling} {suffixes : List String} {value : String}
      (side : suffixes ∈ edgeSuffixes)
      (fans : styling.Fans suffixes (fun suffix => "--un-border" ++ suffix ++ "-opacity") value) :
      Shape .opacity styling
  | radius {styling : Styling} {suffixes : List String} {value : String}
      (corner : suffixes ∈ cornerSuffixes)
      (fans : styling.Fans suffixes (fun suffix => "border" ++ suffix ++ "-radius") value) :
      Shape .radius styling
  | lineStyle {styling : Styling} {suffixes : List String} {style : String}
      (side : suffixes ∈ edgeSuffixes) (keyword : style ∈ lineStyles)
      (declarations : styling.declarations = ⟨"--un-border-style", style⟩ ::
        suffixes.map fun suffix => ⟨"border" ++ suffix ++ "-style", style⟩)
      (preludes : styling.preludes = []) :
      Shape .lineStyle styling

/-! ## Suffixes -/

theorem edgesOf?_suffixes {side : String} {edges : List Edge} (h : edgesOf? side = some edges) :
    edges.map Edge.suffix ∈ edgeSuffixes := by
  obtain ⟨before, after, htable, -⟩ := List.lookup_eq_some_iff.1 h
  rw [edgeSuffixes, htable]
  simp

theorem cornersOf?_suffixes {corner : String} {corners : List Corner}
    (h : cornersOf? corner = some corners) : corners.map Corner.suffix ∈ cornerSuffixes := by
  obtain ⟨before, after, htable, -⟩ := List.lookup_eq_some_iff.1 h
  rw [cornerSuffixes, htable]
  simp

/-- A side has at least one suffix and no suffix twice. -/
theorem edgeSuffixes_distinct : ∀ suffixes ∈ edgeSuffixes, suffixes ≠ [] ∧ suffixes.Nodup := by
  decide

/-- A corner part has at least one suffix and no suffix twice. -/
theorem cornerSuffixes_distinct :
    ∀ suffixes ∈ cornerSuffixes, suffixes ≠ [] ∧ suffixes.Nodup := by
  decide

/-! ## The shape is unique -/

/-- The last character of the first property of a utility's shape. -/
def Utility.ending : Utility → Char
  | .width => 'h'
  | .color => 'r'
  | .opacity => 'y'
  | .radius => 's'
  | .lineStyle => 'e'

theorem Styling.Fans.head? {styling : Styling} {suffixes : List String}
    {property : String → String} {value : String}
    (h : styling.Fans suffixes property value) (hne : suffixes ≠ []) :
    ∃ suffix, styling.declarations.head? = some ⟨property suffix, value⟩ := by
  obtain ⟨suffix, rest, rfl⟩ := List.exists_cons_of_ne_nil hne
  exact ⟨suffix, by rw [h.declarations]; rfl⟩

/-- The first property of a shape ends like its utility. -/
theorem Shape.ending {utility : Utility} {styling : Styling} (h : Shape utility styling) :
    ∃ d, styling.declarations.head? = some d ∧
      d.property.toList.getLast? = some utility.ending := by
  cases h with
  | width side fans | keyword side fans | opacity side fans =>
    obtain ⟨suffix, hhead⟩ := fans.head? (edgeSuffixes_distinct _ side).1
    refine ⟨_, hhead, (getLast?_toList_append _ ?_).trans ?_⟩
    · decide
    · rfl
  | radius corner fans =>
    obtain ⟨suffix, hhead⟩ := fans.head? (cornerSuffixes_distinct _ corner).1
    refine ⟨_, hhead, (getLast?_toList_append _ ?_).trans ?_⟩
    · decide
    · rfl
  | @mix _ _ color side declarations preludes =>
    obtain ⟨suffix, rest, rfl⟩ := List.exists_cons_of_ne_nil (edgeSuffixes_distinct _ side).1
    have hhead : ∃ value,
        styling.declarations.head? = some ⟨"border" ++ suffix ++ "-color", value⟩ := by
      rw [declarations]
      exact ⟨_, rfl⟩
    obtain ⟨value, hhead⟩ := hhead
    refine ⟨_, hhead, (getLast?_toList_append _ ?_).trans ?_⟩
    · decide
    · rfl
  | @lineStyle _ _ style side keyword declarations preludes =>
    have hhead : styling.declarations.head? = some ⟨"--un-border-style", style⟩ := by
      rw [declarations]
      rfl
    refine ⟨_, hhead, ?_⟩
    show "--un-border-style".toList.getLast? = some 'e'
    decide

theorem Utility.ending_injective : Function.Injective Utility.ending := by
  intro a b h
  cases a <;> cases b <;> first | rfl | cases h

/-- A styling has the shape of one utility only. -/
theorem Shape.unique {a b : Utility} {styling : Styling} (ha : Shape a styling)
    (hb : Shape b styling) : a = b := by
  obtain ⟨d, hd, hda⟩ := ha.ending
  obtain ⟨d', hd', hdb⟩ := hb.ending
  rw [hd, Option.some.injEq] at hd'
  rw [← hd', hda, Option.some.injEq] at hdb
  exact Utility.ending_injective hdb

/-! ## The shape of an outcome -/

theorem Styling.fans_fanOut {suffixes : List String} {property : String → String}
    (hnodup : suffixes.Nodup) (hproperty : Function.Injective property) (value : String) :
    (Styling.fanOut suffixes property value).Fans suffixes property value := by
  refine ⟨Block.declarations_ofList ?_, rfl⟩
  rw [List.map_map]
  exact hnodup.map hproperty

variable {theme : Theme} {side body : String} {reading : Reading Styling}

theorem widthOutcome?_shape (h : widthOutcome? theme side body = some reading) :
    Shape .width reading.value := by
  obtain ⟨edges, hedges, h⟩ := Option.bind_eq_some_iff.1 h
  obtain ⟨value, -, rfl⟩ := Option.map_eq_some_iff.1 h
  have hside := edgesOf?_suffixes hedges
  exact .width hside
    (Styling.fans_fanOut (edgeSuffixes_distinct _ hside).2 (affix_injective "border" "-width") _)

/-- A colour has the shape of a keyword or of a mix. -/
theorem Color.stylings?_shape {color : Color} {suffixes : List String} {styling : Styling}
    (hside : suffixes ∈ edgeSuffixes) (h : color.stylings? "border" suffixes = some styling) :
    Shape .color styling := by
  have hdeclarations := Color.declarations_stylings? h (edgeSuffixes_distinct _ hside).2
  have hpreludes := Color.preludes_stylings? h
  cases hkind : color.kind with
  | special keyword =>
    have hspecial : color.isSpecial = true := by rw [Color.isSpecial, hkind]
    have hcss : color.css = keyword.css := by rw [Color.css, hkind]
    refine @Shape.keyword _ _ keyword hside ⟨?_, ?_⟩
    · rw [hdeclarations, Color.edge_of_special hspecial, hcss]
      exact List.map_eq_flatMap.symm
    · rw [hpreludes, Color.registrations, if_pos hspecial]
  | theme _ _ | literal _ =>
    have hspecial : ¬color.isSpecial = true := by
      rw [Color.isSpecial, hkind]
      exact Bool.false_ne_true
    refine @Shape.mix _ _ color hside ?_ ?_
    · rw [hdeclarations, Color.edge_of_not_special hspecial]
      rfl
    · rw [hpreludes, Color.registrations_border hspecial]

/-- A colour whose body is a math function has the shape of a width. -/
theorem colorOutcome?_shape (h : colorOutcome? theme side body = some reading) :
    ∃ utility, Shape utility reading.value := by
  obtain ⟨edges, hedges, h⟩ := Option.bind_eq_some_iff.1 h
  split at h
  · exact ⟨_, widthOutcome?_shape h⟩
  · obtain ⟨color, -, h⟩ := Option.bind_eq_some_iff.1 h
    obtain ⟨styling, hstyling, rfl⟩ := Option.map_eq_some_iff.1 h
    exact ⟨_, color.stylings?_shape (edgesOf?_suffixes hedges) hstyling⟩

theorem opacityOutcome?_shape (h : opacityOutcome? theme side body = some reading) :
    Shape .opacity reading.value := by
  obtain ⟨edges, hedges, h⟩ := Option.bind_eq_some_iff.1 h
  obtain ⟨value, -, rfl⟩ := Option.map_eq_some_iff.1 h
  have hside := edgesOf?_suffixes hedges
  exact .opacity hside
    (Styling.fans_fanOut (edgeSuffixes_distinct _ hside).2 (opacityVariable_injective "border") _)

theorem radiusOutcome?_shape (h : radiusOutcome? theme side body = some reading) :
    Shape .radius reading.value := by
  obtain ⟨corners, hcorners, h⟩ := Option.bind_eq_some_iff.1 h
  obtain ⟨value, -, rfl⟩ := Option.map_eq_some_iff.1 h
  have hcorner := cornersOf?_suffixes hcorners
  exact .radius hcorner
    (Styling.fans_fanOut (cornerSuffixes_distinct _ hcorner).2 (affix_injective "border" "-radius")
      _)

theorem lineStyling?_shape {styling : Styling} (h : lineStyling? side body = some styling) :
    Shape .lineStyle styling := by
  unfold lineStyling? at h
  split at h
  · next hkeyword =>
    obtain ⟨edges, hedges, rfl⟩ := Option.map_eq_some_iff.1 h
    have hside := edgesOf?_suffixes hedges
    have hproperties : (((edges.map Edge.suffix).map fun suffix =>
        (⟨lineStyleProperty suffix, body⟩ : Declaration)).map Declaration.property).Nodup := by
      rw [List.map_map]
      exact (edgeSuffixes_distinct _ hside).2.map (affix_injective "border" "-style")
    refine .lineStyle hside (List.contains_iff_mem.1 hkeyword) (Block.declarations_ofList ?_) rfl
    refine List.nodup_cons.2 ⟨?_, hproperties⟩
    simp [lineStyleProperty, ← String.toList_inj]
  · cases h

/-- Whatever a utility makes of captures has a shape. -/
theorem Utility.outcome?_shape {utility : Utility} {captures : Captures}
    (h : utility.outcome? theme captures = some reading) :
    ∃ utility, Shape utility reading.value := by
  cases utility with
  | width => exact ⟨_, widthOutcome?_shape h⟩
  | color =>
    obtain ⟨body, -, h⟩ := Option.bind_eq_some_iff.1 h
    exact colorOutcome?_shape h
  | opacity =>
    obtain ⟨body, -, h⟩ := Option.bind_eq_some_iff.1 h
    exact ⟨_, opacityOutcome?_shape h⟩
  | radius => exact ⟨_, radiusOutcome?_shape h⟩
  | lineStyle =>
    obtain ⟨styling, hstyling, rfl⟩ := Option.map_eq_some_iff.1 h
    obtain ⟨body, -, hbody⟩ := Option.bind_eq_some_iff.1 hstyling
    exact ⟨_, lineStyling?_shape hbody⟩

/-- A shape relies on no prelude other than the registration of the shared opacity. -/
theorem Shape.preludes {utility : Utility} {styling : Styling} (h : Shape utility styling) :
    ∀ prelude ∈ styling.preludes, prelude = "@property --un-border-opacity" ++
      "\x7bsyntax:\"<number>\";inherits:false;initial-value:1;\x7d" := by
  cases h with
  | width _ fans | keyword _ fans | opacity _ fans | radius _ fans =>
    rw [fans.preludes]
    exact nofun
  | mix _ _ preludes =>
    rw [preludes]
    exact fun _ => List.mem_singleton.1
  | lineStyle _ _ _ preludes =>
    rw [preludes]
    exact nofun

/-! ## The shape of a token's styling -/

theorem tokenStyling?_shape {rules : List Rule} {token : String} {styling : Styling}
    (h : tokenStyling? rules theme token = some styling) : ∃ utility, Shape utility styling := by
  rw [tokenStyling?, resolveToken_eq, settle_fst] at h
  obtain ⟨reading, hreading, rfl⟩ := Option.map_eq_some_iff.1 h
  obtain ⟨rule, -, hrule⟩ := List.exists_of_findSome?_eq_some hreading
  obtain ⟨captures, -, hcaptures⟩ := Option.bind_eq_some_iff.1 hrule
  exact Utility.outcome?_shape hcaptures

/-- A token that resolves has exactly one of the five shapes. It declares something, and no property
twice. -/
theorem resolveToken_shape {rules : List Rule} {token : String} {usage : Usage}
    {styling : Styling} (h : (resolveToken rules theme token usage).1 = some styling) :
    (∃! utility, Shape utility styling) ∧ styling.block.properties.Nodup ∧
      styling.declarations ≠ [] := by
  rw [resolveToken_eq, settle_fst] at h
  obtain ⟨reading, hreading, rfl⟩ := Option.map_eq_some_iff.1 h
  obtain ⟨rule, -, hrule⟩ := List.exists_of_findSome?_eq_some hreading
  obtain ⟨captures, -, hcaptures⟩ := Option.bind_eq_some_iff.1 hrule
  obtain ⟨utility, hshape⟩ := Utility.outcome?_shape hcaptures
  refine ⟨⟨utility, hshape, fun _ hother => hother.unique hshape⟩, reading.value.block.nodup, ?_⟩
  obtain ⟨d, hd, -⟩ := hshape.ending
  intro hnil
  rw [hnil] at hd
  cases hd

/-- A colour of the built-in theme on the two horizontal edges is such a token. -/
theorem resolveToken_shape_axis :
    ∃ styling, (resolveToken borderRules .preset "b-x-red-500" .empty).1 = some styling ∧
      (∃! utility, Shape utility styling) ∧ styling.block.properties.Nodup ∧
        styling.declarations ≠ [] := by
  have haccepted : (resolveToken borderRules .preset "b-x-red-500" .empty).1.isSome := by
    decide +kernel
  obtain ⟨styling, hstyling⟩ := Option.isSome_iff_exists.1 haccepted
  exact ⟨styling, hstyling, resolveToken_shape hstyling⟩

end BorderCss
