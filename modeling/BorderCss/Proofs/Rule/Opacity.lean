import BorderCss.Proofs.Css.Reference
import BorderCss.Proofs.Rule.Color

/-!
# Opacity tokens

An opacity token sets the variables that the colours of its side read for their opacity
(`resolveToken_opacity`). The families of widths and colours see the token first, with the word for
opacities as a part of the body, and decline it: the word begins no width, and the text must be no
colour of its own. The variable names are built twice, by the token and by the colour, and
`Color.takesOpacity` says that the two agree on every side. A colour may also be made from an
opacity variable, which it then reads on whatever edge it is (`resolveToken_opacity_foreign`).
-/

namespace BorderCss

variable {theme : Theme} {side lead : String} {edges : List Edge} {text body : List Char}

/-! ## The words for opacities -/

/-- The words for opacities, with the hyphen behind them. -/
def opacityLeads : List String := ["op-", "opacity-"]

/-- A text behind a word for opacities begins with a word that is none of the others. -/
theorem worded_opacity (hlead : lead ∈ opacityLeads) (body : List Char) :
    Worded (lead.toList ++ body) ∧
      firstWord (lead.toList ++ body) ∉ wideKeywords.map (firstWord ·.toList) ∧
      String.ofList (firstWord (lead.toList ++ body)) ∉ "color" :: borderSideWords := by
  have hword : ∃ word ∈ ["op", "opacity"], firstWord (lead.toList ++ body) = word.toList := by
    rcases List.mem_pair.1 hlead with rfl | rfl
    · exact ⟨"op", by decide, rfl⟩
    · exact ⟨"opacity", by decide, rfl⟩
  obtain ⟨word, hmem, hfirst⟩ := hword
  have hwords : ∀ word ∈ ["op", "opacity"], word.toList ≠ [] ∧
      word.toList.all Char.isLower = true ∧
      word.toList ∉ wideKeywords.map (firstWord ·.toList) ∧
      word ∉ "color" :: borderSideWords := by decide +kernel
  obtain ⟨hnonempty, hlower, hwide, hother⟩ := hwords word hmem
  rw [hfirst, String.ofList_toList]
  refine ⟨⟨?_, ?_⟩, hwide, hother⟩
  · rwa [hfirst]
  · rw [hfirst]
    exact List.all_eq_true.1 hlower

/-- The word for opacities is none of the words for widths. -/
theorem widthTail_body?_opacity (hlead : lead ∈ opacityLeads) (body : List Char) :
    widthTail.body? ('-' :: (lead.toList ++ body)) = none := by
  rw [widthTail.body?_hyphen]
  rcases List.mem_pair.1 hlead with rfl | rfl <;> rfl

/-- Behind a word for opacities, the body is what follows the word. -/
theorem opacityTail_body? (hlead : lead ∈ opacityLeads) (h : isLine body = true) :
    opacityTail.body? ('-' :: (lead.toList ++ body)) = some (some body) := by
  have hleads : opacityTail.leads = ["opacity-", "opacity", "op-", "op"] := rfl
  have hcut : cutStart? lead.toList (lead.toList ++ body) = some body :=
    cutStart?_eq_some_iff.2 rfl
  rw [opacityTail.body?_hyphen, hleads]
  rcases List.mem_pair.1 hlead with rfl | rfl
  · have hlong : cutStart? "opacity-".toList ("op-".toList ++ body) = none := rfl
    have hbare : cutStart? "opacity".toList ("op-".toList ++ body) = none := rfl
    rw [List.findSome?_cons, hlong, Option.bind_none, List.findSome?_cons, hbare, Option.bind_none,
      List.findSome?_cons, hcut, Option.bind_some, if_pos h]
  · rw [List.findSome?_cons, hcut, Option.bind_some, if_pos h]

/-- A text that begins with a side does not begin with a word for opacities. -/
theorem opacityTail_body?_side (h : String.ofList (firstWord text) ∈ borderSideWords) :
    opacityTail.body? ('-' :: text) = none := by
  have hleads : ∀ lead ∈ opacityTail.leads, lead.toList.head? = some 'o' := by decide
  have hsides : ∀ word ∈ borderSideWords, word.toList.head? ≠ some 'o' := by decide
  have hhead : text.head? ≠ some 'o' := by
    have hword := hsides _ h
    obtain ⟨c, rest, rfl, hc⟩ := (worded_mark (List.mem_append_right _ h)).1.head
    rwa [String.toList_ofList, firstWord_cons (ne_of_isLower hc (by decide))] at hword
  rw [opacityTail.body?_hyphen, List.findSome?_eq_none_iff]
  intro lead hlead
  cases hcut : cutStart? lead.toList text with
  | none => rfl
  | some body =>
    rw [cutStart?_eq_some_iff.1 hcut, List.head?_append, hleads lead hlead] at hhead
    exact absurd rfl hhead

/-! ## The family of opacities -/

theorem opacity_sideOutcome?_value {value : FragmentValue} (hside : edgesOf? side = some edges)
    (hvalue : resolveFragment? theme .percent none (String.ofList body) = some value) :
    Utility.opacity.sideOutcome? theme side (some body) =
      some ⟨.fanOut (edges.map Edge.suffix) (opacityVariable "border") value.css, none⟩ := by
  have hkey := resolveFragment?_key hvalue
  rw [Utility.sideOutcome?, Utility.outcome?, Captures.getD_side]
  show opacityOutcome? theme side (String.ofList body) = _
  rw [opacityOutcome?, hside, Option.bind_some, hvalue]
  simp only [Option.map_some, FragmentValue.reading, Reading.map, hkey]

variable {stem token : String} {reading : Reading Styling}

/-- The first two families have no use for a text behind a word for opacities, nor has the third if
the text is no colour; the fourth takes the body. -/
theorem opacityAttempts (hlead : lead ∈ opacityLeads) (hline : isLine body = true)
    (hnone : readColor? theme (String.ofList (lead.toList ++ body)) = none) (side : String) :
    (optionalTail.body? ('-' :: (lead.toList ++ body))).bind
        (Utility.width.sideOutcome? theme side) = none ∧
      (widthTail.body? ('-' :: (lead.toList ++ body))).bind
        (Utility.width.sideOutcome? theme side) = none ∧
      (colorTail.body? ('-' :: (lead.toList ++ body))).bind
        (Utility.color.sideOutcome? theme side) = none ∧
      (opacityTail.body? ('-' :: (lead.toList ++ body))).bind
        (Utility.opacity.sideOutcome? theme side) =
        Utility.opacity.sideOutcome? theme side (some body) := by
  obtain ⟨hworded, hwide, hother⟩ := worded_opacity hlead body
  refine ⟨optionalTail_eq_none ?_, ?_, colorTail_eq_none hworded ?_ hnone, ?_⟩
  · refine resolveFragment?_px_worded ?_ ?_ <;> rwa [String.toList_ofList]
  · rw [widthTail_body?_opacity hlead, Option.bind_none]
  · exact fun h => hother (h ▸ List.mem_cons_self)
  · rw [opacityTail_body? hlead hline, Option.bind_some]

/-- An opacity without a side is the opacity of the whole border. -/
theorem findSome?_unsidedOpacity (hstem : stem ∈ borderStem.words) (hlead : lead ∈ opacityLeads)
    (hline : isLine body = true)
    (hnone : readColor? theme (String.ofList (lead.toList ++ body)) = none)
    (haccept : Utility.opacity.sideOutcome? theme "" (some body) = some reading)
    (htoken : token.toList = stem.toList ++ '-' :: (lead.toList ++ body)) :
    borderRules.findSome? (·.outcome? theme token) = some reading := by
  have hside : String.ofList (firstWord (lead.toList ++ body)) ∉ borderSideWords :=
    fun h => (worded_opacity hlead body).2.2 (List.mem_cons_of_mem _ h)
  obtain ⟨hoptional, hwidth, hcolor, hopacity⟩ := opacityAttempts hlead hline hnone ""
  obtain ⟨others, hall⟩ := findSome?_borderRules_hyphen theme hstem htoken
  rw [hall, familyOutcome?, familyOutcome?, familyOutcome?, familyOutcome?, if_neg hside,
    if_neg hside, if_neg hside, hoptional, hwidth, hcolor, hopacity, haccept]
  rfl

/-- An opacity behind a side is the opacity of that side. -/
theorem findSome?_sidedOpacity (hstem : stem ∈ borderStem.words) (hword : side ∈ borderSideWords)
    (hlead : lead ∈ opacityLeads) (hline : isLine body = true)
    (hnone : readColor? theme (String.ofList (lead.toList ++ body)) = none)
    (hother : readColor? theme
      (String.ofList (side.toList ++ '-' :: (lead.toList ++ body))) = none)
    (haccept : Utility.opacity.sideOutcome? theme side (some body) = some reading)
    (htoken : token.toList = stem.toList ++ '-' :: (side.toList ++ '-' :: (lead.toList ++ body))) :
    borderRules.findSome? (·.outcome? theme token) = some reading := by
  have hhyphen := borderSideWords_hyphen side hword
  have htext := firstWord_hyphen (lead.toList ++ body)
  have hfirst := ofList_firstWord hhyphen htext
  have hafter := (afterWord_append hhyphen ('-' :: (lead.toList ++ body))).trans
    (afterWord_of_firstWord htext)
  have hmark : side ∈ markWords := List.mem_append_right _ hword
  obtain ⟨hoptional, hwidth, hcolor, hopacity⟩ := opacityAttempts hlead hline hnone side
  obtain ⟨others, hall⟩ := findSome?_borderRules_hyphen theme hstem htoken
  -- each family sees the token twice: with the side as a part of the body, and behind the side
  rw [hall, familyOutcome?, familyOutcome?, familyOutcome?, familyOutcome?,
    optionalTail_mark (by rwa [hfirst]), widthTail_body?_side (by rwa [hfirst]),
    colorTail_side (by rwa [hfirst]) hother, opacityTail_body?_side (by rwa [hfirst]), hfirst,
    if_pos hword, if_pos hword, if_pos hword, if_pos hword, hafter, hoptional, hwidth, hcolor,
    hopacity, haccept]
  rfl

/-! ## Colours that take an opacity -/

/-- A mix reads what the colour and the percentage read. -/
theorem references_mixed (css percentage : String) :
    references (mixed css percentage) =
      references css ++ references (percentage ++ ", transparent)") := by
  have hmixed : mixed css percentage =
      ("color-mix(in oklch," ++ " " ++ css) ++ " " ++ (percentage ++ ", transparent)") := by
    unfold mixed
    simp [← String.toList_inj]
  have hnone : references "color-mix(in oklch," = [] := rfl
  rw [hmixed, references_join, references_join, hnone, List.nil_append]

theorem suffix_name (edge : Edge) :
    edge.suffix.toList.all (fun c => isReferenceName c && c ≠ '(') = true := by
  cases edge <;> rfl

/-- The name of an opacity variable of an edge is one name in a reference. -/
theorem opacityVariable_name (edge : Edge) : ∀ c ∈ (opacityVariable "border" edge.suffix).toList,
    isReferenceName c = true ∧ c ≠ '(' := by
  have hbefore : ("--un-" ++ "border").toList.all (fun c => isReferenceName c && c ≠ '(') = true :=
    rfl
  have hafter : "-opacity".toList.all (fun c => isReferenceName c && c ≠ '(') = true := rfl
  have hall : (opacityVariable "border" edge.suffix).toList.all
      (fun c => isReferenceName c && c ≠ '(') = true := by
    rw [opacityVariable, String.toList_append, String.toList_append, List.all_append,
      List.all_append, hbefore, suffix_name, hafter]
    rfl
  simpa using hall

variable {color : Color}

/-- The percentage of a colour without an alpha reads the opacity of its edge. -/
theorem Color.references_percentage (halpha : color.alpha = none) (edge : Edge) {rest : String}
    (hrest : '(' ∉ rest.toList) :
    references (color.percentage "border" edge.suffix ++ rest) =
      [opacityVariable "border" edge.suffix] := by
  have hname := opacityVariable_name edge
  have htext : ("calc(var(" ++ opacityVariable "border" edge.suffix ++ ") * 100%)" ++
      rest).toList = 'c' :: 'a' :: 'l' :: 'c' :: '(' :: (referenceOpening ++
        ((opacityVariable "border" edge.suffix).toList ++
          ')' :: (" * 100%)".toList ++ rest.toList))) := by
    simp [referenceOpening]
  have hclosing : '(' ∉ " * 100%)".toList ++ rest.toList :=
    fun h => (List.mem_append.1 h).elim (by decide) hrest
  rw [Color.percentage, halpha]
  dsimp only
  rw [references, htext]
  -- no reference begins within the name of the function
  show referencesFrom (referenceOpening ++ _) = _
  rw [referencesFrom_opening (fun c hc => (hname c hc).1) (fun h => (hname _ h).2 rfl) hclosing,
    String.ofList_toList]

/-- The colour of one of the edges reads the custom property. What is declared besides the colours
is left out: the fallback of the opacity of a single edge, which reads the shared opacity, is the
subject of `Color.TakesOpacity.falls_back`. -/
def Color.Reads (color : Color) (edges : List Edge) (name : String) : Prop :=
  ∃ edge ∈ edges, ∃ value,
    ⟨"border" ++ edge.suffix ++ "-color", value⟩ ∈
      (color.styling "border" edge.suffix).declarations ∧
    name ∈ references value

/-- The colour of one of the edges reads the custom property for its opacity, in the percentage that
it is mixed by. -/
def Color.ReadsForOpacity (color : Color) (edges : List Edge) (name : String) : Prop :=
  ∃ edge ∈ edges, ∃ percentage,
    ⟨"border" ++ edge.suffix ++ "-color",
        "color-mix(in oklch, " ++ color.css ++ " " ++ percentage ++ ", transparent)"⟩ ∈
      (color.styling "border" edge.suffix).declarations ∧
    name ∈ references percentage

/-- The opacity of a colour is left to some variables. -/
structure Color.TakesOpacity (color : Color) (edges : List Edge) (names : List String) : Prop where
  /-- They are what the colours of the edges read for their opacity. -/
  reads_for_opacity : ∀ name, name ∈ names ↔ color.ReadsForOpacity edges name
  /-- Other than that the colours of the edges read what the colour itself reads, among which is an
  opacity variable only if the colour is made from one. -/
  reads : ∀ name, color.Reads edges name ↔ name ∈ names ∨ name ∈ references color.css
  /-- Whatever is declared besides the colours sets one of the variables to the shared one. -/
  falls_back : ∀ edge ∈ edges, ∀ d ∈ (color.styling "border" edge.suffix).declarations,
    d.property ≠ "border" ++ edge.suffix ++ "-color" →
      d.property ∈ names ∧ d.value = "var(--un-border-opacity)"
  /-- The shared variable is registered. -/
  registers : ∀ edge ∈ edges, (color.styling "border" edge.suffix).preludes =
    ["@property --un-border-opacity" ++
      "\x7bsyntax:\"<number>\";inherits:false;initial-value:1;\x7d"]

/-- The one value of the colour of an edge is its mix. -/
theorem Color.mem_declarations_styling (hspecial : color.isSpecial = false) {edge : Edge}
    {value : String} :
    ⟨"border" ++ edge.suffix ++ "-color", value⟩ ∈
        (color.styling "border" edge.suffix).declarations ↔
      value = mixed color.css (color.percentage "border" edge.suffix) := by
  have hne : "border" ++ edge.suffix ++ "-color" ≠ opacityVariable "border" edge.suffix :=
    colorProperty_ne_opacityVariable "border" edge.suffix edge.suffix
  rw [Color.declarations_styling, Color.mem_edge hspecial, Declaration.mk.injEq,
    Declaration.mk.injEq]
  constructor
  · rintro (⟨-, hvalue⟩ | ⟨-, hproperty, -⟩)
    · exact hvalue
    · exact absurd hproperty hne
  · exact fun hvalue => .inl ⟨rfl, hvalue⟩

/-- A mix shows its percentage. -/
theorem eq_mixed_iff {css percentage other : String} :
    "color-mix(in oklch, " ++ css ++ " " ++ percentage ++ ", transparent)" = mixed css other ↔
      percentage = other := by
  unfold mixed
  simp

section

variable (hspecial : color.isSpecial = false) (halpha : color.alpha = none) {name : String}
include hspecial halpha

theorem Color.readsForOpacity_iff : color.ReadsForOpacity edges name ↔
    name ∈ edges.map fun edge => opacityVariable "border" edge.suffix := by
  have hnone : '(' ∉ "".toList := by decide
  have hpercentage : ∀ edge : Edge, references (color.percentage "border" edge.suffix) =
      [opacityVariable "border" edge.suffix] := by
    intro edge
    have hempty := Color.references_percentage halpha edge hnone
    rwa [String.append_empty] at hempty
  simp only [Color.ReadsForOpacity, Color.mem_declarations_styling hspecial,
    eq_mixed_iff, exists_eq_left, hpercentage, List.mem_singleton, List.mem_map]
  exact exists_congr fun edge => and_congr_right fun _ => eq_comm

theorem Color.reads_iff (hne : edges ≠ []) : color.Reads edges name ↔
    name ∈ edges.map (fun edge => opacityVariable "border" edge.suffix) ∨
      name ∈ references color.css := by
  have hclosing : '(' ∉ ", transparent)".toList := by decide
  have hmixed : ∀ edge : Edge,
      references (mixed color.css (color.percentage "border" edge.suffix)) =
        references color.css ++ [opacityVariable "border" edge.suffix] := by
    intro edge
    rw [references_mixed, Color.references_percentage halpha edge hclosing]
  obtain ⟨first, hfirst⟩ := List.exists_mem_of_ne_nil edges hne
  simp only [Color.Reads, Color.mem_declarations_styling hspecial, exists_eq_left, hmixed,
    List.mem_append, List.mem_singleton, List.mem_map]
  constructor
  · rintro ⟨edge, hedge, hcss | rfl⟩
    · exact .inr hcss
    · exact .inl ⟨edge, hedge, rfl⟩
  · rintro (⟨edge, hedge, rfl⟩ | hcss)
    · exact ⟨edge, hedge, .inr rfl⟩
    · exact ⟨first, hfirst, .inl hcss⟩

/-- A colour without an alpha leaves its opacity to the variables of its edges. -/
theorem Color.takesOpacity (hne : edges ≠ []) :
    color.TakesOpacity edges (edges.map fun edge => opacityVariable "border" edge.suffix) where
  reads_for_opacity _ := (Color.readsForOpacity_iff hspecial halpha).symm
  reads _ := Color.reads_iff hspecial halpha hne
  falls_back := by
    intro edge hedge d hd hother
    rw [Color.declarations_styling, Color.mem_edge hspecial] at hd
    obtain rfl | ⟨-, rfl⟩ := hd
    · exact absurd rfl hother
    · exact ⟨List.mem_map_of_mem hedge, rfl⟩
  registers := by
    intro edge _
    rw [Color.preludes_styling, Color.registrations_border (by simp [hspecial])]

end

/-! ## Opacity tokens -/

/-- The edges of a side have suffixes exactly when the side is written. -/
theorem suffix_eq_empty_iff :
    ∀ entry ∈ edgeTable, ∀ edge ∈ entry.2, edge.suffix = "" ↔ entry.1 = "" := by
  decide

/-- On a single edge a colour sets the opacity to the shared one. -/
theorem Color.mem_declarations_fallback (hspecial : color.isSpecial = false) {edge : Edge}
    (hsuffix : edge.suffix ≠ "") :
    ⟨opacityVariable "border" edge.suffix, "var(--un-border-opacity)"⟩ ∈
      (color.styling "border" edge.suffix).declarations := by
  rw [Color.declarations_styling, Color.mem_edge hspecial]
  exact .inr ⟨hsuffix, rfl⟩

/-- A word for opacities and a body, behind any side, set the opacity of that side. -/
theorem findSome?_opacity {raw : String} {value : FragmentValue} (hstem : stem ∈ borderStem.words)
    (hside : (side, edges) ∈ edgeTable) (hlead : lead ∈ opacityLeads)
    (hline : isLine raw.toList = true)
    (hvalue : resolveFragment? theme .percent none raw = some value)
    (hcolor : readColor? theme (lead ++ raw) = none)
    (hother : side ≠ "" → readColor? theme (side ++ "-" ++ lead ++ raw) = none) :
    borderRules.findSome? (·.outcome? theme (sided stem side ++ "-" ++ lead ++ raw)) =
      some ⟨.fanOut (edges.map Edge.suffix) (opacityVariable "border") value.css, none⟩ := by
  obtain ⟨hedges, hword⟩ := edgeTable_sides _ hside
  have hnone : readColor? theme (String.ofList (lead.toList ++ raw.toList)) = none := by
    rw [← hcolor]
    refine congrArg (readColor? theme) ?_
    simp
  rw [← String.ofList_toList (s := raw)] at hvalue
  have haccept := opacity_sideOutcome?_value hedges hvalue
  rcases hword with rfl | hword
  · refine findSome?_unsidedOpacity hstem hlead hline hnone haccept ?_
    simp [sided]
  · have hsided : side ≠ "" := ne_of_mem_of_not_mem hword (by decide)
    refine findSome?_sidedOpacity hstem hword hlead hline hnone ?_ haccept ?_
    · rw [← hother hsided]
      refine congrArg (readColor? theme) ?_
      simp [← String.toList_inj]
    · simp [sided, hsided]

/-- The stem of a border, any side, a word for opacities, and a fragment that has a value as a
percentage: the token sets the opacity variable of each edge of the side to that value and nothing
else, and refers to no theme key. These are the variables that any colour without an alpha leaves
its opacity to on the side, whatever else the colour may read; on a single edge the colour sets them
to the shared variable, which the token without a side sets and the colour registers. The text
behind the stem must not be a colour, with the side or without it, since the rules for colours would
take it. -/
theorem resolveToken_opacity (theme : Theme) {stem side : String} {edges : List Edge}
    (hstem : stem ∈ ["border", "b"]) (hside : (side, edges) ∈ edgeTable) {lead raw css : String}
    {before : Usage} (hlead : lead ∈ ["op-", "opacity-"]) (hne : raw ≠ "")
    (hline : '\n' ∉ raw.toList)
    (hcss : ((resolveFragment theme .percent none raw).runFrom before).1 = some css)
    (hcolor : readColor? theme (lead ++ raw) = none)
    (hother : side ≠ "" → readColor? theme (side ++ "-" ++ lead ++ raw) = none) (usage : Usage) :
    ∃ styling,
      resolveToken borderRules theme (sided stem side ++ "-" ++ lead ++ raw) usage =
        (some styling, usage) ∧
      styling.Fans (edges.map Edge.suffix) (fun suffix => "--un-border" ++ suffix ++ "-opacity")
        css ∧
      (∀ color : Color, color.isSpecial = false → color.alpha = none →
        color.TakesOpacity edges styling.block.properties ∧
        (side ≠ "" → ∀ name ∈ styling.block.properties, ∃ edge ∈ edges,
          ⟨name, "var(--un-border-opacity)"⟩ ∈
            (color.styling "border" edge.suffix).declarations)) ∧
      ∃ shared, resolveToken borderRules theme (stem ++ "-" ++ lead ++ raw) usage =
          (some shared, usage) ∧
        shared.declarations = [⟨"--un-border-opacity", css⟩] := by
  have hbody : isLine raw.toList = true := by simp [isLine, hne, hline]
  obtain ⟨value, hvalue, rfl⟩ := exists_value_of_runFrom hcss
  obtain ⟨hnonempty, hnodup⟩ :=
    edgeSuffixes_distinct _ (edgesOf?_suffixes (edgeTable_sides _ hside).1)
  have hfans := Styling.fans_fanOut hnodup (opacityVariable_injective "border") value.css
  have hproperties : (Styling.fanOut (edges.map Edge.suffix) (opacityVariable "border")
      value.css).block.properties = edges.map fun edge => opacityVariable "border" edge.suffix := by
    rw [hfans.properties, List.map_map]
    rfl
  have hshared : ("", [.all]) ∈ edgeTable := by decide
  have hwhole := Styling.fans_fanOut (List.nodup_singleton Edge.all.suffix)
    (opacityVariable_injective "border") value.css
  refine ⟨_, ?_, hfans, fun color hspecial halpha => ⟨?_, fun hsided name hname => ?_⟩, _, ?_,
    hwhole.declarations⟩
  · rw [resolveToken_eq, findSome?_opacity hstem hside hlead hbody hvalue hcolor hother]
    rfl
  · rw [hproperties]
    exact Color.takesOpacity hspecial halpha fun hnil => hnonempty (by rw [hnil]; rfl)
  · rw [hproperties] at hname
    obtain ⟨edge, hedge, rfl⟩ := List.mem_map.1 hname
    exact ⟨edge, hedge, Color.mem_declarations_fallback hspecial
      (mt (suffix_eq_empty_iff _ hside edge hedge).1 hsided)⟩
  · have hbare := findSome?_opacity hstem hshared hlead hbody hvalue hcolor (absurd rfl ·)
    rw [sided, if_pos rfl] at hbare
    rw [resolveToken_eq, hbare]
    rfl

/-- An opacity of the two horizontal edges. -/
theorem resolveToken_opacity_axis :
    ∃ styling, resolveToken borderRules .preset "b-x-op-50" .empty = (some styling, .empty) ∧
      styling.Fans ["-left", "-right"] (fun suffix => "--un-border" ++ suffix ++ "-opacity")
        "0.5" ∧
      (∀ color : Color, color.isSpecial = false → color.alpha = none →
        color.TakesOpacity [.left, .right] styling.block.properties ∧
        ("x" ≠ "" → ∀ name ∈ styling.block.properties, ∃ edge ∈ [Edge.left, .right],
          ⟨name, "var(--un-border-opacity)"⟩ ∈
            (color.styling "border" edge.suffix).declarations)) ∧
      ∃ shared, resolveToken borderRules .preset "b-op-50" .empty = (some shared, .empty) ∧
        shared.declarations = [⟨"--un-border-opacity", "0.5"⟩] := by
  have hstem : "b" ∈ ["border", "b"] := by decide
  have hside : ("x", [.left, .right]) ∈ edgeTable := by decide
  have hlead : "op-" ∈ ["op-", "opacity-"] := by decide
  have hcss : ((resolveFragment .preset .percent none "50").runFrom .empty).1 = some "0.5" := by
    decide +kernel
  have hcolor : readColor? .preset "op-50" = none :=
    Option.isNone_iff_eq_none.1 (by decide +kernel)
  have hother : readColor? .preset "x-op-50" = none :=
    Option.isNone_iff_eq_none.1 (by decide +kernel)
  exact resolveToken_opacity .preset hstem hside hlead (by decide) (by decide) hcss hcolor
    (fun _ => hother) .empty

/-- The opacity of the left edge, and the opacity variable of the top edge as a colour of the left
one: the colour reads an opacity variable that the token does not set. -/
theorem resolveToken_opacity_foreign :
    ∃ color styling,
      readColor? .preset "$un-border-top-opacity" = some color ∧
      color.isSpecial = false ∧ color.alpha = none ∧
      ((resolveFragment .preset .percent none "50").runFrom .empty).1 = some "0.5" ∧
      readColor? .preset "op-50" = none ∧ readColor? .preset "l-op-50" = none ∧
      resolveToken borderRules .preset "b-l-op-50" .empty = (some styling, .empty) ∧
      styling.declarations = [⟨"--un-border-left-opacity", "0.5"⟩] ∧
      color.Reads [.left] "--un-border-top-opacity" ∧
      ¬∀ name, name ∈ styling.block.properties ↔
        (∃ edge : Edge, name = "--un-border" ++ edge.suffix ++ "-opacity") ∧
          color.Reads [.left] name := by
  have hcolor : readColor? .preset "$un-border-top-opacity" =
      some ⟨"$un-border-top-opacity", none, .literal "var(--un-border-top-opacity)", none⟩ := by
    decide +kernel
  have hcss : ((resolveFragment .preset .percent none "50").runFrom .empty).1 = some "0.5" := by
    decide +kernel
  have hwhole : readColor? .preset "op-50" = none :=
    Option.isNone_iff_eq_none.1 (by decide +kernel)
  have hleft : readColor? .preset "l-op-50" = none :=
    Option.isNone_iff_eq_none.1 (by decide +kernel)
  have hresolved : resolveToken borderRules .preset "b-l-op-50" .empty =
      (some (.fanOut ["-left"] (opacityVariable "border") "0.5"), .empty) := by
    decide +kernel
  have hreads : Color.Reads
      ⟨"$un-border-top-opacity", none, .literal "var(--un-border-top-opacity)", none⟩ [.left]
      "--un-border-top-opacity" :=
    (Color.reads_iff rfl rfl (by decide)).2 (.inr (by decide +kernel))
  refine ⟨_, _, hcolor, rfl, rfl, hcss, hwhole, hleft, hresolved, by decide, hreads,
    fun hall => ?_⟩
  exact absurd ((hall _).2 ⟨⟨.top, by decide⟩, hreads⟩) (by decide)

end BorderCss
