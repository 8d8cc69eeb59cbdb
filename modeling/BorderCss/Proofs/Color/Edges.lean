import BorderCss.Proofs.Css.Styling
import BorderCss.Proofs.Rule.Outcome
import Mathlib.Data.List.Nodup

/-!
# The declarations of a colour on several edges

A colour on several edges is merged from a styling for each. Properties of different edges are
different, and so are the colour and the opacity variable of one edge, so the merge declares every
edge in turn (`Color.declarations_stylings?`) and keeps the one registration that all of them rely
on (`Color.preludes_stylings?`).
-/

namespace BorderCss

/-! ## Properties of an edge -/

/-- What stands between two fixed texts can be read off. -/
theorem affix_injective (before after : String) :
    Function.Injective fun text => before ++ text ++ after := by
  intro a b h
  simpa using h

theorem colorProperty_injective (base : String) : Function.Injective (colorProperty base) :=
  affix_injective base "-color"

theorem opacityVariable_injective (base : String) : Function.Injective (opacityVariable base) :=
  affix_injective ("--un-" ++ base) "-opacity"

/-- A text ends like its last part. -/
theorem getLast?_toList_append (s : String) {t : String} (h : t ≠ "") :
    (s ++ t).toList.getLast? = t.toList.getLast? := by
  rw [String.toList_append, List.getLast?_append_of_ne_nil]
  exact fun hnil => h (String.toList_eq_nil_iff.1 hnil)

/-- The two properties differ in their last character. -/
theorem colorProperty_ne_opacityVariable (base a b : String) :
    colorProperty base a ≠ opacityVariable base b := by
  intro h
  have hlast := congrArg (·.toList.getLast?) h
  rw [colorProperty, opacityVariable, getLast?_toList_append _ (by decide),
    getLast?_toList_append _ (by decide)] at hlast
  cases hlast

namespace Color

variable {color : Color} {base suffix : String} {suffixes : List String} {styling : Styling}

/-- What a colour declares on one edge: itself, if it is a keyword; otherwise its mix and, on a
single edge, that the opacity of the edge is the shared one. -/
def edge (color : Color) (base suffix : String) : List Declaration :=
  if color.isSpecial then [⟨colorProperty base suffix, color.css⟩]
  else
    ⟨colorProperty base suffix, mixed color.css (color.percentage base suffix)⟩ ::
      if suffix = "" then []
      else [⟨opacityVariable base suffix, "var(" ++ opacityVariable base "" ++ ")"⟩]

theorem edge_of_special (h : color.isSpecial = true) :
    color.edge base = fun suffix => [⟨colorProperty base suffix, color.css⟩] :=
  funext fun _ => if_pos h

theorem edge_of_not_special (h : ¬color.isSpecial = true) :
    color.edge base = fun suffix =>
      ⟨colorProperty base suffix, mixed color.css (color.percentage base suffix)⟩ ::
        if suffix = "" then []
        else [⟨opacityVariable base suffix, "var(" ++ opacityVariable base "" ++ ")"⟩] :=
  funext fun _ => if_neg h

/-- A colour that is no keyword declares its mix on an edge and, if the edge is a single one, that
the opacity of the edge is the shared one. -/
theorem mem_edge (h : color.isSpecial = false) {d : Declaration} : d ∈ color.edge base suffix ↔
    d = ⟨colorProperty base suffix, mixed color.css (color.percentage base suffix)⟩ ∨
      suffix ≠ "" ∧
        d = ⟨opacityVariable base suffix, "var(" ++ opacityVariable base "" ++ ")"⟩ := by
  rw [edge_of_not_special (by simp [h]), List.mem_cons]
  refine or_congr_right ?_
  by_cases hsuffix : suffix = ""
  · simp [hsuffix]
  · simp [hsuffix]

/-- What a colour relies on: the registration of the shared opacity, unless it is a keyword. -/
def registrations (color : Color) (base : String) : List String :=
  if color.isSpecial then [] else [opacityRegistration (opacityVariable base "")]

theorem registrations_border (h : ¬color.isSpecial = true) : color.registrations "border" =
    ["@property --un-border-opacity" ++
      "\x7bsyntax:\"<number>\";inherits:false;initial-value:1;\x7d"] := by
  rw [registrations, if_neg h]
  rfl

/-- One edge declares its colour and at most its opacity. -/
theorem properties_edge : ((color.edge base suffix).map Declaration.property).Sublist
    [colorProperty base suffix, opacityVariable base suffix] := by
  unfold edge
  split
  · exact List.singleton_sublist.2 List.mem_cons_self
  · split
    · exact List.singleton_sublist.2 List.mem_cons_self
    · exact List.Sublist.refl _

theorem nodup_properties_edge : ((color.edge base suffix).map Declaration.property).Nodup := by
  refine properties_edge.nodup (List.nodup_cons.2 ⟨?_, List.nodup_singleton _⟩)
  rw [List.mem_singleton]
  exact colorProperty_ne_opacityVariable base suffix suffix

theorem disjoint_properties_edge {other : String} (h : suffix ≠ other) :
    List.Disjoint ((color.edge base suffix).map Declaration.property)
      ((color.edge base other).map Declaration.property) := by
  intro property hleft hright
  have hpair := properties_edge.subset hleft
  have hother := properties_edge.subset hright
  rw [List.mem_pair] at hpair hother
  obtain rfl | rfl := hpair <;> obtain hother | hother := hother
  · exact h (colorProperty_injective base hother)
  · exact colorProperty_ne_opacityVariable base _ _ hother
  · exact colorProperty_ne_opacityVariable base _ _ hother.symm
  · exact h (opacityVariable_injective base hother)

/-- No property is declared on two edges. -/
theorem nodup_properties_edges (color : Color) (base : String) (h : suffixes.Nodup) :
    ((suffixes.flatMap (color.edge base)).map Declaration.property).Nodup := by
  rw [List.map_flatMap, List.nodup_flatMap]
  exact ⟨fun _ _ => nodup_properties_edge, h.imp disjoint_properties_edge⟩

/-! ## Stylings -/

theorem declarations_styling :
    (color.styling base suffix).declarations = color.edge base suffix := by
  have hne : colorProperty base suffix ≠ opacityVariable base suffix :=
    colorProperty_ne_opacityVariable base suffix suffix
  unfold styling block edge
  split
  · rfl
  · split
    · rfl
    · refine Block.declarations_set ?_
      rw [Block.properties, Block.declarations_set (by simp [Block.properties, Block.empty])]
      simpa [Block.empty] using hne.symm

theorem preludes_styling : (color.styling base suffix).preludes = color.registrations base := by
  unfold styling registrations
  split <;> rfl

/-- A colour declares its edges one after the other. -/
theorem declarations_stylings? (h : color.stylings? base suffixes = some styling)
    (hnodup : suffixes.Nodup) : styling.declarations = suffixes.flatMap (color.edge base) := by
  cases suffixes with
  | nil => cases h
  | cons suffix rest =>
    cases h
    have hrest : (rest.flatMap fun suffix => (color.styling base suffix).declarations) =
        rest.flatMap (color.edge base) := by
      simp only [declarations_styling]
    have hproperties := nodup_properties_edges color base hnodup
    rw [List.flatMap_cons] at hproperties ⊢
    rw [Styling.declarations_foldl_merge, hrest, declarations_styling]
    rwa [hrest, declarations_styling]

/-- What a colour that is no keyword declares on its edges. -/
theorem mem_declarations_stylings? (h : color.stylings? base suffixes = some styling)
    (hnodup : suffixes.Nodup) (hspecial : color.isSpecial = false) {d : Declaration} :
    d ∈ styling.declarations ↔ ∃ suffix ∈ suffixes,
      d = ⟨colorProperty base suffix, mixed color.css (color.percentage base suffix)⟩ ∨
        suffix ≠ "" ∧
          d = ⟨opacityVariable base suffix, "var(" ++ opacityVariable base "" ++ ")"⟩ := by
  simp only [declarations_stylings? h hnodup, List.mem_flatMap, mem_edge hspecial]

/-- All edges of a colour rely on the same registration. -/
theorem preludes_stylings? (h : color.stylings? base suffixes = some styling) :
    styling.preludes = color.registrations base := by
  cases suffixes with
  | nil => cases h
  | cons suffix rest =>
    cases h
    rw [Styling.preludes_foldl_merge, preludes_styling]
    intro other _
    rw [preludes_styling, preludes_styling]
    exact List.Subset.refl _

end Color

end BorderCss
