import BorderCss.Proofs.Color.Search
import BorderCss.Proofs.Rule.Outcome
import BorderCss.Theme.Preset

/-!
# The custom property of a theme colour

A theme colour is written as a custom property named after its keys, and `Usage.rootBlock` defines
that property by walking the keys again. The keys lead to the colour's own value one segment at a
time (`ThemeColor.Leads`), so the definition has that value exactly when no join on the way has
another (`value?_keys_iff`). Only a shade in digits can bring such a join about: its key is found
below the scale, where the reader looks for it, but a walk tries it joined with the name of the
scale first.
-/

namespace BorderCss

variable {theme : Theme} {hit : ThemeHit} {path : List String}

/-- The keys of a theme colour lead, one segment at a time, to an entry that stands for its value,
and without a shade no join lies on their way. -/
structure ThemeColor.Leads (theme : Theme) (color : ThemeColor) : Prop where
  value : (steppedNode? theme.colors color.keys).bind ThemeNode.css? = some color.value
  joined : color.shade = none → joinedNode? theme.colors color.keys = none

/-! ## Ways to find a theme colour -/

/-- The name of a value leads to it. -/
theorem ThemeColor.Leads.of_lookup {name css : String}
    (h : theme.colors.lookup name = some (.value css)) :
    ThemeColor.Leads theme ⟨[name], css, none⟩ := by
  refine ⟨?_, fun _ => rfl⟩
  rw [steppedNode?, h]
  rfl

theorem bareColor?_leads (hhit : theme.color? path = some hit) {color : ThemeColor}
    (h : bareColor? hit = some color) : color.Leads theme := by
  obtain ⟨hjoined, hstepped⟩ := entries_keys hhit
  unfold bareColor? at h
  cases hnode : hit.node with
  | value css =>
    rw [hnode] at h
    cases h
    refine ⟨?_, fun _ => hjoined⟩
    rw [hstepped, Option.bind_some, hnode]
    rfl
  | scale entries =>
    rw [hnode] at h
    obtain ⟨css, hcss, rfl⟩ := Option.map_eq_some_iff.1 h
    refine ⟨?_, fun _ => hjoined⟩
    rw [hstepped, Option.bind_some, hnode]
    exact hcss

theorem shadeColor?_leads (hhit : theme.color? path = some hit) {shade : String}
    {color : ThemeColor} (h : shadeColor? hit shade = some color) : color.Leads theme := by
  obtain ⟨css, hcss, rfl⟩ := Option.map_eq_some_iff.1 h
  refine ⟨?_, nofun⟩
  rw [steppedNode?_concat (entries_keys hhit).2]
  obtain ⟨node, hnode, hvalue⟩ := Option.bind_eq_some_iff.1 hcss
  rw [hnode, Option.bind_some]
  cases node with
  | value _ => exact hvalue
  | scale _ => cases hvalue

/-- However a theme colour is found, its keys lead to its value. -/
theorem themeColor?_leads {name : String} {color : ThemeColor}
    (h : themeColor? theme name = some color) : color.Leads theme := by
  obtain ⟨css, hcss, rfl⟩ | h := themeColor?_cases h
  · exact .of_lookup hcss
  · obtain ⟨start, number, hit, -, -, hhit, hcolor⟩ | ⟨hit, hhit, hcolor⟩ :=
      segmentedColor?_cases h
    · exact shadeColor?_leads hhit hcolor
    · exact bareColor?_leads hhit hcolor

/-! ## The definition of its custom property -/

/-- Over keys that lead to a value, a theme has that value exactly when no join on the way has
another. -/
theorem ThemeColor.Leads.value?_iff {color : ThemeColor} (h : color.Leads theme) :
    theme.value? "colors" color.keys = some color.value ↔
      ∀ node ∈ joinedNode? theme.colors color.keys, node.css? = some color.value := by
  rw [Theme.value?_colors]
  cases joinedNode? theme.colors color.keys with
  | none => simpa using h.value
  | some node => simp

/-- A custom property is defined to be `css` exactly when the theme has that value for its key. -/
theorem Usage.definition?_eq_some_iff {key : ThemeKey} {css : String} :
    Usage.definition? theme key = some (themeVariable key.space key.path ++ ":" ++ css ++ ";") ↔
      theme.value? key.space key.path = some css := by
  rw [Usage.definition?, Option.map_eq_some_iff]
  refine ⟨?_, fun h => ⟨css, h, rfl⟩⟩
  rintro ⟨value, hvalue, htext⟩
  have hcss : value = css := by
    rw [← String.toList_inj] at htext ⊢
    simpa using htext
  rw [hvalue, hcss]

/-- Declaring a theme colour refers to the custom property of its keys and records them. -/
theorem Color.declare_theme {color : Color} {keys : List String} {css : String}
    (hkind : color.kind = .theme keys css) (base suffix : String) (usage : Usage) :
    color.css = "var(" ++ themeVariable "colors" keys ++ ")" ∧
    (color.declare base suffix).runFrom usage =
      (some (color.styling base suffix), usage.record ⟨"colors", keys⟩) := by
  refine ⟨by rw [Color.css, hkind], ?_⟩
  rw [color.declare_settles base suffix usage, settle_some, Color.key?, hkind]
  rfl

/-- A colour that is read as a theme colour refers to the custom property of its keys and records
them. The theme has the value that was read for these keys, and the property is defined to be that
value, exactly when the first entry on the way down the keys that the rest of them names in camel
case, if there is one, stands for the same value. There is none when the colour was found without a
shade. -/
theorem value?_keys_iff {body : String} {color : Color} {keys : List String} {css : String}
    (h : readColor? theme body = some color) (hkind : color.kind = .theme keys css) :
    (∀ (base suffix : String) (usage : Usage),
      color.css = "var(" ++ themeVariable "colors" keys ++ ")" ∧
      (color.declare base suffix).runFrom usage =
        (some (color.styling base suffix), usage.record ⟨"colors", keys⟩)) ∧
    (theme.value? "colors" keys = some css ↔
      ∀ node ∈ joinedNode? theme.colors keys, node.css? = some css) ∧
    (Usage.definition? theme ⟨"colors", keys⟩ =
        some (themeVariable "colors" keys ++ ":" ++ css ++ ";") ↔
      theme.value? "colors" keys = some css) ∧
    (color.shade = none → joinedNode? theme.colors keys = none) := by
  obtain ⟨main, hmain⟩ := readColor?_theme h hkind
  have hleads := themeColor?_leads hmain
  exact ⟨color.declare_theme hkind, hleads.value?_iff, Usage.definition?_eq_some_iff, hleads.joined⟩

/-- A shade of the built-in theme has no join on its way, so its property is defined. -/
theorem value?_keys_preset : readColor? .preset "red-500" =
      some ⟨"red", some "500", .theme ["red", "500"] "#ef4444", none⟩ ∧
    Theme.preset.value? "colors" ["red", "500"] = some "#ef4444" := by
  have hread : readColor? .preset "red-500" =
      some ⟨"red", some "500", .theme ["red", "500"] "#ef4444", none⟩ := by decide +kernel
  have hjoined : joinedNode? Theme.preset.colors ["red", "500"] = none :=
    Option.isNone_iff_eq_none.1 (by decide +kernel)
  refine ⟨hread, (value?_keys_iff hread rfl).2.1.2 ?_⟩
  rw [hjoined]
  nofun

/-- Where a scale and one of its shades are also the name of a colour, the shade is read and the
custom property has the value of that colour. -/
theorem value?_keys_overlap :
    let theme : Theme :=
      { colors := [("red", .scale [("500", .value "#111")]), ("red500", .value "#222")] }
    readColor? theme "red-500" = some ⟨"red", some "500", .theme ["red", "500"] "#111", none⟩ ∧
      theme.value? "colors" ["red", "500"] = some "#222" := by
  decide +kernel

end BorderCss
