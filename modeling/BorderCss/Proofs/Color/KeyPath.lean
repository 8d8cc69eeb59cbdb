import BorderCss.Proofs.Color.ThemeColor
import BorderCss.Proofs.Text.Pieces

/-!
# Which key paths tokens record

A token records the path of a theme colour or the name of a radius (`ThemeKey.Recordable`). The name
of a colour is cut at its hyphens before the colour tree is walked, so a path has no hyphens in its
segments, with one exception: a colour that the theme has under the very name, hyphens included, is
recorded by that name. The main statement is `recordable_of_mem_tokenKeys`.
-/

namespace BorderCss

variable {theme : Theme} {entries : List (String × ThemeNode)} {path : List String}
  {hit : ThemeHit} {color : ThemeColor}

/-! ## Paths without hyphens -/

theorem hyphenless_segments (name : String) : Hyphenless (segments name) := by
  have hparts := hyphenless_hyphenParts (String.ofList (hyphenated false name.toList))
  rwa [hyphenParts, String.toList_ofList] at hparts

theorem hyphen_notMem_capitalize {text : List Char} (h : '-' ∉ text) : '-' ∉ capitalize text := by
  cases text with
  | nil => exact h
  | cons c rest =>
    rw [List.mem_cons, not_or] at h
    rw [capitalize, List.mem_append, not_or]
    exact ⟨fun hmem => h.1 (eq_hyphen_of_mem_upperCase hmem).symm, h.2⟩

/-- The camel-cased name of segments without hyphens has none. -/
theorem hyphen_notMem_camelName (h : Hyphenless path) : '-' ∉ (camelName path).toList := by
  cases path with
  | nil => exact List.not_mem_nil
  | cons segment rest =>
    obtain ⟨hsegment, hrest⟩ := List.forall_mem_cons.1 h
    rw [toList_camelName_cons, List.mem_append, not_or]
    refine ⟨hsegment, fun hmem => ?_⟩
    obtain ⟨other, hother, hcapital⟩ := List.mem_flatMap.1 hmem
    exact hyphen_notMem_capitalize (hrest other hother) hcapital

/-- A walk along segments without hyphens reports keys without hyphens. -/
theorem walk?_hyphenless (hpath : Hyphenless path) (h : walk? entries path = some hit) :
    Hyphenless hit.keys := by
  induction path generalizing entries hit with
  | nil => cases h
  | cons segment rest ih =>
    obtain ⟨hsegment, hrest⟩ := List.forall_mem_cons.1 hpath
    cases rest with
    | nil =>
      obtain ⟨node, -, rfl⟩ := walk?_singleton.1 h
      exact hpath
    | cons next rest =>
      obtain ⟨node, -, rfl⟩ | ⟨-, inner, found, -, hfound, rfl⟩ := walk?_cons_cons.1 h
      · exact List.forall_mem_singleton.2 (hyphen_notMem_camelName hpath)
      · exact List.forall_mem_cons.2 ⟨hsegment, ih hrest hfound⟩

/-! ## Paths of theme colours -/

/-- A colour that is found by segments without hyphens has a path without hyphens. -/
theorem segmentedColor?_hyphenless (hpath : Hyphenless path)
    (h : segmentedColor? theme path = some color) : color.keys ≠ [] ∧ Hyphenless color.keys := by
  obtain ⟨start, number, hit, rfl, -, hhit, hcolor⟩ | ⟨hit, hhit, hcolor⟩ :=
    segmentedColor?_cases h
  · obtain ⟨hstart, hnumber⟩ := List.forall_mem_append.1 hpath
    rw [(shadeColor?_spec hcolor).1]
    exact ⟨by simp, List.forall_mem_append.2 ⟨walk?_hyphenless hstart hhit, hnumber⟩⟩
  · rw [(bareColor?_spec hcolor).1]
    exact ⟨keys_ne_nil hhit, walk?_hyphenless hpath hhit⟩

/-! ## Recorded keys -/

/-- The keys that tokens record under a theme: the name of a radius, the name of a colour that is a
value, and the path to a colour by segments without hyphens. -/
inductive ThemeKey.Recordable (theme : Theme) : ThemeKey → Prop
  | radius (name : String) : Recordable theme ⟨"radius", [name]⟩
  | name {name css : String} (whole : theme.colors.lookup name = some (.value css)) :
      Recordable theme ⟨"colors", [name]⟩
  | path {keys : List String} {css : String} (nonempty : keys ≠ []) (hyphenless : Hyphenless keys)
      (leads : (steppedNode? theme.colors keys).bind ThemeNode.css? = some css) :
      Recordable theme ⟨"colors", keys⟩

theorem recordable_of_themeColor? {name : String} (h : themeColor? theme name = some color) :
    ThemeKey.Recordable theme ⟨"colors", color.keys⟩ := by
  have hleads := themeColor?_leads h
  obtain ⟨css, hcss, rfl⟩ | h := themeColor?_cases h
  · exact .name hcss
  · obtain ⟨hne, hhyphenless⟩ := segmentedColor?_hyphenless (hyphenless_segments name) h
    exact .path hne hhyphenless hleads.value

/-- The key of a colour that was read is one of these. -/
theorem recordable_of_readColor? {body : String} {color : Color} {key : ThemeKey}
    (h : readColor? theme body = some color) (hkey : color.key? = some key) :
    key.Recordable theme := by
  unfold Color.key? at hkey
  split at hkey
  · next keys css hkind =>
    cases hkey
    obtain ⟨main, hmain⟩ := readColor?_theme h hkind
    exact recordable_of_themeColor? hmain
  · cases hkey

variable {key : ThemeKey}

/-- A fragment refers to no key but its own in the scale that was looked up. -/
theorem recordable_of_resolveFragment? {mode : UnitMode} {scale : Option ThemeScale} {raw : String}
    {value : FragmentValue} (h : resolveFragment? theme mode scale raw = some value)
    (hkey : value.key = some key) : key.Recordable theme := by
  unfold resolveFragment? at h
  split at h
  · obtain ⟨css, -, rfl⟩ := Option.map_eq_some_iff.1 h
    cases hkey
  · split at h
    · cases h
      cases hkey
    · obtain h | ⟨-, h⟩ := Option.or_eq_some_iff.1 h
      · obtain ⟨scale, -, h⟩ := Option.bind_eq_some_iff.1 h
        obtain ⟨css, -, rfl⟩ := Option.map_eq_some_iff.1 h
        cases scale
        split at hkey
        · cases hkey
        · cases hkey
          exact .radius raw
      · obtain ⟨css, -, rfl⟩ := Option.map_eq_some_iff.1 h
        cases hkey

/-- A styling that spreads one value over several properties refers to the key of the value. -/
theorem recordable_of_fanOut {α : Type} {parts : Option α} {value : Option (Reading String)}
    {styling : α → String → Styling} {outcome : Reading Styling}
    (hvalue : ∀ reading ∈ value, ∀ key ∈ reading.key, key.Recordable theme)
    (h : (parts.bind fun part => value.map (Reading.map (styling part))) = some outcome)
    (hkey : outcome.key = some key) : key.Recordable theme := by
  obtain ⟨part, -, h⟩ := Option.bind_eq_some_iff.1 h
  obtain ⟨reading, hreading, rfl⟩ := Option.map_eq_some_iff.1 h
  exact hvalue reading hreading key hkey

theorem recordable_of_reading {mode : UnitMode} {scale : Option ThemeScale} {raw : String} :
    ∀ reading ∈ (resolveFragment? theme mode scale raw).map FragmentValue.reading,
      ∀ key ∈ reading.key, key.Recordable theme := by
  intro reading hreading key hkey
  obtain ⟨value, hvalue, rfl⟩ := Option.map_eq_some_iff.1 hreading
  exact recordable_of_resolveFragment? hvalue hkey

theorem recordable_of_colorOutcome? {side body : String} {outcome : Reading Styling}
    (h : colorOutcome? theme side body = some outcome) (hkey : outcome.key = some key) :
    key.Recordable theme := by
  obtain ⟨edges, -, h⟩ := Option.bind_eq_some_iff.1 h
  split at h
  · exact recordable_of_fanOut recordable_of_reading h hkey
  · obtain ⟨color, hcolor, h⟩ := Option.bind_eq_some_iff.1 h
    obtain ⟨styling, -, rfl⟩ := Option.map_eq_some_iff.1 h
    exact recordable_of_readColor? hcolor hkey

theorem recordable_of_radiusOutcome? {corner scale : String} {outcome : Reading Styling}
    (h : radiusOutcome? theme corner scale = some outcome) (hkey : outcome.key = some key) :
    key.Recordable theme := by
  refine recordable_of_fanOut (fun reading hreading key hkey => ?_) h hkey
  rw [radiusValue?] at hreading
  split at hreading
  · cases hreading
    cases hkey
  · exact recordable_of_reading reading hreading key hkey

/-- Whatever a utility makes of captures, it refers to no other keys. -/
theorem recordable_of_outcome? {utility : Utility} {captures : Captures}
    {outcome : Reading Styling} (h : utility.outcome? theme captures = some outcome)
    (hkey : outcome.key = some key) : key.Recordable theme := by
  cases utility with
  | width => exact recordable_of_fanOut recordable_of_reading h hkey
  | color =>
    obtain ⟨body, -, h⟩ := Option.bind_eq_some_iff.1 h
    exact recordable_of_colorOutcome? h hkey
  | opacity =>
    obtain ⟨body, -, h⟩ := Option.bind_eq_some_iff.1 h
    exact recordable_of_fanOut recordable_of_reading h hkey
  | radius => exact recordable_of_radiusOutcome? h hkey
  | lineStyle =>
    obtain ⟨styling, -, rfl⟩ := Option.map_eq_some_iff.1 h
    cases hkey

/-- A token records only such keys, under whichever rules. -/
theorem recordable_of_mem_tokenKeys {rules : List Rule} {token : String}
    (h : key ∈ tokenKeys rules theme token) : key.Recordable theme := by
  obtain ⟨outcome, houtcome, hkey⟩ := mem_tokenKeys.1 h
  obtain ⟨rule, -, hrule⟩ := List.exists_of_findSome?_eq_some houtcome
  obtain ⟨captures, -, hcaptures⟩ := Option.bind_eq_some_iff.1 hrule
  exact recordable_of_outcome? hcaptures hkey

end BorderCss
