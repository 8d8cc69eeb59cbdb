import BorderCss.Proofs.Color.KeyPath
import BorderCss.Proofs.Stylesheet.Batch

/-!
# The root rule of a pass

The root rule defines a custom property for every key that a pass has recorded and that its theme
has a value for. A property is named after the segments of its key with hyphens between them, and
names of theme colours may have hyphens themselves, so two keys may have one property: the name of a
colour that is looked up as it is written, and the path that its parts spell (`ThemeKey.Clash`).
Every key of a pass is recordable after every step (`Pass.Recordable.foldl_run`), so there are no
other such pairs. The main statement is `Pass.property_eq_iff_clash`.
-/

namespace BorderCss

variable {theme : Theme} {a b key : ThemeKey}

/-! ## Properties of keys -/

/-- The name of the custom property of a key. -/
def ThemeKey.property (key : ThemeKey) : String :=
  themeVariable key.space key.path

theorem join_hyphens_eq {path : List String} (h : path ≠ []) :
    String.join (path.map ("-" ++ ·)) = "-" ++ String.intercalate "-" path := by
  induction path with
  | nil => exact absurd rfl h
  | cons segment rest ih =>
    rw [List.map_cons, String.join_cons]
    cases rest with
    | nil => simp
    | cons next rest =>
      rw [ih (List.cons_ne_nil _ _), String.intercalate_cons_cons]
      simp only [String.append_assoc]

/-- A property spells the namespace and the segments of its key with hyphens between them. -/
theorem ThemeKey.property_eq (h : key.path ≠ []) :
    key.property = "--" ++ key.space ++ "-" ++ key.joined := by
  rw [property, themeVariable, join_hyphens_eq h, joined, String.append_assoc, String.append_assoc,
    String.append_assoc]

theorem ThemeKey.property_eq_iff_joined (ha : a.path ≠ []) (hb : b.path ≠ [])
    (hspace : a.space = b.space) : a.property = b.property ↔ a.joined = b.joined := by
  rw [property_eq ha, property_eq hb, hspace, String.append_right_inj]

/-- A colour and a radius have different properties, whatever their paths. -/
theorem property_color_ne_radius (path other : List String) :
    themeVariable "colors" path ≠ themeVariable "radius" other := by
  intro h
  have hchars := congrArg (fun text : String => text.toList.take 3) h
  simp [themeVariable] at hchars

/-! ## Keys with the same property -/

/-- A name with hyphens that is a colour of the theme, and the path of its parts, which leads to a
colour of the theme as well. -/
inductive ThemeKey.Clash (theme : Theme) : ThemeKey → ThemeKey → Prop
  | intro {name css other : String} (hyphen : '-' ∈ name.toList)
      (whole : theme.colors.lookup name = some (.value css))
      (parts : (steppedNode? theme.colors (hyphenParts name)).bind ThemeNode.css? = some other) :
      Clash theme ⟨"colors", [name]⟩ ⟨"colors", hyphenParts name⟩

namespace ThemeKey

@[simp] theorem joined_singleton (space name : String) : joined ⟨space, [name]⟩ = name :=
  String.intercalate_singleton

@[simp] theorem joined_hyphenParts (space name : String) :
    joined ⟨space, hyphenParts name⟩ = name :=
  intercalate_hyphenParts name

theorem Clash.ne (h : a.Clash theme b) : a ≠ b := by
  cases h with
  | @intro name _ _ hyphen whole parts =>
    intro h
    have hparts : hyphenParts name = [name] := (congrArg path h).symm
    exact hyphenless_hyphenParts name name (hparts ▸ List.mem_singleton_self name) hyphen

theorem Clash.property_eq (h : a.Clash theme b) : a.property = b.property := by
  cases h with
  | intro =>
    refine (property_eq_iff_joined ?_ ?_ (Eq.refl "colors")).2 ?_
    · exact List.cons_ne_nil _ _
    · exact hyphenParts_ne_nil _
    · rw [joined_singleton, joined_hyphenParts]

/-- The theme has a value for the name of a clash. -/
theorem Clash.isSome_value? (h : a.Clash theme b) : (theme.value? a.space a.path).isSome := by
  cases h with
  | intro hyphen whole =>
    rw [Theme.value?_colors, joinedNode?, steppedNode?, whole]
    rfl

/-- The path to a colour is the name of a colour that it spells, or clashes with it. -/
theorem eq_or_clash_of_joined {name css value : String} {keys : List String}
    (whole : theme.colors.lookup name = some (.value css)) (nonempty : keys ≠ [])
    (hyphenless : Hyphenless keys)
    (leads : (steppedNode? theme.colors keys).bind ThemeNode.css? = some value)
    (h : joined ⟨"colors", keys⟩ = name) :
    keys = [name] ∨ Clash theme ⟨"colors", [name]⟩ ⟨"colors", keys⟩ := by
  have hkeys : hyphenParts name = keys := h ▸ hyphenParts_intercalate nonempty hyphenless
  by_cases hyphen : '-' ∈ name.toList
  · right
    rw [← hkeys] at leads ⊢
    exact .intro hyphen whole leads
  · left
    rw [← hkeys, hyphenParts_of_notMem hyphen]

theorem Recordable.path_ne_nil (h : key.Recordable theme) : key.path ≠ [] := by
  cases h with
  | radius name => exact List.cons_ne_nil _ _
  | name whole => exact List.cons_ne_nil _ _
  | path nonempty => exact nonempty

/-- Two keys that tokens record and that have the same property are one key, or clash. -/
theorem Recordable.eq_or_clash (ha : a.Recordable theme) (hb : b.Recordable theme)
    (h : a.property = b.property) : a = b ∨ a.Clash theme b ∨ b.Clash theme a := by
  have hjoined : a.space = b.space → a.joined = b.joined := fun hspace =>
    (property_eq_iff_joined ha.path_ne_nil hb.path_ne_nil hspace).1 h
  -- what is spelled determines a single segment, and it determines a path without hyphens, so only
  -- a name and a path are left to clash
  cases ha with
  | radius first =>
    cases hb with
    | radius second =>
      have hname : first = second := by simpa using hjoined rfl
      exact .inl (by rw [hname])
    | name | path => exact absurd h.symm (property_color_ne_radius _ _)
  | @name first _ whole =>
    cases hb with
    | radius => exact absurd h (property_color_ne_radius _ _)
    | @name second =>
      have hname : first = second := by simpa using hjoined rfl
      exact .inl (by rw [hname])
    | path nonempty hyphenless leads =>
      have hspelled := (hjoined rfl).symm.trans (joined_singleton _ _)
      rcases eq_or_clash_of_joined whole nonempty hyphenless leads hspelled with rfl | hclash
      · exact .inl rfl
      · exact .inr (.inl hclash)
  | @path keys _ nonempty hyphenless leads =>
    cases hb with
    | radius => exact absurd h (property_color_ne_radius _ _)
    | name whole =>
      have hspelled := (hjoined rfl).trans (joined_singleton _ _)
      rcases eq_or_clash_of_joined whole nonempty hyphenless leads hspelled with rfl | hclash
      · exact .inl rfl
      · exact .inr (.inr hclash)
    | @path others _ hothers hhyphenless =>
      have hpath : keys = others := by
        rw [← hyphenParts_intercalate nonempty hyphenless,
          ← hyphenParts_intercalate hothers hhyphenless]
        exact congrArg hyphenParts (hjoined rfl)
      exact .inl (by rw [hpath])

/-- Two different keys that tokens record have the same property exactly when they clash, in one
order or the other. -/
theorem Recordable.property_eq_iff (ha : a.Recordable theme) (hb : b.Recordable theme)
    (hne : a ≠ b) : a.property = b.property ↔ a.Clash theme b ∨ b.Clash theme a := by
  refine ⟨fun h => (ha.eq_or_clash hb h).resolve_left hne, ?_⟩
  rintro (h | h)
  · exact h.property_eq
  · exact h.property_eq.symm

end ThemeKey

/-! ## Definitions of properties -/

/-- The definitions of a root rule, one for every used key that the theme has a value for. -/
def Usage.definitions (usage : Usage) (theme : Theme) : List Declaration :=
  usage.keys.filterMap fun key =>
    (theme.value? key.space key.path).map fun value => ⟨key.property, value⟩

/-- The text of a root rule; nothing when it has no definitions. -/
def rootText : List Declaration → String
  | [] => ""
  | definitions =>
    ":root\x7b" ++ String.join (definitions.map fun d => d.property ++ ":" ++ d.value ++ ";") ++
      "\x7d"

namespace Usage

variable {usage : Usage}

theorem definition?_eq (theme : Theme) (key : ThemeKey) : definition? theme key =
    ((theme.value? key.space key.path).map fun value => Declaration.mk key.property value).map
      fun d => d.property ++ ":" ++ d.value ++ ";" := by
  rw [definition?, Option.map_map]
  rfl

theorem rootBlock_eq (usage : Usage) (theme : Theme) :
    usage.rootBlock theme = rootText (usage.definitions theme) := by
  have htexts : usage.keys.filterMap (definition? theme) =
      (usage.definitions theme).map fun d => d.property ++ ":" ++ d.value ++ ";" := by
    rw [definitions, List.map_filterMap]
    exact congrArg usage.keys.filterMap (funext (definition?_eq theme))
  rw [rootBlock, htexts]
  cases usage.definitions theme <;> rfl

theorem properties_definitions (usage : Usage) (theme : Theme) :
    (usage.definitions theme).map Declaration.property =
      (usage.keys.filter fun key => (theme.value? key.space key.path).isSome).map
        ThemeKey.property := by
  rw [definitions]
  induction usage.keys with
  | nil => rfl
  | cons key rest ih =>
    rw [List.filterMap_cons, List.filter_cons]
    cases theme.value? key.space key.path with
    | none => simpa using ih
    | some value => simpa using ih

theorem nodup_keys (usage : Usage) : usage.keys.Nodup := by
  refine usage.sorted.imp ?_
  rintro key _ hlt rfl
  exact ThemeKey.lt_irrefl key hlt

/-- A root rule for keys that tokens record defines no property twice exactly when no two of them
clash, the theme having a value for the second. It always has one for the first. -/
theorem nodup_definitions_iff (h : ∀ key ∈ usage.keys, key.Recordable theme) :
    ((usage.definitions theme).map Declaration.property).Nodup ↔
      ¬∃ a ∈ usage.keys, ∃ b ∈ usage.keys, a.Clash theme b ∧
        (theme.value? b.space b.path).isSome := by
  rw [properties_definitions, List.nodup_map_iff_inj_on (usage.nodup_keys.filter _)]
  simp only [List.mem_filter]
  constructor
  · rintro hinj ⟨a, ha, b, hb, hclash, hvalue⟩
    exact hclash.ne (hinj a ⟨ha, hclash.isSome_value?⟩ b ⟨hb, hvalue⟩ hclash.property_eq)
  · rintro hclear a ⟨ha, havalue⟩ b ⟨hb, hbvalue⟩ hproperty
    rcases (h a ha).eq_or_clash (h b hb) hproperty with heq | hclash | hclash
    · exact heq
    · exact absurd ⟨a, ha, b, hb, hclash, hbvalue⟩ hclear
    · exact absurd ⟨b, hb, a, ha, hclash, havalue⟩ hclear

end Usage

/-! ## Runs of a pass -/

/-- One thing that may be done with a pass. -/
inductive PassStep where
  | resolve (token : String)
  | generate (tokens : List String)
  | reset
deriving DecidableEq

/-- The pass after a step. -/
def PassStep.run (pass : Pass) : PassStep → Pass
  | resolve token => (pass.resolve token).2
  | generate tokens => (pass.generate tokens).2
  | reset => pass.reset

namespace Pass

variable {pass : Pass}

/-- The keys of the pass are such that tokens record under its theme. -/
def Recordable (pass : Pass) : Prop :=
  ∀ key ∈ pass.usage.keys, key.Recordable pass.theme

theorem run_theme (pass : Pass) (step : PassStep) : (step.run pass).theme = pass.theme := by
  cases step with
  | resolve token => rfl
  | generate tokens =>
    obtain ⟨usage, hpass, -⟩ := pass.generate_pass tokens
    rw [PassStep.run, hpass]
  | reset => rfl

theorem Recordable.run (h : pass.Recordable) (step : PassStep) : (step.run pass).Recordable := by
  intro key hkey
  rw [run_theme]
  cases step with
  | resolve token =>
    exact (mem_resolveToken.1 hkey).elim (h key) recordable_of_mem_tokenKeys
  | generate tokens =>
    obtain ⟨usage, hpass, husage⟩ := pass.generate_pass tokens
    rw [PassStep.run, hpass] at hkey
    rcases (husage key).1 hkey with hkey | ⟨token, -, htoken⟩
    · exact h key hkey
    · exact recordable_of_mem_tokenKeys htoken
  | reset => exact absurd hkey List.not_mem_nil

/-- A pass keeps its theme, and no step records a key of another kind. -/
theorem Recordable.foldl_run (h : pass.Recordable) (steps : List PassStep) :
    (steps.foldl PassStep.run pass).theme = pass.theme ∧
      (steps.foldl PassStep.run pass).Recordable := by
  induction steps generalizing pass with
  | nil => exact ⟨rfl, h⟩
  | cons step rest ih =>
    rw [List.foldl_cons, ← pass.run_theme step]
    exact ih (h.run step)

end Pass

/-- Theme colours of different values have different keys. -/
theorem keys_ne_of_value_ne {body other : String} {color another : Color}
    {keys otherKeys : List String} {value otherValue : String}
    (h : readColor? theme body = some color) (hother : readColor? theme other = some another)
    (hkind : color.kind = .theme keys value)
    (hotherKind : another.kind = .theme otherKeys otherValue) (hne : value ≠ otherValue) :
    keys ≠ otherKeys := by
  rintro rfl
  obtain ⟨main, hmain⟩ := readColor?_theme h hkind
  obtain ⟨otherMain, hotherMain⟩ := readColor?_theme hother hotherKind
  have hvalue : some value = some otherValue :=
    (themeColor?_leads hmain).value.symm.trans (themeColor?_leads hotherMain).value
  exact hne (Option.some.inj hvalue)

namespace Pass

/-- Whatever is done with a pass, two different keys that it has recorded have the same custom
property exactly when they clash: one is the name of a colour that has hyphens and is a value of the
theme itself, the other the path that the parts of this name spell, which leads to a colour too. The
root rule is the text of its definitions, and these define no property twice exactly when no two
recorded keys clash with the theme having a value for both. Colours of different values have the
same property only if their keys clash. -/
theorem property_eq_iff_clash (theme : Theme) (rules : List Rule) (steps : List PassStep) :
    let pass : Pass := steps.foldl PassStep.run { theme, rules }
    (∀ a ∈ pass.usage.keys, ∀ b ∈ pass.usage.keys, a ≠ b →
      (a.property = b.property ↔ a.Clash theme b ∨ b.Clash theme a)) ∧
    pass.rootBlock = rootText (pass.usage.definitions theme) ∧
    (((pass.usage.definitions theme).map Declaration.property).Nodup ↔
      ¬∃ a ∈ pass.usage.keys, ∃ b ∈ pass.usage.keys, a.Clash theme b ∧
        (theme.value? b.space b.path).isSome) ∧
    ∀ (body other : String) (color another : Color) (keys otherKeys : List String)
      (value otherValue : String),
      readColor? theme body = some color → color.kind = .theme keys value →
      readColor? theme other = some another → another.kind = .theme otherKeys otherValue →
      value ≠ otherValue → themeVariable "colors" keys = themeVariable "colors" otherKeys →
      ThemeKey.Clash theme ⟨"colors", keys⟩ ⟨"colors", otherKeys⟩ ∨
        ThemeKey.Clash theme ⟨"colors", otherKeys⟩ ⟨"colors", keys⟩ := by
  intro pass
  have hstart : Recordable { theme, rules } := nofun
  obtain ⟨htheme, hkeys⟩ := hstart.foldl_run steps
  have hrecordable : ∀ key ∈ pass.usage.keys, key.Recordable theme := by
    intro key hkey
    have hrecorded := hkeys key hkey
    rwa [htheme] at hrecorded
  refine ⟨fun a ha b hb => (hrecordable a ha).property_eq_iff (hrecordable b hb), ?_,
    Usage.nodup_definitions_iff hrecordable, ?_⟩
  · rw [rootBlock, htheme]
    exact pass.usage.rootBlock_eq theme
  · intro body other color another keys otherKeys value otherValue h hkind hother hotherKind hne
      hproperty
    have hkey : color.key? = some ⟨"colors", keys⟩ := by rw [Color.key?, hkind]
    have hotherKey : another.key? = some ⟨"colors", otherKeys⟩ := by rw [Color.key?, hotherKind]
    have hkeysNe := keys_ne_of_value_ne h hother hkind hotherKind hne
    have hclash := (recordable_of_readColor? h hkey).eq_or_clash
      (recordable_of_readColor? hother hotherKey) hproperty
    exact hclash.resolve_left fun heq => hkeysNe (congrArg ThemeKey.path heq)

/-- A theme colour with a hyphen in its name, and a scale that has a shade of that spelling. -/
theorem property_eq_iff_clash_hyphenated :
    let theme : Theme :=
      { colors := [("red", .scale [("500", .value "#222")]), ("red-500", .value "#111")] }
    let steps : List PassStep := [.generate ["b-red-500", "p-4"], .resolve "b-red500"]
    let keys := (steps.foldl PassStep.run { theme }).usage.keys
    let name : ThemeKey := ⟨"colors", ["red-500"]⟩
    let parts : ThemeKey := ⟨"colors", ["red", "500"]⟩
    name ∈ keys ∧ parts ∈ keys ∧ name ≠ parts ∧
      (name.property = parts.property ↔ name.Clash theme parts ∨ parts.Clash theme name) ∧
      readColor? theme "red-500" = some ⟨"red", none, .theme ["red-500"] "#111", none⟩ ∧
      readColor? theme "red500" = some ⟨"red", some "500", .theme ["red", "500"] "#222", none⟩ ∧
      name.property = parts.property ∧ (name.Clash theme parts ∨ parts.Clash theme name) := by
  intro theme steps keys name parts
  have hname : name ∈ keys := by decide +kernel
  have hparts : parts ∈ keys := by decide +kernel
  have hne : name ≠ parts := by decide
  have hread : readColor? theme "red-500" =
      some ⟨"red", none, .theme ["red-500"] "#111", none⟩ := by decide +kernel
  have hshade : readColor? theme "red500" =
      some ⟨"red", some "500", .theme ["red", "500"] "#222", none⟩ := by decide +kernel
  have hproperty : name.property = parts.property := by decide +kernel
  obtain ⟨hiff, -, -, hcolors⟩ := property_eq_iff_clash theme borderRules steps
  exact ⟨hname, hparts, hne, hiff name hname parts hparts hne, hread, hshade, hproperty,
    hcolors _ _ _ _ _ _ _ _ hread rfl hshade rfl (by decide) hproperty⟩

/-- A name with a hyphen and the shade that it spells are both defined in a root rule, under one
property and with different values. -/
theorem rootBlock_twice :
    let theme : Theme :=
      { colors := [("red", .scale [("500", .value "#222")]), ("red-500", .value "#111")] }
    let pass : Pass := ((Pass.resolve { theme } "b-red-500").2.resolve "b-red500").2
    pass.usage.keys = [⟨"colors", ["red", "500"]⟩, ⟨"colors", ["red-500"]⟩] ∧
      themeVariable "colors" ["red", "500"] = themeVariable "colors" ["red-500"] ∧
      readColor? theme "red-500" = some ⟨"red", none, .theme ["red-500"] "#111", none⟩ ∧
      readColor? theme "red500" = some ⟨"red", some "500", .theme ["red", "500"] "#222", none⟩ ∧
      pass.rootBlock = ":root\x7b--colors-red-500:#222;--colors-red-500:#111;\x7d" := by
  decide +kernel

end Pass

end BorderCss
