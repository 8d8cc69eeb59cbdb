import BorderCss.Color.Reading
import BorderCss.Proofs.Theme.Walk

/-!
# The search for a theme colour

The name of a theme colour is the name of a value, or its segments lead to the colour
(`themeColor?_cases`): a number behind others is a shade of what they name, and segments without a
number name the colour together (`segmentedColor?_number`, `segmentedColor?_name`). The search has
one step more, in which the second of two segments is a shade of the first, but a walk along both
would have found such a shade before (`shadedColor?_eq_none`). So this step finds nothing, and only
numbers are ever found as shades (`themeColor?_fallback`).
-/

namespace BorderCss

variable {theme : Theme} {hit : ThemeHit} {path : List String} {color : ThemeColor}
  {name shade : String}

/-! ## Keys of an entry and of a shade -/

/-- A colour found without a shade has the keys of its entry. -/
theorem bareColor?_spec (h : bareColor? hit = some color) :
    color.keys = hit.keys ∧ color.shade = none := by
  unfold bareColor? at h
  split at h
  · cases h
    exact ⟨rfl, rfl⟩
  · obtain ⟨css, -, rfl⟩ := Option.map_eq_some_iff.1 h
    exact ⟨rfl, rfl⟩

/-- A shade is the last key of its colour, behind the keys of the scale. -/
theorem shadeColor?_spec (h : shadeColor? hit shade = some color) :
    color.keys = hit.keys ++ [shade] ∧ color.shade = some shade := by
  obtain ⟨css, -, rfl⟩ := Option.map_eq_some_iff.1 h
  exact ⟨rfl, rfl⟩

/-! ## The steps of the search -/

/-- A name of two segments that leads nowhere has no shade of its first segment either: the walk
would have found it. -/
theorem shadedColor?_eq_none {first second : String}
    (h : theme.color? [first, second] = none) :
    ((theme.color? [first]).bind fun hit => shadedColor? hit second) = none := by
  rw [Option.bind_eq_none_iff]
  intro hit hhit
  obtain ⟨node, hnode, rfl⟩ := walk?_singleton.1 hhit
  rw [shadedColor?, shadeColor?, Option.map_eq_none_iff, Option.map_eq_none_iff]
  cases node with
  | value css => rfl
  | scale inner =>
    cases hget : inner.lookup second with
    | none =>
      rw [ThemeNode.get?, hget]
      rfl
    | some found =>
      have hwalk : (walk? theme.colors [first, second]).isSome := by
        rw [walk?]
        cases theme.colors.lookup (camelName [first, second]) with
        | some node => rfl
        | none =>
          simp only [hnode]
          rw [walk?, hget]
          rfl
      rw [Theme.color?] at h
      rw [h] at hwalk
      cases hwalk

/-- There are several segments, and the last one is a number, possibly without digits. -/
def EndsInNumber (path : List String) : Prop :=
  ∃ start number, start ≠ [] ∧ path = start ++ [number] ∧ ∀ c ∈ number.toList, c.isDigit = true

/-- A number behind other segments is a shade of what they name. -/
theorem segmentedColor?_number (theme : Theme) {start : List String} {number : String}
    (hne : start ≠ []) (hnumber : ∀ c ∈ number.toList, c.isDigit = true) :
    segmentedColor? theme (start ++ [number]) =
      (theme.color? start).bind fun hit => shadeColor? hit number := by
  have hlength : 1 < (start ++ [number]).length := by
    have hpos := List.length_pos_iff.2 hne
    rw [List.length_append, List.length_singleton]
    omega
  unfold segmentedColor?
  rw [List.getLast?_concat, List.dropLast_concat]
  dsimp only
  rw [if_pos ⟨hlength, List.all_eq_true.2 hnumber⟩]

/-- Segments without a number at their end name a colour together, or none: nothing is found by the
first segment alone. -/
theorem segmentedColor?_name (theme : Theme) (hnumber : ¬EndsInNumber path) :
    segmentedColor? theme path = (theme.color? path).bind bareColor? := by
  unfold segmentedColor?
  cases hlast : path.getLast? with
  | none =>
    rw [List.getLast?_eq_none_iff.1 hlast]
    rfl
  | some last =>
    have hname : ¬(1 < path.length ∧ last.toList.all Char.isDigit) := by
      rintro ⟨hlength, hall⟩
      obtain ⟨start, rfl⟩ := List.getLast?_eq_some_iff.1 hlast
      have hne : start ≠ [] := by
        rintro rfl
        exact absurd hlength (Nat.lt_irrefl 1)
      exact hnumber ⟨start, last, hne, rfl, List.all_eq_true.1 hall⟩
    dsimp only
    rw [if_neg hname]
    cases hhit : theme.color? path with
    | some hit => rfl
    | none =>
      dsimp only
      split
      · rw [hhit]
      · exact shadedColor?_eq_none hhit
      · rfl

/-- Segments lead to a colour if the last of several is a number and a shade of what the others
name, or if they name the colour together. -/
theorem segmentedColor?_cases (h : segmentedColor? theme path = some color) :
    (∃ start number hit, path = start ++ [number] ∧ (∀ c ∈ number.toList, c.isDigit = true) ∧
      theme.color? start = some hit ∧ shadeColor? hit number = some color) ∨
    ∃ hit, theme.color? path = some hit ∧ bareColor? hit = some color := by
  by_cases hnumber : EndsInNumber path
  · obtain ⟨start, number, hne, rfl, hdigits⟩ := hnumber
    rw [segmentedColor?_number theme hne hdigits] at h
    obtain ⟨hit, hhit, hcolor⟩ := Option.bind_eq_some_iff.1 h
    exact .inl ⟨start, number, hit, rfl, hdigits, hhit, hcolor⟩
  · rw [segmentedColor?_name theme hnumber] at h
    exact .inr (Option.bind_eq_some_iff.1 h)

/-- A name that is not the name of a value is looked up by its segments. -/
theorem themeColor?_eq_segmentedColor? (hfirst : firstSegment name ≠ "")
    (hname : ∀ css, theme.colors.lookup name ≠ some (.value css)) :
    themeColor? theme name = segmentedColor? theme (segments name) := by
  have hentry : (theme.color? [name]).bind entryColor? = none := by
    rw [Option.bind_eq_none_iff]
    intro hit hhit
    obtain ⟨node, hnode, rfl⟩ := walk?_singleton.1 hhit
    cases node with
    | value css => exact absurd hnode (hname css)
    | scale entries => rfl
  rw [themeColor?, if_neg hfirst, hentry, Option.none_or]

/-- A theme colour is found by its name, which is that of a value, or by its segments. -/
theorem themeColor?_cases (h : themeColor? theme name = some color) :
    (∃ css, theme.colors.lookup name = some (.value css) ∧ color = ⟨[name], css, none⟩) ∨
      segmentedColor? theme (segments name) = some color := by
  unfold themeColor? at h
  split at h
  · cases h
  · obtain h | ⟨-, h⟩ := Option.or_eq_some_iff.1 h
    · obtain ⟨hit, hhit, hcolor⟩ := Option.bind_eq_some_iff.1 h
      obtain ⟨css, hcss, rfl⟩ := Option.map_eq_some_iff.1 hcolor
      obtain ⟨node, hnode, rfl⟩ := walk?_singleton.1 hhit
      cases node with
      | value found =>
        cases hcss
        exact .inl ⟨_, hnode, rfl⟩
      | scale entries => cases hcss
    · exact .inr h

/-! ## Reading a theme colour -/

/-- A colour part that is read as a theme colour names one. -/
theorem readMain?_theme {main : String} {alpha : Option String} {color : Color}
    {keys : List String} {css : String} (h : readMain? theme main alpha = some color)
    (hkind : color.kind = .theme keys css) :
    themeColor? theme main = some ⟨keys, css, color.shade⟩ := by
  unfold readMain? at h
  split at h
  · cases h
    cases hkind
  · dsimp only at h
    split at h
    · cases h
    · split at h
      · cases h
        cases hkind
      · obtain ⟨found, hfound, rfl⟩ := Option.map_eq_some_iff.1 h
        cases hkind
        exact hfound

/-- A theme colour with an alpha or without is named by the part ahead of the slash. -/
theorem readColor?_theme {body : String} {color : Color} {keys : List String} {css : String}
    (h : readColor? theme body = some color) (hkind : color.kind = .theme keys css) :
    ∃ main, themeColor? theme main = some ⟨keys, css, color.shade⟩ := by
  unfold readColor? at h
  split at h
  · cases h
  · next main _ => exact ⟨main, readMain?_theme h hkind⟩
  · next main text _ =>
    split at h
    · cases h
    · exact ⟨main, readMain?_theme h hkind⟩

/-! ## Shades -/

/-- The shade of a theme colour is a number, possibly without digits, and its last key. -/
theorem themeColor?_shade (h : themeColor? theme name = some color)
    (hshade : color.shade = some shade) :
    (∀ c ∈ shade.toList, c.isDigit = true) ∧ color.keys.getLast? = some shade := by
  obtain ⟨css, -, rfl⟩ | h := themeColor?_cases h
  · cases hshade
  · obtain ⟨start, number, hit, -, hdigits, -, hcolor⟩ | ⟨hit, -, hcolor⟩ :=
      segmentedColor?_cases h
    · obtain ⟨hkeys, hfound⟩ := shadeColor?_spec hcolor
      obtain rfl : number = shade := Option.some.inj (hfound.symm.trans hshade)
      rw [hkeys, List.getLast?_concat]
      exact ⟨hdigits, rfl⟩
    · rw [(bareColor?_spec hcolor).2] at hshade
      cases hshade

/-- **No colour by the first segment alone.** A name that is not that of a value has no colour if
its segments lead nowhere, unless the last of several is a number. So the shade of a colour that is
read is a number, possibly without digits, and it is the last key of the colour. -/
theorem themeColor?_fallback (theme : Theme) :
    (∀ name, (∀ hit, theme.color? [name] = some hit → hit.node.value? = none) →
      ¬EndsInNumber (segments name) → theme.color? (segments name) = none →
      themeColor? theme name = none) ∧
    ∀ (body : String) (color : Color) (keys : List String) (css shade : String),
      readColor? theme body = some color → color.kind = .theme keys css →
        color.shade = some shade →
        (∀ c ∈ shade.toList, c.isDigit = true) ∧ keys.getLast? = some shade := by
  refine ⟨fun name hwhole hnumber hnone => ?_, fun body color keys css shade h hkind hshade => ?_⟩
  · rw [Option.eq_none_iff_forall_ne_some]
    intro color h
    obtain ⟨css, hcss, -⟩ | h := themeColor?_cases h
    · cases hwhole _ (walk?_singleton.2 ⟨_, hcss, rfl⟩)
    · rw [segmentedColor?_name theme hnumber, hnone] at h
      cases h
  · obtain ⟨main, hmain⟩ := readColor?_theme h hkind
    exact themeColor?_shade hmain hshade

/-- The scale of the first segment is there but does not have the shade `dark`, whereas it has the
shade that is a number. -/
theorem themeColor?_fallback_scale :
    let theme : Theme :=
      { colors := [("red", .scale [("500", .value "#111"), ("DEFAULT", .value "#222")])] }
    (theme.color? ["red-dark"] = none ∧ segments "red-dark" = ["red", "dark"] ∧
      theme.color? ["red", "dark"] = none ∧ (theme.color? ["red"]).isSome = true ∧
      themeColor? theme "red-dark" = none) ∧
    readColor? theme "red-500" =
        some ⟨"red", some "500", .theme ["red", "500"] "#111", none⟩ ∧
      (∀ c ∈ "500".toList, c.isDigit = true) ∧ ["red", "500"].getLast? = some "500" := by
  intro theme
  have hsegments : segments "red-dark" = ["red", "dark"] := by decide +kernel
  have hwhole : theme.color? ["red-dark"] = none := rfl
  have hread : readColor? theme "red-500" =
      some ⟨"red", some "500", .theme ["red", "500"] "#111", none⟩ := by decide +kernel
  obtain ⟨hnone, hshade⟩ := themeColor?_fallback theme
  refine ⟨⟨hwhole, hsegments, rfl, rfl, hnone "red-dark" (fun hit hhit => ?_) ?_ ?_⟩, hread,
    hshade _ _ _ _ _ hread rfl rfl⟩
  · rw [hwhole] at hhit
    cases hhit
  · rintro ⟨start, last, -, hpath, hdigits⟩
    rw [hsegments] at hpath
    have hlast := congrArg List.getLast? hpath
    rw [List.getLast?_concat] at hlast
    obtain rfl : "dark" = last := Option.some.inj hlast
    exact absurd (hdigits 'd' (by decide)) (by decide)
  · rw [hsegments]
    rfl

end BorderCss
