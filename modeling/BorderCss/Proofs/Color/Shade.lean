import BorderCss.Proofs.Color.KeyPath
import BorderCss.Proofs.Color.Name
import BorderCss.Proofs.Color.Segment
import Mathlib.Data.String.Basic

/-!
# Reading the shades of a theme

A shade is named by its scale and its own key. A scale whose name is several words in camel case has
the words with hyphens between them for a name, and a number behind them is read as its shade
(`readColor?_words`). Other shades are not set apart from the name but looked up with it in camel
case, so one that has letters and digits is read just if it does not end in a digit
(`readColor?_entry_iff`): a digit at the end is taken for a number, and the search ends where what
is in front of it names no scale.
-/

namespace BorderCss

variable {theme : Theme} {entries : List (String × ThemeNode)} {path words : List String}
  {hit : ThemeHit} {word name body digits shade css : String} {c : Char}

/-! ## Words -/

/-- The capitalised form of a text in ASCII. -/
theorem toList_capitalize (s : String) :
    s.capitalize.toList = s.toList.modifyHead Char.toUpper := by
  have hget := String.get_of_valid [] s.toList
  have hset := String.set_of_valid [] s.toList
  simp only [List.nil_append, String.ofList_toList, String.utf8Len_nil] at hget hset
  show (String.Pos.Raw.set s 0 (String.Pos.Raw.get s 0).toUpper).toList = _
  rw [show (0 : String.Pos.Raw) = ⟨0⟩ from rfl, hget, hset, String.toList_ofList]
  cases s.toList <;> rfl

/-- A word that begins with a lower-case letter is capitalised as in ASCII. -/
theorem MixedWord.capitalize_eq (h : MixedWord word) :
    capitalize word.toList = word.capitalize.toList := by
  obtain ⟨c, rest, hhead, hc⟩ := h.head
  have hrange := toNat_of_isLower hc
  have hascii : c.toNat < 128 := by omega
  rw [toList_capitalize, hhead, capitalize, upperCase, if_pos hascii]
  rfl

/-- The camel-cased name of words of lower-case letters. -/
theorem camelName_words (hwords : ∀ w ∈ words, LowerWord w) (word : String) :
    camelName (word :: words) = word ++ String.join (words.map String.capitalize) := by
  have hcapitals : ∀ w ∈ words, capitalize w.toList = w.capitalize.toList :=
    fun w hw => (hwords w hw).mixed.capitalize_eq
  rw [← String.toList_inj, toList_camelName_cons, String.toList_append, String.toList_join,
    List.flatMap_map, capitals, List.flatMap_def, List.flatMap_def, List.map_congr_left hcapitals]

/-- Words are joined by hyphens into a text of letters and hyphens that ends in a letter. -/
theorem intercalate_words (hne : path ≠ [])
    (hpath : ∀ w ∈ path, LowerWord w) :
    (∀ afterLower, endsLower afterLower (String.intercalate "-" path).toList = true) ∧
      ∀ c ∈ (String.intercalate "-" path).toList, c.isLower = true ∨ c = '-' := by
  induction path with
  | nil => exact absurd rfl hne
  | cons w rest ih =>
    obtain ⟨hw, hrest⟩ := List.forall_mem_cons.1 hpath
    cases rest with
    | nil =>
      rw [String.intercalate_singleton]
      exact ⟨hw.endsLower_eq, fun c hc => .inl (hw.lower c hc)⟩
    | cons next rest =>
      obtain ⟨hends, hchars⟩ := ih (List.cons_ne_nil _ _) hrest
      rw [String.intercalate_cons_cons, String.toList_append, String.toList_append]
      refine ⟨fun afterLower => ?_, fun c hc => ?_⟩
      · rw [endsLower_append, hends]
      · rw [List.mem_append, List.mem_append] at hc
        rcases hc with (hc | hc) | hc
        · exact .inl (hw.lower c hc)
        · exact .inr (List.mem_singleton.1 hc)
        · exact hchars c hc

/-- The segments of words with hyphens between them are the words. -/
theorem segments_words (hne : path ≠ []) (hpath : ∀ w ∈ path, LowerWord w) :
    segments (String.intercalate "-" path) = path := by
  obtain ⟨-, hchars⟩ := intercalate_words hne hpath
  rw [segments_of_forall_not_isDigit, hyphenParts_intercalate hne]
  · exact fun w hw => (hpath w hw).hyphen_notMem
  · intro c hc
    rcases hchars c hc with hlower | rfl
    · exact isDigit_of_isLower hlower
    · rfl

/-- Words with a hyphen or a digit behind them make a name, whatever follows it. -/
theorem named_words {tail : List Char} (hpath : ∀ w ∈ word :: words, LowerWord w)
    (hbody : body.toList = (String.intercalate "-" (word :: words)).toList ++ c :: tail)
    (hc : c.isLower = false) (htail : ∀ d ∈ c :: tail, isColorNameChar d = true) :
    Named word body := by
  refine ⟨hpath word List.mem_cons_self, ?_, ?_⟩
  · cases words with
    | nil =>
      rw [String.intercalate_singleton] at hbody
      exact ⟨c, tail, hbody, hc⟩
    | cons next rest =>
      rw [String.intercalate_cons_cons, String.toList_append, String.toList_append,
        List.append_assoc, List.append_assoc] at hbody
      exact ⟨'-', _, hbody, rfl⟩
  · obtain ⟨-, hchars⟩ := intercalate_words (List.cons_ne_nil word words) hpath
    rw [hbody]
    refine List.forall_mem_append.2 ⟨fun d hd => ?_, htail⟩
    rcases hchars d hd with hlower | rfl
    · rw [isColorNameChar, hlower]
      rfl
    · rfl

theorem named_hyphen (hpath : ∀ w ∈ word :: words, LowerWord w)
    (hshade : ∀ c ∈ shade.toList, c.isLower = true ∨ c.isDigit = true) :
    Named word (String.intercalate "-" (word :: words) ++ "-" ++ shade) := by
  refine named_words hpath ?_ (rfl : '-'.isLower = false)
    (List.forall_mem_cons.2 ⟨rfl, fun c hc => isColorNameChar_of (hshade c hc)⟩)
  rw [String.append_assoc, String.toList_append, String.toList_append]
  rfl

theorem named_number (hpath : ∀ w ∈ word :: words, LowerWord w) (hdigits : DigitWord digits) :
    Named word (String.intercalate "-" (word :: words) ++ digits) := by
  obtain ⟨c, rest, hhead, hc⟩ := hdigits.head
  have hplain : ∀ d ∈ c :: rest, isColorNameChar d = true :=
    hhead ▸ fun d hd => isColorNameChar_of (.inr (hdigits.digit d hd))
  refine named_words hpath ?_ (isLower_of_isDigit hc) hplain
  rw [String.toList_append, hhead]

/-! ## Shades that are numbers -/

/-- A number behind the segments of a scale is read as its shade. -/
theorem Named.readColor?_number (h : Named word body) (hhex : word ≠ "hex")
    (hsegments : segments body = word :: words ++ [digits]) (hdigits : DigitWord digits)
    (hscale : theme.colors.lookup (camelName (word :: words)) = some (.scale entries))
    (hshade : entries.lookup digits = some (.value css))
    (hbody : ∀ value, theme.colors.lookup body ≠ some (.value value)) :
    readColor? theme body =
      some ⟨word, some digits, .theme [camelName (word :: words), digits] css, none⟩ := by
  have hpath : word :: words ≠ [] := List.cons_ne_nil word words
  have hfirst : firstSegment body = word := by
    rw [firstSegment, hsegments]
    rfl
  have hshaded : shadeColor? ⟨.scale entries, [camelName (word :: words)]⟩ digits =
      some ⟨[camelName (word :: words), digits], css, some digits⟩ := by
    rw [shadeColor?, ThemeNode.get?, hshade]
    rfl
  have hcolor : themeColor? theme body =
      some ⟨[camelName (word :: words), digits], css, some digits⟩ := by
    rw [themeColor?_eq_segmentedColor? (hfirst ▸ h.nonempty) hbody, hsegments,
      segmentedColor?_number theme hpath hdigits.digit, Theme.color?, walk?_camelName hpath hscale,
      Option.bind_some, hshaded]
  rw [h.readColor?_eq theme hhex, hcolor, Option.map_some, hfirst]

/-- A number in a scale whose name is several words in camel case is read by the words with hyphens
between them, with one more in front of the number or without. -/
theorem readColor?_words {theme : Theme} {word : String} {words : List String} {digits css : String}
    {entries : List (String × ThemeNode)} (hhex : word ≠ "hex")
    (hwords : ∀ w ∈ word :: words, LowerWord w) (hdigits : DigitWord digits)
    (hscale : theme.colors.lookup (word ++ String.join (words.map String.capitalize)) =
      some (.scale entries))
    (hshade : entries.lookup digits = some (.value css))
    (hdashed : ∀ value, theme.colors.lookup
      (String.intercalate "-" (word :: words) ++ "-" ++ digits) ≠ some (.value value))
    (hcompact : ∀ value, theme.colors.lookup
      (String.intercalate "-" (word :: words) ++ digits) ≠ some (.value value)) :
    let color : Color :=
      ⟨word, some digits,
        .theme [word ++ String.join (words.map String.capitalize), digits] css, none⟩
    readColor? theme (String.intercalate "-" (word :: words) ++ "-" ++ digits) = some color ∧
      readColor? theme (String.intercalate "-" (word :: words) ++ digits) = some color := by
  have hpath : word :: words ≠ [] := List.cons_ne_nil word words
  have hcamel : camelName (word :: words) = word ++ String.join (words.map String.capitalize) :=
    camelName_words (fun w hw => hwords w (List.mem_cons_of_mem word hw)) word
  obtain ⟨hends, -⟩ := intercalate_words hpath hwords
  obtain ⟨hsegments, hjoined⟩ :=
    hdigits.segments_append (String.intercalate "-" (word :: words))
  rw [segments_words hpath hwords] at hsegments hjoined
  rw [← hcamel] at hscale ⊢
  constructor
  · have hnamed := named_hyphen hwords fun c hc => .inr (hdigits.digit c hc)
    exact hnamed.readColor?_number hhex hsegments hdigits hscale hshade hdashed
  · have hnamed := named_number hwords hdigits
    exact hnamed.readColor?_number hhex (hjoined (hends false)) hdigits hscale hshade hcompact

/-- A scale with a name of two words. -/
theorem readColor?_words_sky :
    let theme : Theme := { colors := [("deepSky", .scale [("500", .value "#0ea5e9")])] }
    let color : Color := ⟨"deep", some "500", .theme ["deepSky", "500"] "#0ea5e9", none⟩
    readColor? theme "deep-sky-500" = some color ∧ readColor? theme "deep-sky500" = some color := by
  intro theme color
  have hkey : "deep" ++ String.join (["sky"].map String.capitalize) = "deepSky" := by decide
  have hscale : theme.colors.lookup ("deep" ++ String.join (["sky"].map String.capitalize)) =
      some (.scale [("500", .value "#0ea5e9")]) := by
    rw [hkey]
    rfl
  have hdeep : LowerWord "deep" := ⟨by decide, List.all_eq_true.1 (by decide)⟩
  have hsky : LowerWord "sky" := ⟨by decide, List.all_eq_true.1 (by decide)⟩
  have hwords : ∀ w ∈ ["deep", "sky"], LowerWord w :=
    List.forall_mem_cons.2 ⟨hdeep, List.forall_mem_singleton.2 hsky⟩
  have hdigits : DigitWord "500" := ⟨by decide, List.all_eq_true.1 (by decide)⟩
  have hnone : ∀ node : ThemeNode, none ≠ some node := fun node => (Option.some_ne_none node).symm
  have hread := readColor?_words (by decide) hwords hdigits hscale rfl
    (fun _ => hnone _) (fun _ => hnone _)
  rw [hkey] at hread
  exact hread

/-! ## Shades that are names -/

theorem segments_entry (hname : LowerWord name) (shade : String) :
    segments (name ++ "-" ++ shade) = name :: segments shade := by
  have hsegments := segments_words (List.cons_ne_nil name []) (List.forall_mem_singleton.2 hname)
  rw [String.intercalate_singleton] at hsegments
  rw [segments_hyphen, hsegments]
  rfl

/-- In camel case, the segments of a scale and of a shade make the key of the scale with the shade
capitalised behind it. -/
theorem MixedWord.camelName_cons (h : MixedWord shade) (name : String) :
    camelName (name :: segments shade) = name ++ shade.capitalize := by
  rw [← String.toList_inj, toList_camelName_cons, ← capitalize_camelName,
    camelName_segments h.hyphen_notMem, h.capitalize_eq, String.toList_append]

/-- The name of a shade behind the name of its scale is looked up as one key where it does not end
in a digit. -/
theorem MixedWord.segmentedColor?_entry (h : MixedWord shade) (hc : c ∈ shade.toList.getLast?)
    (hdigit : c.isDigit = false) (hscale : theme.colors.lookup name = some (.scale entries))
    (hentry : entries.lookup shade = some (.value css))
    (hcamel : theme.colors.lookup (name ++ shade.capitalize) = none) :
    segmentedColor? theme (name :: segments shade) = some ⟨[name, shade], css, none⟩ := by
  have hjoined := camelName_segments h.hyphen_notMem
  obtain ⟨last, hlast, hnumber⟩ := getLast?_segments h.hyphen_notMem hc hdigit
  have hne : segments shade ≠ [] := by
    intro hnil
    rw [hnil] at hlast
    cases hlast
  have hname : ¬EndsInNumber (name :: segments shade) := by
    rintro ⟨start, number, -, hpath, hdigits⟩
    have hwhole := congrArg List.getLast? hpath
    rw [List.getLast?_cons, hlast, Option.getD_some, List.getLast?_concat] at hwhole
    rw [Option.some.inj hwhole, List.all_eq_true.2 hdigits] at hnumber
    cases hnumber
  have hfound : walk? entries (segments shade) = some ⟨.value css, [shade]⟩ := by
    rw [walk?_camelName hne (by rwa [hjoined]), hjoined]
  -- The whole path is no key of the theme in camel case, so the walk goes on inside the scale.
  have hhit : theme.color? (name :: segments shade) = some ⟨.value css, [name, shade]⟩ := by
    rw [← h.camelName_cons] at hcamel
    obtain ⟨next, rest, hsegments⟩ := List.exists_cons_of_ne_nil hne
    rw [hsegments] at hcamel hfound ⊢
    exact walk?_cons_cons.2 (.inr ⟨hcamel, entries, _, hscale, hfound, rfl⟩)
  rw [segmentedColor?_name theme hname, hhit]
  rfl

/-- Where it ends in a digit, its digits are looked up as a shade instead. -/
theorem MixedWord.keys_ne (h : MixedWord shade) (hc : c ∈ shade.toList.getLast?)
    (hdigit : c.isDigit = true) {color : ThemeColor}
    (hcolor : segmentedColor? theme (name :: segments shade) = some color) :
    color.keys ≠ [name, shade] := by
  obtain ⟨start, digits, rfl, hends, hdigits⟩ := h.exists_number hc hdigit
  rw [(hdigits.segments_append start).2 hends, ← List.cons_append,
    segmentedColor?_number theme (List.cons_ne_nil _ _) hdigits.digit] at hcolor
  obtain ⟨hit, -, hshade⟩ := Option.bind_eq_some_iff.1 hcolor
  rw [(shadeColor?_spec hshade).1]
  -- Were the digits the whole shade, no letter would be in front of them.
  intro hkeys
  have hlast := congrArg List.getLast? hkeys
  rw [List.getLast?_concat] at hlast
  have hwhole : digits.toList = start.toList ++ digits.toList := by
    rw [← String.toList_append]
    exact congrArg String.toList (Option.some.inj hlast)
  rw [List.self_eq_append_left.1 hwhole] at hends
  cases hends

/-- A shade of lower-case letters and digits that begins with a letter is read by its name and the
name of its scale just if it does not end in a digit. -/
theorem readColor?_entry_iff {theme : Theme} {name shade css : String}
    {entries : List (String × ThemeNode)} (hname : LowerWord name) (hhex : name ≠ "hex")
    (hscale : theme.colors.lookup name = some (.scale entries)) (hshade : MixedWord shade)
    (hentry : entries.lookup shade = some (.value css))
    (hdashed : theme.colors.lookup (name ++ "-" ++ shade) = none)
    (hcamel : theme.colors.lookup (name ++ shade.capitalize) = none) :
    (∃ color, readColor? theme (name ++ "-" ++ shade) = some color ∧
        color.kind = .theme [name, shade] css) ↔
      ∀ c ∈ shade.toList.getLast?, c.isDigit = false := by
  have hsegments := segments_entry hname shade
  have hnamed : Named name (name ++ "-" ++ shade) := by
    have hwords := named_hyphen (List.forall_mem_singleton.2 hname) hshade.plain
    rwa [String.intercalate_singleton] at hwords
  have hcolor : themeColor? theme (name ++ "-" ++ shade) =
      segmentedColor? theme (name :: segments shade) := by
    rw [themeColor?_eq_segmentedColor?, hsegments]
    · rw [firstSegment, hsegments]
      exact hname.nonempty
    · rw [hdashed]
      exact fun _ => (Option.some_ne_none _).symm
  rw [hnamed.readColor?_eq theme hhex, hcolor]
  constructor
  · rintro ⟨color, hread, hkind⟩ c hc
    obtain ⟨found, hfound, rfl⟩ := Option.map_eq_some_iff.1 hread
    have hkeys : found.keys = [name, shade] := (ColorKind.theme.inj hkind).1
    rw [← Bool.not_eq_true]
    exact fun hdigit => hshade.keys_ne hc hdigit hfound hkeys
  · intro hlast
    obtain ⟨d, rest, hhead, -⟩ := hshade.head
    have hmem := List.getLast?_eq_some_getLast (hhead ▸ List.cons_ne_nil d rest)
    rw [hshade.segmentedColor?_entry hmem (hlast _ hmem) hscale hentry hcamel]
    exact ⟨_, rfl, rfl⟩

/-- A shade with a digit inside its name. -/
theorem readColor?_entry_iff_inside :
    let theme : Theme := { colors := [("brand", .scale [("a1b", .value "#123")])] }
    ∃ color, readColor? theme "brand-a1b" = some color ∧
      color.kind = .theme ["brand", "a1b"] "#123" := by
  intro theme
  have hname : LowerWord "brand" := ⟨by decide, List.all_eq_true.1 (by decide)⟩
  have hall : "a1b".toList.all (fun c => c.isLower || c.isDigit) = true := by decide
  have hshade : MixedWord "a1b" := ⟨⟨'a', ['1', 'b'], rfl, rfl⟩, fun c hc =>
    Bool.or_eq_true_iff.1 (List.all_eq_true.1 hall c hc)⟩
  have hcapital : "brand" ++ "a1b".capitalize = "brandA1b" := by decide
  have hcamel : theme.colors.lookup ("brand" ++ "a1b".capitalize) = none := by
    rw [hcapital]
    rfl
  have hlast : ∀ c ∈ "a1b".toList.getLast?, c.isDigit = false := fun c hc =>
    Option.some.inj hc ▸ rfl
  exact (readColor?_entry_iff hname (by decide) rfl hshade rfl rfl hcamel).2 hlast

/-- A shade that ends in a digit is not read by its name. -/
theorem readColor?_entry_iff_end :
    let theme : Theme := { colors := [("brand", .scale [("a1", .value "#123")])] }
    theme.colors.lookup "brand-a1" = none ∧
      theme.colors.lookup ("brand" ++ "a1".capitalize) = none ∧
      readColor? theme "brand-a1" = none := by
  have hcapital : "brand" ++ "a1".capitalize = "brandA1" := by decide
  rw [hcapital]
  exact ⟨rfl, rfl, by decide +kernel⟩

end BorderCss
