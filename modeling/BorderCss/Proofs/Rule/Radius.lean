import BorderCss.Proofs.Rule.Width

/-!
# Radius tokens

Every fragment with a radius value can be written for every corner part (`resolveToken_radius`). The
rules for borders do not see such a token, since its stem is none of theirs. Of the rules for radii
the one without a corner sees it first and takes the corner for a part of the scale, and a corner of
two logical edges is seen as its first edge alone before the rule of its class comes up. Both
decline: a text that begins with a corner is no radius, unless the theme has a radius of that name
(`radiusValue?_corner`).
-/

namespace BorderCss

variable {theme : Theme} {stem corner token : String} {corners : List Corner}
  {text rest body : List Char} {reading : Reading Styling}

/-! ## Which rules see a radius token -/

theorem radiusStem_leaves (hstem : stem ∈ ["rounded", "rd"])
    (htoken : token.toList = stem.toList ++ text) : radiusStem.Leaves token text := by
  intro side tail
  have hsplit : (⟨radiusStem, side, tail⟩ : Pattern).split? token.toList =
      ["border-rounded", "border-rd", "b-rounded", "b-rd", "rounded", "rd"].findSome? fun word =>
        (cutStart? word.toList token.toList).bind (side.split? tail) := rfl
  rw [hsplit, htoken]
  rcases List.mem_pair.1 hstem with rfl | rfl
  · have hcut : cutStart? "rounded".toList ("rounded".toList ++ text) = some text :=
      cutStart?_eq_some_iff.2 rfl
    have hshort : cutStart? "rd".toList ("rounded".toList ++ text) = none := rfl
    simp only [List.findSome?_cons, hcut, hshort, Option.bind_some]
    cases side.split? tail text <;> rfl
  · have hcut : cutStart? "rd".toList ("rd".toList ++ text) = some text :=
      cutStart?_eq_some_iff.2 rfl
    have hlong : cutStart? "rounded".toList ("rd".toList ++ text) = none := rfl
    simp only [List.findSome?_cons, hcut, hlong, Option.bind_some]
    cases side.split? tail text <;> rfl

/-- A family of rules for borders declines a token with another stem. -/
theorem findSome?_ruleFamily_eq_none {sides : List SideClass} {tail : TailClass}
    {utility : Utility} {hints : List String}
    (h : String.ofList (firstWord token.toList) ∉ borderStem.words) :
    (ruleFamily borderStem sides tail utility hints).findSome? (·.outcome? theme token) = none := by
  rw [List.findSome?_eq_none_iff]
  intro rule hrule
  rcases List.mem_cons.1 hrule with rfl | hrule
  · rw [Rule.outcome?_eq, Pattern.split?_border, if_neg h, Option.bind_none]
  · obtain ⟨side, -, rfl⟩ := List.mem_map.1 hrule
    rw [Rule.outcome?_eq, Pattern.split?_border, if_neg h, Option.bind_none]

/-- What follows a corner, taken as its radius. -/
def cornerOutcome? (theme : Theme) (corner : String) (rest : List Char) :
    Option (Reading Styling) :=
  (optionalTail.body? rest).bind (Utility.radius.sideOutcome? theme corner)

/-- What follows a hyphen, taken as a corner of two logical edges and its radius. -/
def edgePairOutcome? (theme : Theme) (text : List Char) : Option (Reading Styling) :=
  (edgePairCorners.split? optionalTail ('-' :: text)).bind fun split =>
    Utility.radius.sideOutcome? theme split.1 split.2

/-- The classes of corners without a hyphen. -/
def plainCorners : List SideClass := [letterEdges, physicalCorners, logicalCorners]

theorem plainCorners_plain : ∀ side ∈ plainCorners, side.Plain := by
  decide

/-- The rules for radii, when no other family sees the token. -/
theorem findSome?_borderRules_radius (theme : Theme) (hstem : stem ∈ ["rounded", "rd"])
    (htoken : token.toList = stem.toList ++ text) (htext : firstWord text = []) :
    borderRules.findSome? (·.outcome? theme token) =
      (cornerOutcome? theme "" text).or
        (((plainCorners.map fun side =>
            (⟨⟨radiusStem, side, optionalTail⟩, .radius, []⟩ : Rule)).findSome?
              (·.outcome? theme token)).or
          ((edgePairCorners.split? optionalTail text).bind fun split =>
            Utility.radius.sideOutcome? theme split.1 split.2)) := by
  have hleaves := radiusStem_leaves hstem htoken
  have hhyphen : ∀ word ∈ ["rounded", "rd"], '-' ∉ word.toList := by decide
  have hstems : ∀ word ∈ ["rounded", "rd"], word ∉ borderStem.words := by decide
  have hborder : String.ofList (firstWord token.toList) ∉ borderStem.words := by
    rw [htoken, ofList_firstWord (hhyphen stem hstem) htext]
    exact hstems stem hstem
  have hsides : radiusSides = plainCorners ++ [edgePairCorners] := rfl
  simp only [borderRules, List.findSome?_append, findSome?_ruleFamily_eq_none hborder,
    Option.none_or, Option.or_none]
  rw [ruleFamily, List.findSome?_cons, hleaves.outcome?_noSide, hsides, List.map_append,
    List.findSome?_append, List.map_singleton, List.findSome?_singleton, hleaves.outcome?,
    cornerOutcome?]
  cases (optionalTail.body? text).bind (Utility.radius.sideOutcome? theme "") <;> rfl

/-- A stem alone is a radius without a corner. -/
theorem findSome?_radius_nil (theme : Theme) (hstem : stem ∈ ["rounded", "rd"])
    (htoken : token.toList = stem.toList) :
    borderRules.findSome? (·.outcome? theme token) = cornerOutcome? theme "" [] := by
  have htext : token.toList = stem.toList ++ [] := by rw [htoken, List.append_nil]
  have hpair : edgePairCorners.split? optionalTail [] = none := by decide
  rw [findSome?_borderRules_radius theme hstem htext firstWord_nil,
    (radiusStem_leaves hstem htext).findSome?_sides_nil plainCorners_plain, hpair,
    Option.bind_none, Option.or_none, Option.or_none]

/-- The text behind a stem and a hyphen is tried as a radius without a corner, as one behind its
first word, and as one behind a corner of two logical edges. -/
theorem findSome?_radius_hyphen (theme : Theme) (hstem : stem ∈ ["rounded", "rd"])
    (htoken : token.toList = stem.toList ++ '-' :: text) :
    borderRules.findSome? (·.outcome? theme token) =
      (cornerOutcome? theme "" ('-' :: text)).or
        ((if String.ofList (firstWord text) ∈ plainCorners.flatMap (·.words) then
            cornerOutcome? theme (String.ofList (firstWord text)) (afterWord text)
          else none).or (edgePairOutcome? theme text)) := by
  rw [findSome?_borderRules_radius theme hstem htoken (firstWord_hyphen text),
    (radiusStem_leaves hstem htoken).findSome?_sides_hyphen plainCorners_plain]
  rfl

/-- A search that only one item can end comes to what that item gives. -/
theorem findSome?_eq_of_mem {α β : Type} {f : α → Option β} {items : List α} {item : α}
    (hitem : item ∈ items) (hother : ∀ other ∈ items, other ≠ item → f other = none) :
    items.findSome? f = f item := by
  induction items with
  | nil => cases hitem
  | cons first rest ih =>
    obtain ⟨hfirst, hrest⟩ := List.forall_mem_cons.1 hother
    rw [List.findSome?_cons]
    by_cases heq : first = item
    · subst heq
      cases hvalue : f first with
      | some value => rfl
      | none =>
        refine List.findSome?_eq_none_iff.2 fun other hmem => ?_
        by_cases hsame : other = first
        · rw [hsame, hvalue]
        · exact hrest other hmem hsame
    · rw [hfirst heq]
      exact ih ((List.mem_cons.1 hitem).resolve_left (Ne.symm heq)) hrest

/-- A corner of two logical edges is cut off as a whole: all of its class are of one length. -/
theorem edgePairOutcome?_pair {pair : String} (hpair : pair ∈ edgePairCorners.words)
    (rest : List Char) :
    edgePairOutcome? theme (pair.toList ++ rest) = cornerOutcome? theme pair rest := by
  have hlength : ∀ word ∈ edgePairCorners.words, word ≠ "" ∧ word.toList.length = 5 := by decide
  have hlead : ∀ word ∈ edgePairCorners.words, cutSide? word ('-' :: (pair.toList ++ rest)) =
      cutStart? word.toList (pair.toList ++ rest) := by
    intro word hword
    rw [cutSide?, if_neg (hlength word hword).1, cutStart?_cons_cons, if_pos rfl]
  have hcut : cutStart? pair.toList (pair.toList ++ rest) = some rest :=
    cutStart?_eq_some_iff.2 rfl
  rw [edgePairOutcome?, SideClass.split?, findSome?_eq_of_mem hpair, hlead pair hpair, hcut,
    Option.bind_some, Option.bind_map]
  · rfl
  · intro word hword hne
    rw [hlead word hword, Option.bind_eq_none_iff]
    intro left hleft
    have hsame : pair.toList.length = word.toList.length := by
      rw [(hlength pair hpair).2, (hlength word hword).2]
    have hboth := List.append_inj (cutStart?_eq_some_iff.1 hleft) hsame
    exact absurd (String.toList_inj.1 hboth.1) hne.symm

/-! ## Corners that are no radii -/

/-- The names of the radii are no corners and have no hyphen, so no text that begins with a corner
is one of them. -/
def Theme.RadiiApart (theme : Theme) : Prop :=
  ∀ entry ∈ theme.radii, '-' ∉ entry.1.toList ∧ (entry.1 ≠ "" → cornersOf? entry.1 = none)

/-- A corner without a hyphen is a word of lower-case letters that begins no CSS-wide keyword. -/
theorem cornerTable_plain : ∀ entry ∈ cornerTable, entry.1 ≠ "" → '-' ∉ entry.1.toList →
    entry.1 ∈ plainCorners.flatMap (·.words) ∧ entry.1.toList.all Char.isLower = true ∧
      entry.1.toList ∉ wideKeywords.map (firstWord ·.toList) ∧ entry.1 ≠ "full" := by
  decide +kernel

theorem cornerTable_lookup : ∀ entry ∈ cornerTable, cornersOf? entry.1 = some entry.2 := by
  decide

/-- A corner with a hyphen is made of two without. -/
theorem cornerTable_pair : ∀ entry ∈ cornerTable, '-' ∈ entry.1.toList →
    entry.1 ∈ edgePairCorners.words ∧
      ∃ first ∈ cornerTable, ∃ second ∈ cornerTable,
        (first.1 ≠ "" ∧ '-' ∉ first.1.toList) ∧ (second.1 ≠ "" ∧ '-' ∉ second.1.toList) ∧
          entry.1 = first.1 ++ "-" ++ second.1 := by
  decide +kernel

/-- A text that begins with a corner has no value as a radius. -/
theorem radiusValue?_corner (htheme : theme.RadiiApart) (hcorner : (corner, corners) ∈ cornerTable)
    (hne : corner ≠ "") (hhyphen : '-' ∉ corner.toList) (hrest : firstWord rest = []) :
    radiusValue? theme (String.ofList (corner.toList ++ rest)) = none := by
  obtain ⟨-, hlower, hwide, hfull⟩ := cornerTable_plain _ hcorner hne hhyphen
  have hword : firstWord (String.ofList (corner.toList ++ rest)).toList = corner.toList := by
    rw [String.toList_ofList, firstWord_append hhyphen, hrest, List.append_nil]
  have hworded : Worded (String.ofList (corner.toList ++ rest)).toList := by
    refine ⟨?_, ?_⟩ <;> rw [hword]
    · exact fun hnil => hne (String.toList_eq_nil_iff.1 hnil)
    · exact List.all_eq_true.1 hlower
  have hnone : String.ofList (corner.toList ++ rest) ≠ "full" := by
    intro heq
    rw [heq] at hword
    exact hfull (String.toList_inj.1 hword.symm)
  have hkey : theme.radius? (String.ofList (corner.toList ++ rest)) = none := by
    rw [Theme.radius?, List.lookup_eq_none_iff]
    intro entry hentry
    obtain ⟨hentryHyphen, hentryCorner⟩ := htheme entry hentry
    rw [bne_iff_ne]
    intro heq
    rw [← heq] at hentryHyphen hentryCorner
    rw [String.toList_ofList, List.mem_append, not_or] at hentryHyphen
    -- without a hyphen the text is the corner alone
    have hnil : rest = [] := by
      rw [← firstWord_eq_self hentryHyphen.2, hrest]
    rw [hnil, List.append_nil, String.ofList_toList] at hentryCorner
    rw [cornerTable_lookup _ hcorner] at hentryCorner
    cases hentryCorner hne
  rw [radiusValue?, if_neg hnone, resolveFragment?_rem_worded hworded (by rwa [hword]) hnone hkey]
  rfl

/-- What follows a stem that begins with a corner is no radius without a corner, and neither is what
follows an edge that begins with another one. -/
theorem cornerOutcome?_corner (htheme : theme.RadiiApart)
    (hcorner : (corner, corners) ∈ cornerTable) (hne : corner ≠ "") (hhyphen : '-' ∉ corner.toList)
    (hrest : firstWord rest = []) (before : String) :
    cornerOutcome? theme before ('-' :: (corner.toList ++ rest)) = none := by
  rw [cornerOutcome?, optionalTail_body?]
  split
  · next hline =>
    rw [Option.bind_some, Utility.sideOutcome?, Utility.outcome?, Captures.getD_side,
      Option.map_some, Captures.getD_body before defaultKey (ne_nil_of_isLine hline),
      radiusOutcome?, radiusValue?_corner htheme hcorner hne hhyphen hrest]
    cases cornersOf? before <;> rfl
  · rfl

/-! ## Accepted radii -/

/-- A corner without a scale has the theme's default radius. -/
theorem cornerOutcome?_nil (theme : Theme) (corner : String) :
    cornerOutcome? theme corner [] = cornerOutcome? theme corner ('-' :: defaultKey.toList) := by
  have hbody : optionalTail.body? ('-' :: defaultKey.toList) = some (some defaultKey.toList) := by
    decide
  have hnil : optionalTail.body? [] = some none := rfl
  rw [cornerOutcome?, cornerOutcome?, hbody, hnil]
  rfl

/-- Behind a corner without a hyphen, the default radius is no second edge. -/
theorem cornerTable_default : ∀ entry ∈ cornerTable, '-' ∉ entry.1.toList →
    ∀ rest ∈ [[], '-' :: defaultKey.toList],
      edgePairCorners.split? optionalTail ('-' :: (entry.1.toList ++ rest)) = none := by
  decide +kernel

/-- What follows a corner is settled by the rule for that corner, unless it declines. Another rule
may accept a text that the rule for the corner declines, but not the default radius. -/
theorem findSome?_corner (htheme : theme.RadiiApart) (hstem : stem ∈ ["rounded", "rd"])
    (hcorner : (corner, corners) ∈ cornerTable) (hrest : firstWord rest = [])
    (htoken : token.toList = (sided stem corner).toList ++ rest) :
    ∃ others, borderRules.findSome? (·.outcome? theme token) =
        (cornerOutcome? theme corner rest).or others ∧
      (rest ∈ [[], '-' :: defaultKey.toList] → others = none) := by
  by_cases hne : corner = ""
  · rw [sided, if_pos hne] at htoken
    rw [hne]
    rcases eq_nil_or_hyphen_of_firstWord hrest with rfl | ⟨text, rfl⟩
    · refine ⟨none, ?_, fun _ => rfl⟩
      rw [findSome?_radius_nil theme hstem (by rwa [List.append_nil] at htoken), Option.or_none]
    · refine ⟨_, findSome?_radius_hyphen theme hstem htoken, fun hdefault => ?_⟩
      obtain rfl : text = defaultKey.toList := by simpa using hdefault
      have hpair : edgePairCorners.split? optionalTail ('-' :: defaultKey.toList) = none := by
        decide
      rw [if_neg (by decide), edgePairOutcome?, hpair, Option.bind_none, Option.or_none]
  · rw [sided, if_neg hne] at htoken
    have htext : token.toList = stem.toList ++ '-' :: (corner.toList ++ rest) := by
      simpa using htoken
    rw [findSome?_radius_hyphen theme hstem htext]
    by_cases hhyphen : '-' ∈ corner.toList
    · obtain ⟨hpair, first, hfirst, second, hsecond, ⟨hne₁, hhyphen₁⟩, ⟨hne₂, hhyphen₂⟩, heq⟩ :=
        cornerTable_pair _ hcorner hhyphen
      obtain ⟨hword, -⟩ := cornerTable_plain _ hfirst hne₁ hhyphen₁
      have hname : corner = first.1 ++ "-" ++ second.1 := heq
      have hedges : corner.toList ++ rest =
          first.1.toList ++ '-' :: (second.1.toList ++ rest) := by
        rw [hname]
        simp
      -- the first edge alone would leave the second to the scale
      refine ⟨none, ?_, fun _ => rfl⟩
      rw [edgePairOutcome?_pair hpair, hedges,
        cornerOutcome?_corner htheme hfirst hne₁ hhyphen₁ (firstWord_hyphen _),
        ofList_firstWord hhyphen₁ (firstWord_hyphen _), if_pos hword, afterWord_append hhyphen₁,
        afterWord_hyphen, cornerOutcome?_corner htheme hsecond hne₂ hhyphen₂ hrest, Option.none_or,
        Option.none_or, Option.or_none]
    · obtain ⟨hword, -⟩ := cornerTable_plain _ hcorner hne hhyphen
      rw [cornerOutcome?_corner htheme hcorner hne hhyphen hrest, Option.none_or,
        ofList_firstWord hhyphen hrest, if_pos hword, afterWord_append hhyphen,
        afterWord_of_firstWord hrest]
      refine ⟨_, rfl, fun hdefault => ?_⟩
      rw [edgePairOutcome?, cornerTable_default _ hcorner hhyphen rest hdefault, Option.bind_none]

/-- The scale is taken from the theme by its name and referred to: it has no spelling of its own, it
is the name of a radius, and that is no literal key. -/
def Theme.RefersToRadius (theme : Theme) (scale : String) : Prop :=
  readBracket? scale = none ∧ spelledValue? scale = none ∧ (theme.radius? scale).isSome ∧
    scale ∉ ["DEFAULT", "none"]

/-- A radius refers to its own name, when it is taken from the theme by it, and to nothing
otherwise. -/
theorem resolveFragment?_radius_key {scale : String} {value : FragmentValue} {key : ThemeKey}
    (h : resolveFragment? theme .rem (some .radius) scale = some value) :
    value.key = some key ↔ key = ⟨"radius", [scale]⟩ ∧ theme.RefersToRadius scale := by
  unfold Theme.RefersToRadius
  unfold resolveFragment? at h
  split at h
  · next bracket hbracket =>
    obtain ⟨css, -, rfl⟩ := Option.map_eq_some_iff.1 h
    simp [hbracket]
  · next hbracket =>
    split at h
    · next css hspelled =>
      cases h
      simp [hspelled]
    · next hspelled =>
      rw [Option.bind_some, scaleValue?, ThemeScale.lookup?] at h
      cases hradius : theme.radius? scale with
      | none =>
        rw [hradius] at h
        obtain ⟨css, -, rfl⟩ := Option.map_eq_some_iff.1 h
        simp
      | some css =>
        rw [hradius, Option.map_some, Option.some_or, Option.some.injEq] at h
        have hmem : literalKeys.contains scale = true ↔ scale ∈ ["DEFAULT", "none"] :=
          List.contains_iff_mem
        rw [← h]
        by_cases hliteral : literalKeys.contains scale = true
        · rw [if_pos hliteral]
          simp only [reduceCtorEq, false_iff]
          exact fun hrefers => hrefers.2.2.2.2 (hmem.1 hliteral)
        · rw [if_neg hliteral]
          have houtside : scale ∉ ["DEFAULT", "none"] := fun h => hliteral (hmem.2 h)
          simp only [hbracket, hspelled, houtside, ThemeScale.space, Option.some.injEq,
            Option.isSome_some, not_false_eq_true, and_self, and_true, eq_comm]

/-- The value of a radius on every corner of a corner part. -/
theorem cornerOutcome?_scale {scale : String} (hcorner : (corner, corners) ∈ cornerTable)
    (hne : scale ≠ "") (hline : '\n' ∉ scale.toList) :
    cornerOutcome? theme corner ('-' :: scale.toList) =
      (radiusValue? theme scale).map
        (Reading.map (.fanOut (corners.map Corner.suffix) radiusProperty)) := by
  have hbody : isLine scale.toList = true := by simp [isLine, hne, hline]
  have hnil : scale.toList ≠ [] := ne_nil_of_isLine hbody
  rw [cornerOutcome?, optionalTail_body?, if_pos hbody, Option.bind_some, Utility.sideOutcome?,
    Utility.outcome?, Captures.getD_side, Option.map_some,
    Captures.getD_body corner defaultKey hnil, String.ofList_toList, radiusOutcome?,
    cornerTable_lookup _ hcorner, Option.bind_some]

/-- The stem of a radius, any corner part, and a scale: a full radius is set to infinity and refers
to nothing; any other scale that has a value sets the radius of each corner of the part to it and
nothing else, and to the usage it adds the name of the radius that is taken from the theme, if one
is. Without a scale the token is that of the theme's default radius. No radius of the theme may have
a hyphen in its name or the name of a corner part. -/
theorem resolveToken_radius (theme : Theme) {stem corner : String} {corners : List Corner}
    (hstem : stem ∈ ["rounded", "rd"]) (hcorner : (corner, corners) ∈ cornerTable)
    (htheme : theme.RadiiApart) (usage : Usage) :
    (∀ scale : String, scale ≠ "" → '\n' ∉ scale.toList →
      (scale = "full" → ∃ styling,
        resolveToken borderRules theme (sided stem corner ++ "-" ++ scale) usage =
          (some styling, usage) ∧
        styling.Fans (corners.map Corner.suffix) (fun suffix => "border" ++ suffix ++ "-radius")
          "calc(infinity * 1px)") ∧
      (scale ≠ "full" → ∀ css before,
        ((resolveFragment theme .rem (some .radius) scale).runFrom before).1 = some css →
        ∃ styling after,
          resolveToken borderRules theme (sided stem corner ++ "-" ++ scale) usage =
            (some styling, after) ∧
          styling.Fans (corners.map Corner.suffix) (fun suffix => "border" ++ suffix ++ "-radius")
            css ∧
          ∀ key, key ∈ after.keys ↔
            key ∈ usage.keys ∨ key = ⟨"radius", [scale]⟩ ∧ theme.RefersToRadius scale)) ∧
    resolveToken borderRules theme (sided stem corner) usage =
      resolveToken borderRules theme (sided stem corner ++ "-" ++ "DEFAULT") usage := by
  have hsuffixes := cornersOf?_suffixes (cornerTable_lookup _ hcorner)
  have hfans := Styling.fans_fanOut (cornerSuffixes_distinct _ hsuffixes).2
    (affix_injective "border" "-radius")
  constructor
  · intro scale hne hline
    have htoken : (sided stem corner ++ "-" ++ scale).toList =
        (sided stem corner).toList ++ '-' :: scale.toList := by simp
    obtain ⟨others, hall, -⟩ :=
      findSome?_corner htheme hstem hcorner (firstWord_hyphen scale.toList) htoken
    rw [cornerOutcome?_scale hcorner hne hline] at hall
    constructor
    · rintro rfl
      have hvalue : radiusValue? theme "full" = some ⟨infiniteRadius, none⟩ := if_pos rfl
      rw [hvalue] at hall
      exact ⟨_, by rw [resolveToken_eq, hall]; rfl, hfans _⟩
    · intro hfull css before hcss
      obtain ⟨value, hvalue, rfl⟩ := exists_value_of_runFrom hcss
      rw [radiusValue?, if_neg hfull, hvalue] at hall
      refine ⟨_, _, by rw [resolveToken_eq, hall]; rfl, hfans _, fun key => ?_⟩
      rw [Usage.mem_recordAll, or_comm]
      refine or_congr_right ?_
      rw [Option.mem_toList]
      exact resolveFragment?_radius_key hvalue
  · have hbody : (sided stem corner ++ "-" ++ "DEFAULT").toList =
        (sided stem corner).toList ++ '-' :: defaultKey.toList := by simp [defaultKey]
    obtain ⟨others, hbare, hnone⟩ :=
      findSome?_corner htheme hstem hcorner firstWord_nil (List.append_nil _).symm
    obtain ⟨others', hdefault, hnone'⟩ :=
      findSome?_corner htheme hstem hcorner (firstWord_hyphen defaultKey.toList) hbody
    rw [resolveToken_eq, resolveToken_eq, hbare, hdefault, cornerOutcome?_nil, hnone (by simp),
      hnone' (by simp)]

/-- A radius of the built-in theme, on a corner of two logical edges. -/
theorem resolveToken_radius_pair :
    ∃ styling after, resolveToken borderRules .preset "rounded-bs-is-md" .empty =
        (some styling, after) ∧
      styling.Fans ["-start-start"] (fun suffix => "border" ++ suffix ++ "-radius")
        "var(--radius-md)" ∧
      ∀ key, key ∈ after.keys ↔ key ∈ Usage.empty.keys ∨
        key = ⟨"radius", ["md"]⟩ ∧ Theme.preset.RefersToRadius "md" := by
  have hstem : "rounded" ∈ ["rounded", "rd"] := by decide
  have hcorner : ("bs-is", [.startStart]) ∈ cornerTable := by decide
  have htheme : Theme.preset.RadiiApart := by
    unfold Theme.RadiiApart
    decide +kernel
  have hcss : ((resolveFragment .preset .rem (some .radius) "md").runFrom .empty).1 =
      some "var(--radius-md)" := by decide +kernel
  exact ((resolveToken_radius .preset hstem hcorner htheme .empty).1 "md" (by decide)
    (by decide)).2 (by decide) "var(--radius-md)" .empty hcss

end BorderCss
