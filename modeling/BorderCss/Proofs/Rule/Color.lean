import BorderCss.Proofs.Rule.Width

/-!
# Colour tokens

Every fragment that reads as a colour can be written behind the word for colours, on every side
(`resolveToken_color`). The two families of widths see such a token first and decline it: the word
for colours begins no value in pixels (`resolveFragment?_px_color`), and neither does a side. The
colour rule without a side comes next; it takes the side and the word for a part of the colour, so
that text must not be a colour of its own.
-/

namespace BorderCss

variable {theme : Theme} {side : String} {edges : List Edge} {text body : List Char} {color : Color}

/-! ## The word for colours is no width -/

/-- The word for colours, with the hyphen behind it. -/
def colorLead : String := "color-"

theorem firstWord_colorLead (body : List Char) :
    String.ofList (firstWord (colorLead.toList ++ body)) = "color" := rfl

/-- A text that begins with the word for colours has no value in pixels. -/
theorem resolveFragment?_px_color (body : List Char) :
    resolveFragment? theme .px none (String.ofList (colorLead.toList ++ body)) = none := by
  have hword : firstWord (String.ofList (colorLead.toList ++ body)).toList = "color".toList := by
    rw [String.toList_ofList]
    rfl
  have hlower : "color".toList.all Char.isLower = true := by decide
  refine resolveFragment?_px_worded ⟨?_, ?_⟩ ?_ <;> rw [hword]
  · decide
  · exact List.all_eq_true.1 hlower
  · decide +kernel

/-- The first family of widths has no use for a text that begins with the word for colours. -/
theorem optionalTail_color (side : String) (body : List Char) :
    (optionalTail.body? ('-' :: (colorLead.toList ++ body))).bind
      (Utility.width.sideOutcome? theme side) = none :=
  optionalTail_eq_none (resolveFragment?_px_color body)

/-- The word for colours is none of the words for widths. -/
theorem widthTail_body?_color (body : List Char) :
    widthTail.body? ('-' :: (colorLead.toList ++ body)) = none := by
  rw [widthTail.body?_hyphen]
  rfl

/-! ## The family of colours -/

theorem color_sideOutcome?_some (side : String) (body : List Char) :
    Utility.color.sideOutcome? theme side (some body) =
      colorOutcome? theme side (String.ofList body) := by
  rw [Utility.sideOutcome?, Utility.outcome?, Captures.getD_side]
  rfl

/-- Behind the word for colours, the body is what follows the word. -/
theorem colorTail_body? (h : isLine body = true) :
    colorTail.body? ('-' :: (colorLead.toList ++ body)) = some (some body) := by
  have hleads : colorTail.leads = [colorLead, ""] := rfl
  have hcut : cutStart? colorLead.toList (colorLead.toList ++ body) = some body :=
    cutStart?_eq_some_iff.2 rfl
  rw [colorTail.body?_hyphen, hleads, List.findSome?_cons, hcut, Option.bind_some, if_pos h]

/-- A text that does not begin with the word for colours is taken as it is. -/
theorem colorTail_body?_of_firstWord (h : String.ofList (firstWord text) ≠ "color") :
    colorTail.body? ('-' :: text) = if isLine text then some (some text) else none := by
  have hleads : colorTail.leads = [colorLead, ""] := rfl
  have hempty : cutStart? "".toList text = some text := rfl
  have hcut : cutStart? colorLead.toList text = none := by
    rw [Option.eq_none_iff_forall_ne_some]
    intro body hbody
    rw [cutStart?_eq_some_iff.1 hbody, firstWord_colorLead] at h
    exact h rfl
  rw [colorTail.body?_hyphen, hleads, List.findSome?_cons, hcut, Option.bind_none,
    List.findSome?_singleton, hempty, Option.bind_some]

/-- A text that begins with a word is no math function. -/
theorem isMathBody_of_worded {raw : String} (h : Worded raw.toList) : isMathBody raw = false := by
  obtain ⟨c, rest, hraw, hc⟩ := h.head
  rw [isMathBody, bracket?, readBracket?_of_isLower hraw hc, isMathCall_of_worded h]
  rfl

/-- The family of colours has no use for a text that begins with another word and is no colour. -/
theorem colorTail_eq_none (hworded : Worded text)
    (hword : String.ofList (firstWord text) ≠ "color")
    (hnone : readColor? theme (String.ofList text) = none) :
    (colorTail.body? ('-' :: text)).bind (Utility.color.sideOutcome? theme side) = none := by
  rw [colorTail_body?_of_firstWord hword]
  split
  · have hmath : isMathBody (String.ofList text) = false :=
      isMathBody_of_worded (by rwa [String.toList_ofList])
    rw [Option.bind_some, color_sideOutcome?_some, colorOutcome?, hmath, hnone]
    cases edgesOf? side <;> rfl
  · rfl

/-- A text that begins with a side is declined by the family of colours if it is no colour. -/
theorem colorTail_side (h : String.ofList (firstWord text) ∈ borderSideWords)
    (hnone : readColor? theme (String.ofList text) = none) :
    (colorTail.body? ('-' :: text)).bind (Utility.color.sideOutcome? theme side) = none := by
  refine colorTail_eq_none (worded_mark (List.mem_append_right _ h)).1 ?_ hnone
  exact ne_of_mem_of_not_mem h (by decide)

/-! ## Accepted colours -/

/-- The stylings of a colour on each edge, merged in order, from the theme key of the colour. -/
def colorReading (color : Color) (first : Edge) (rest : List Edge) : Reading Styling where
  value := rest.foldl (fun styling edge => styling.merge (color.styling "border" edge.suffix))
    (color.styling "border" first.suffix)
  key := color.key?

theorem color_sideOutcome?_value {first : Edge} {rest : List Edge}
    (hside : edgesOf? side = some (first :: rest)) (hmath : isMathBody (String.ofList body) = false)
    (hcolor : readColor? theme (String.ofList body) = some color) :
    Utility.color.sideOutcome? theme side (some body) = some (colorReading color first rest) := by
  rw [color_sideOutcome?_some, colorOutcome?, hside, Option.bind_some, hmath, hcolor,
    Option.bind_some, List.map_cons, Color.stylings?, List.foldl_map]
  rfl

variable {stem token : String} {reading : Reading Styling}

/-- A colour behind its word and without a side is the colour of the whole border. -/
theorem findSome?_unsidedColor (hstem : stem ∈ borderStem.words) (hline : isLine body = true)
    (haccept : Utility.color.sideOutcome? theme "" (some body) = some reading)
    (htoken : token.toList = stem.toList ++ '-' :: (colorLead.toList ++ body)) :
    borderRules.findSome? (·.outcome? theme token) = some reading := by
  have hside : String.ofList (firstWord (colorLead.toList ++ body)) ∉ borderSideWords := by
    rw [firstWord_colorLead]
    decide
  obtain ⟨others, hall⟩ := findSome?_borderRules_hyphen theme hstem htoken
  rw [hall, familyOutcome?, familyOutcome?, familyOutcome?, if_neg hside, if_neg hside,
    optionalTail_color, widthTail_body?_color, colorTail_body? hline, Option.bind_some, haccept]
  rfl

/-- A colour behind a side and its word is the colour of that side. -/
theorem findSome?_sidedColor (hstem : stem ∈ borderStem.words) (hword : side ∈ borderSideWords)
    (hline : isLine body = true)
    (hnone : readColor? theme
      (String.ofList (side.toList ++ '-' :: (colorLead.toList ++ body))) = none)
    (haccept : Utility.color.sideOutcome? theme side (some body) = some reading)
    (htoken : token.toList =
      stem.toList ++ '-' :: (side.toList ++ '-' :: (colorLead.toList ++ body))) :
    borderRules.findSome? (·.outcome? theme token) = some reading := by
  have hhyphen := borderSideWords_hyphen side hword
  have htext := firstWord_hyphen (colorLead.toList ++ body)
  have hfirst := ofList_firstWord hhyphen htext
  have hafter := (afterWord_append hhyphen ('-' :: (colorLead.toList ++ body))).trans
    (afterWord_of_firstWord htext)
  have hmark : side ∈ markWords := List.mem_append_right _ hword
  obtain ⟨others, hall⟩ := findSome?_borderRules_hyphen theme hstem htoken
  -- each family sees the token twice: with the side as a part of the body, and behind the side
  rw [hall, familyOutcome?, familyOutcome?, familyOutcome?, optionalTail_mark (by rwa [hfirst]),
    widthTail_body?_side (by rwa [hfirst]), colorTail_side (by rwa [hfirst]) hnone, hfirst,
    if_pos hword, if_pos hword, if_pos hword, hafter, optionalTail_color, widthTail_body?_color,
    colorTail_body? hline, Option.bind_some, haccept]
  rfl

/-! ## Colour tokens -/

/-- The stem of a border, any side, the word for colours, and a fragment that reads as a colour and
is no math function: the token is the merge, in the order of the table, of the stylings of that
colour on the edges of the side. To the usage it adds the key path of the colour, if that is one of
the theme, and nothing otherwise. With a side, the side and all that follows it must not be a colour
as a whole, since the rule without a side would take it. -/
theorem resolveToken_color (theme : Theme) {stem side : String} {edges : List Edge}
    (hstem : stem ∈ ["border", "b"]) (hside : (side, edges) ∈ edgeTable) {body : String}
    {color : Color} (hne : body ≠ "") (hline : '\n' ∉ body.toList)
    (hcall : isMathCall body = false) (hbracket : ∀ inner ∈ bracket? body, isMathCall inner = false)
    (hcolor : readColor? theme body = some color)
    (hother : side ≠ "" → readColor? theme (side ++ "-color-" ++ body) = none) (usage : Usage) :
    ∃ first rest after, edges = first :: rest ∧
      resolveToken borderRules theme (sided stem side ++ "-color-" ++ body) usage =
        (some (rest.foldl (fun styling edge => styling.merge (color.styling "border" edge.suffix))
          (color.styling "border" first.suffix)), after) ∧
      ∀ key, key ∈ after.keys ↔ key ∈ usage.keys ∨
        ∃ keys css, color.kind = .theme keys css ∧ key = ⟨"colors", keys⟩ := by
  obtain ⟨hedges, hword⟩ := edgeTable_sides _ hside
  have hmath : isMathBody body = false := by
    rw [isMathBody, hcall, Bool.or_false, Option.any_eq_false]
    exact hbracket
  obtain ⟨first, rest, rfl⟩ : ∃ first rest, edges = first :: rest := by
    refine List.exists_cons_of_ne_nil fun hnil => ?_
    exact (edgeSuffixes_distinct _ (edgesOf?_suffixes hedges)).1 (by rw [hnil]; rfl)
  have hbody : isLine body.toList = true := by simp [isLine, hne, hline]
  have haccept : Utility.color.sideOutcome? theme side (some body.toList) =
      some (colorReading color first rest) := by
    refine color_sideOutcome?_value hedges ?_ ?_
    · rwa [String.ofList_toList]
    · rwa [String.ofList_toList]
  have hreading : borderRules.findSome?
      (·.outcome? theme (sided stem side ++ "-color-" ++ body)) =
        some (colorReading color first rest) := by
    rcases hword with rfl | hword
    · refine findSome?_unsidedColor hstem hbody haccept ?_
      simp [sided, colorLead]
    · have hside : side ≠ "" := ne_of_mem_of_not_mem hword (by decide)
      refine findSome?_sidedColor hstem hword hbody ?_ haccept ?_
      · rw [← hother hside]
        refine congrArg (readColor? theme) ?_
        simp [← String.toList_inj, colorLead]
      · simp [sided, hside, colorLead]
  refine ⟨first, rest, _, rfl, (resolveToken_eq borderRules _ usage).trans (by rw [hreading]; rfl),
    fun key => ?_⟩
  rw [Usage.mem_recordAll, or_comm]
  refine or_congr_right ?_
  rw [Option.mem_toList, colorReading, Color.key?]
  cases color.kind <;> simp [eq_comm]

/-- A colour of the built-in theme with an alpha, on the two horizontal edges. -/
theorem resolveToken_color_axis :
    ∃ first rest after, [Edge.left, .right] = first :: rest ∧
      resolveToken borderRules .preset "b-x-color-red-500/50" .empty =
        (some (rest.foldl (fun styling edge => styling.merge
            ((⟨"red", some "500", .theme ["red", "500"] "#ef4444", some "0.5"⟩ : Color).styling
              "border" edge.suffix))
          ((⟨"red", some "500", .theme ["red", "500"] "#ef4444", some "0.5"⟩ : Color).styling
            "border" first.suffix)), after) ∧
      ∀ key, key ∈ after.keys ↔ key ∈ Usage.empty.keys ∨
        ∃ keys css, ColorKind.theme ["red", "500"] "#ef4444" = .theme keys css ∧
          key = ⟨"colors", keys⟩ := by
  have hstem : "b" ∈ ["border", "b"] := by decide
  have hside : ("x", [.left, .right]) ∈ edgeTable := by decide
  have hcolor : readColor? .preset "red-500/50" =
      some ⟨"red", some "500", .theme ["red", "500"] "#ef4444", some "0.5"⟩ := by decide +kernel
  have hother : readColor? .preset "x-color-red-500/50" = none :=
    Option.isNone_iff_eq_none.1 (by decide +kernel)
  exact resolveToken_color .preset hstem hside (by decide) (by decide) (by decide +kernel)
    (by decide +kernel) hcolor (fun _ => hother) .empty

end BorderCss
