import BorderCss.Proofs.Rule.Dispatch
import BorderCss.Proofs.Rule.Shape
import BorderCss.Proofs.Value.Word

/-!
# Width tokens

Every fragment with a value in pixels can be written as the width of every side, in three spellings
(`resolveToken_width`). The first rule of the table sees each of them, and in most it takes a side
or the word for widths for a part of the value. It declines those: a text that begins with one of
these words has no value in pixels (`resolveFragment?_px_mark`).
-/

namespace BorderCss

variable {theme : Theme} {side raw : String} {text body : List Char}

/-! ## Words that are no values -/

/-- The words that may stand between the stem of a border token and a width. -/
def markWords : List String :=
  ["width", "size"] ++ borderSideWords

theorem markWords_lower : ∀ word ∈ markWords, word.toList ≠ [] ∧
    word.toList.all Char.isLower = true ∧ word.toList ∉ wideKeywords.map (firstWord ·.toList) := by
  decide +kernel

/-- A text that begins with a side or with the word for widths begins with a word that starts no
CSS-wide keyword. -/
theorem worded_mark (h : String.ofList (firstWord text) ∈ markWords) :
    Worded text ∧ firstWord text ∉ wideKeywords.map (firstWord ·.toList) := by
  have hword := markWords_lower _ h
  rw [String.toList_ofList] at hword
  obtain ⟨hnonempty, hlower, hwide⟩ := hword
  exact ⟨⟨hnonempty, List.all_eq_true.1 hlower⟩, hwide⟩

/-- A text that begins with a side or with the word for widths has no value in pixels. -/
theorem resolveFragment?_px_mark (h : String.ofList (firstWord raw.toList) ∈ markWords) :
    resolveFragment? theme .px none raw = none := by
  obtain ⟨hworded, hwide⟩ := worded_mark h
  exact resolveFragment?_px_worded hworded hwide

/-- A text without a value in pixels is no width. -/
theorem widthOutcome?_eq_none (h : resolveFragment? theme .px none raw = none) :
    widthOutcome? theme side raw = none := by
  rw [widthOutcome?, h]
  cases edgesOf? side <;> rfl

/-! ## Accepted widths -/

/-- Only a theme scale refers to a theme key. -/
theorem resolveFragment?_key {mode : UnitMode} {value : FragmentValue}
    (h : resolveFragment? theme mode none raw = some value) : value.key = none := by
  unfold resolveFragment? at h
  split at h
  · obtain ⟨css, -, rfl⟩ := Option.map_eq_some_iff.1 h
    rfl
  · split at h
    · cases h
      rfl
    · rw [Option.bind_none, Option.none_or] at h
      obtain ⟨css, -, rfl⟩ := Option.map_eq_some_iff.1 h
      rfl

/-- One value for the width of each edge, from no theme key. -/
def widthReading (edges : List Edge) (css : String) : Reading Styling :=
  ⟨.fanOut (edges.map Edge.suffix) widthProperty css, none⟩

theorem widthOutcome?_value {edges : List Edge} (hside : edgesOf? side = some edges)
    {value : FragmentValue} (hvalue : resolveFragment? theme .px none raw = some value) :
    widthOutcome? theme side raw = some (widthReading edges value.css) := by
  have hkey := resolveFragment?_key hvalue
  rw [widthOutcome?, hside, Option.bind_some, hvalue]
  simp only [Option.map_some, FragmentValue.reading, Reading.map, hkey]
  rfl

/-- A bare number is a number of pixels. -/
theorem resolveFragment?_px_one : resolveFragment? theme .px none "1" = some ⟨"1px", none⟩ := by
  have hbracket : readBracket? "1" = none := by decide +kernel
  have hspelled : spelledValue? "1" = none := by decide +kernel
  have hpixels : pixels? "1" = some "1px" := by decide +kernel
  rw [resolveFragment?, hbracket]
  simp only [hspelled]
  rw [convert?, hpixels]
  rfl

/-- A width without a body is one pixel. -/
theorem width_sideOutcome?_none :
    Utility.width.sideOutcome? theme side none = widthOutcome? theme side "1" := by
  rw [Utility.sideOutcome?, Utility.outcome?, Captures.getD_side]
  rfl

theorem width_sideOutcome?_some (h : body ≠ []) :
    Utility.width.sideOutcome? theme side (some body) =
      widthOutcome? theme side (String.ofList body) := by
  rw [Utility.sideOutcome?, Utility.outcome?, Captures.getD_side, Option.map_some,
    Captures.getD_body side "1" h]

/-! ## Bodies -/

/-- The words for a width, with the hyphen behind them. -/
def widthLeads : List String := ["width-", "size-"]

theorem optionalTail_body? (body : List Char) :
    optionalTail.body? ('-' :: body) = if isLine body then some (some body) else none := by
  have hleads : optionalTail.leads = [""] := rfl
  have hcut : cutStart? "".toList body = some body := cutStart?_eq_some_iff.2 rfl
  rw [optionalTail.body?_hyphen, hleads, List.findSome?_singleton, hcut, Option.bind_some]

theorem widthTail_body? {lead : String} (hlead : lead ∈ widthLeads) (h : isLine body = true) :
    widthTail.body? ('-' :: (lead.toList ++ body)) = some (some body) := by
  have hleads : widthTail.leads = widthLeads := rfl
  have hcut : cutStart? lead.toList (lead.toList ++ body) = some body :=
    cutStart?_eq_some_iff.2 rfl
  rw [widthTail.body?_hyphen, hleads]
  rcases List.mem_pair.1 hlead with rfl | rfl
  · rw [widthLeads, List.findSome?_cons, hcut, Option.bind_some, if_pos h]
  · have hother : cutStart? "width-".toList ("size-".toList ++ body) = none := rfl
    rw [widthLeads, List.findSome?_cons, hother, Option.bind_none, List.findSome?_singleton, hcut,
      Option.bind_some, if_pos h]

/-- A text behind the word for widths does not begin with a side. -/
theorem firstWord_widthLeads {lead : String} (hlead : lead ∈ widthLeads) (body : List Char) :
    String.ofList (firstWord (lead.toList ++ body)) ∈ markWords ∧
      String.ofList (firstWord (lead.toList ++ body)) ∉ borderSideWords := by
  rcases List.mem_pair.1 hlead with rfl | rfl
  · have hword : firstWord ("width-".toList ++ body) = "width".toList := rfl
    rw [hword]
    decide
  · have hword : firstWord ("size-".toList ++ body) = "size".toList := rfl
    rw [hword]
    decide

/-- A text that begins with a side does not stand behind the word for widths. -/
theorem widthTail_body?_side (h : String.ofList (firstWord text) ∈ borderSideWords) :
    widthTail.body? ('-' :: text) = none := by
  have hleads : widthTail.leads = widthLeads := rfl
  rw [widthTail.body?_hyphen, hleads, List.findSome?_eq_none_iff]
  intro lead hlead
  cases hcut : cutStart? lead.toList text with
  | none => rfl
  | some body =>
    rw [cutStart?_eq_some_iff.1 hcut] at h
    exact absurd h (firstWord_widthLeads hlead body).2

/-! ## The two families of widths -/

/-- The first family has no use for a text without a value in pixels. -/
theorem optionalTail_eq_none (h : resolveFragment? theme .px none (String.ofList text) = none) :
    (optionalTail.body? ('-' :: text)).bind (Utility.width.sideOutcome? theme side) = none := by
  rw [optionalTail_body?]
  split
  · next hline =>
    rw [Option.bind_some, width_sideOutcome?_some (ne_nil_of_isLine hline)]
    exact widthOutcome?_eq_none h
  · rfl

/-- The first family has no use for a text that begins with a side or with the word for widths. -/
theorem optionalTail_mark (h : String.ofList (firstWord text) ∈ markWords) :
    (optionalTail.body? ('-' :: text)).bind (Utility.width.sideOutcome? theme side) = none :=
  optionalTail_eq_none (resolveFragment?_px_mark (by rwa [String.toList_ofList]))

variable {edges : List Edge} {value : FragmentValue} {lead : String}

theorem width_sideOutcome?_value (hside : edgesOf? side = some edges) (hline : isLine body = true)
    (hvalue : resolveFragment? theme .px none (String.ofList body) = some value) :
    Utility.width.sideOutcome? theme side (some body) = some (widthReading edges value.css) := by
  rw [width_sideOutcome?_some (ne_nil_of_isLine hline), widthOutcome?_value hside hvalue]

/-- A value in pixels behind a side, with the word for widths or without it, is the width of that
side. With the word it is the second family that accepts the text. -/
theorem widthAttempts_eq (hside : edgesOf? side = some edges) (hline : isLine body = true)
    (hvalue : resolveFragment? theme .px none (String.ofList body) = some value)
    (hlead : lead = "" ∨ lead ∈ widthLeads) :
    ((optionalTail.body? ('-' :: (lead.toList ++ body))).bind
        (Utility.width.sideOutcome? theme side)).or
      ((widthTail.body? ('-' :: (lead.toList ++ body))).bind
        (Utility.width.sideOutcome? theme side)) = some (widthReading edges value.css) := by
  have haccept := width_sideOutcome?_value hside hline hvalue
  rcases hlead with rfl | hlead
  · have hbody : optionalTail.body? ('-' :: ("".toList ++ body)) = some (some body) :=
      (optionalTail_body? body).trans (if_pos hline)
    rw [hbody, Option.bind_some, haccept, Option.some_or]
  · rw [widthTail_body? hlead hline, Option.bind_some, haccept,
      optionalTail_mark (firstWord_widthLeads hlead body).1, Option.none_or]

variable {stem token : String} {reading : Reading Styling}

/-- Behind a stem and a side, the text is settled by the first of the two families that accepts what
follows the side. -/
theorem findSome?_borderRules_side (hstem : stem ∈ borderStem.words)
    (hword : side ∈ borderSideWords)
    (htoken : token.toList = stem.toList ++ '-' :: (side.toList ++ text))
    (htext : firstWord text = [])
    (h : ((optionalTail.body? text).bind (Utility.width.sideOutcome? theme side)).or
      ((widthTail.body? text).bind (Utility.width.sideOutcome? theme side)) = some reading) :
    borderRules.findSome? (·.outcome? theme token) = some reading := by
  have hhyphen := borderSideWords_hyphen side hword
  have hfirst := ofList_firstWord hhyphen htext
  have hafter := (afterWord_append hhyphen text).trans (afterWord_of_firstWord htext)
  have hmark : side ∈ markWords := List.mem_append_right _ hword
  obtain ⟨others, hall⟩ := findSome?_borderRules_hyphen theme hstem htoken
  -- the rules without a side come first, with the side as a part of the body, and decline
  rw [hall, ← Option.or_assoc, familyOutcome?, familyOutcome?, optionalTail_mark (by rwa [hfirst]),
    widthTail_body?_side (by rwa [hfirst]), hfirst, if_pos hword, if_pos hword, hafter,
    Option.none_or, Option.bind_none, Option.none_or, h, Option.some_or]

/-- A side alone is one pixel wide. -/
theorem findSome?_bareSide (hstem : stem ∈ borderStem.words) (hword : side ∈ borderSideWords)
    (hside : edgesOf? side = some edges)
    (htoken : token.toList = stem.toList ++ '-' :: side.toList) :
    borderRules.findSome? (·.outcome? theme token) = some (widthReading edges "1px") := by
  have hbody : optionalTail.body? [] = some none := rfl
  refine findSome?_borderRules_side hstem hword (by rwa [List.append_nil]) firstWord_nil ?_
  rw [hbody, Option.bind_some, width_sideOutcome?_none,
    widthOutcome?_value hside resolveFragment?_px_one, Option.some_or]

/-- A value in pixels without a side is the width of the whole border. -/
theorem findSome?_unsidedWidth (hstem : stem ∈ borderStem.words)
    (hside : edgesOf? "" = some edges) (hline : isLine body = true)
    (hvalue : resolveFragment? theme .px none (String.ofList body) = some value)
    (hlead : lead = "" ∨ lead ∈ widthLeads)
    (htoken : token.toList = stem.toList ++ '-' :: (lead.toList ++ body)) :
    borderRules.findSome? (·.outcome? theme token) = some (widthReading edges value.css) := by
  have haccept := width_sideOutcome?_value hside hline hvalue
  obtain ⟨others, hall⟩ := findSome?_borderRules_hyphen theme hstem htoken
  rw [hall]
  rcases hlead with rfl | hlead
  · have hbody : optionalTail.body? ('-' :: ("".toList ++ body)) = some (some body) :=
      (optionalTail_body? body).trans (if_pos hline)
    rw [familyOutcome?, hbody, Option.bind_some, haccept, Option.some_or, Option.some_or]
  · obtain ⟨hmark, hnone⟩ := firstWord_widthLeads hlead body
    rw [familyOutcome?, familyOutcome?, optionalTail_mark hmark, if_neg hnone, Option.none_or,
      Option.none_or, widthTail_body? hlead hline, Option.bind_some, haccept, Option.some_or,
      Option.some_or]

/-- A stem alone gives the whole border one pixel. -/
theorem findSome?_bareStem (hstem : stem ∈ borderStem.words) (hside : edgesOf? "" = some edges)
    (htoken : token.toList = stem.toList) :
    borderRules.findSome? (·.outcome? theme token) = some (widthReading edges "1px") := by
  obtain ⟨others, hall⟩ := findSome?_borderRules_nil theme hstem htoken
  rw [hall, width_sideOutcome?_none, widthOutcome?_value hside resolveFragment?_px_one,
    Option.some_or]

/-! ## Width tokens -/

/-- A stem and, unless it is empty, a side behind a hyphen. -/
def sided (stem side : String) : String :=
  if side = "" then stem else stem ++ "-" ++ side

theorem edgeTable_sides : ∀ entry ∈ edgeTable,
    edgesOf? entry.1 = some entry.2 ∧ (entry.1 = "" ∨ entry.1 ∈ borderSideWords) := by
  decide

/-- A token with a width reading is that width for the edges of its side, and leaves the usage
alone. -/
theorem resolveToken_widthReading {css : String} (hside : edgesOf? side = some edges)
    (h : borderRules.findSome? (·.outcome? theme token) = some (widthReading edges css))
    (usage : Usage) :
    ∃ styling, resolveToken borderRules theme token usage = (some styling, usage) ∧
      styling.Fans (edges.map Edge.suffix) (fun suffix => "border" ++ suffix ++ "-width") css := by
  refine ⟨_, ?_, Styling.fans_fanOut (edgeSuffixes_distinct _ (edgesOf?_suffixes hside)).2
    (affix_injective "border" "-width") css⟩
  rw [resolveToken_eq, h]
  rfl

/-- The stem of a border, any side, the word for widths or none, and a fragment that has a value in
pixels: the token sets the width of each edge of the side to that value and nothing else, and refers
to no theme key. Without a fragment the width is one pixel. -/
theorem resolveToken_width (theme : Theme) {stem side : String} {edges : List Edge}
    (hstem : stem ∈ ["border", "b"]) (hside : (side, edges) ∈ edgeTable) (usage : Usage) :
    (∀ lead ∈ ["", "width-", "size-"], ∀ raw css : String, raw ≠ "" → '\n' ∉ raw.toList →
      ∀ before, ((resolveFragment theme .px none raw).runFrom before).1 = some css →
      ∃ styling, resolveToken borderRules theme (sided stem side ++ "-" ++ lead ++ raw) usage =
          (some styling, usage) ∧
        styling.Fans (edges.map Edge.suffix) (fun suffix => "border" ++ suffix ++ "-width") css) ∧
    ∃ styling, resolveToken borderRules theme (sided stem side) usage = (some styling, usage) ∧
      styling.Fans (edges.map Edge.suffix) (fun suffix => "border" ++ suffix ++ "-width")
        "1px" := by
  obtain ⟨hedges, hword⟩ := edgeTable_sides _ hside
  constructor
  · intro lead hlead raw css hne hline before hraw
    rw [resolveFragment_settles .px none raw before, settle_fst] at hraw
    obtain ⟨reading, hreading, rfl⟩ := Option.map_eq_some_iff.1 hraw
    obtain ⟨value, hvalue, rfl⟩ := Option.map_eq_some_iff.1 hreading
    rw [← String.ofList_toList (s := raw)] at hvalue
    have hbody : isLine raw.toList = true := by simp [isLine, hne, hline]
    have hwidth : lead = "" ∨ lead ∈ widthLeads := List.mem_cons.1 hlead
    refine resolveToken_widthReading hedges ?_ usage
    rcases hword with rfl | hword
    · refine findSome?_unsidedWidth hstem hedges hbody hvalue hwidth ?_
      simp [sided]
    · have hside : side ≠ "" := ne_of_mem_of_not_mem hword (by decide)
      refine findSome?_borderRules_side hstem hword ?_ (firstWord_hyphen _)
        (widthAttempts_eq hedges hbody hvalue hwidth)
      simp [sided, hside]
  · refine resolveToken_widthReading hedges ?_ usage
    rcases hword with rfl | hword
    · exact findSome?_bareStem hstem hedges rfl
    · have hside : side ≠ "" := ne_of_mem_of_not_mem hword (by decide)
      refine findSome?_bareSide hstem hword hedges ?_
      simp [sided, hside]

/-- The width of the two horizontal edges, with its word in front of the number. -/
theorem resolveToken_width_axis :
    ∃ styling, resolveToken borderRules .preset "b-x-width-2" .empty = (some styling, .empty) ∧
      styling.Fans ["-left", "-right"] (fun suffix => "border" ++ suffix ++ "-width") "2px" := by
  have hstem : "b" ∈ ["border", "b"] := by decide
  have hside : ("x", [.left, .right]) ∈ edgeTable := by decide
  have hraw : ((resolveFragment .preset .px none "2").runFrom .empty).1 = some "2px" := by
    decide +kernel
  exact (resolveToken_width .preset hstem hside .empty).1 "width-" (by decide) "2" "2px" (by decide)
    (by decide) .empty hraw

end BorderCss
