import BorderCss.Proofs.Rule.Radius

/-!
# The stems of tokens

Each stem of a border token has a long and a short spelling, `border` and `b`, and so has each stem
of a radius token, `rounded` and `rd`. A pattern of either family leaves the same text behind both
spellings (`StemClass.Alike`), so the two tokens resolve alike under any selection of the rules
(`resolveToken_spelling`). Every token that resolves begins with one of the stems
(`exists_stem_of_resolveToken`), hence with a letter (`head_of_resolveToken`).
-/

namespace BorderCss

variable {theme : Theme} {rules : List Rule} {stems : StemClass} {token a b : String}
  {stem : String} {text : List Char}

/-! ## The stems of the table -/

theorem stem_of_mem_ruleFamily {sides : List SideClass} {tail : TailClass} {utility : Utility}
    {hints : List String} {rule : Rule} (h : rule ∈ ruleFamily stems sides tail utility hints) :
    rule.pattern.stem = stems := by
  rcases List.mem_cons.1 h with rfl | h
  · rfl
  · obtain ⟨side, -, rfl⟩ := List.mem_map.1 h
    rfl

/-- A rule of the table is for tokens of a border or for tokens of a radius. -/
theorem stem_of_mem_borderRules {rule : Rule} (h : rule ∈ borderRules) :
    rule.pattern.stem = borderStem ∨ rule.pattern.stem = radiusStem := by
  simp only [borderRules, List.mem_append] at h
  rcases h with ((((h | h) | h) | h) | h) | h
  · exact .inl (stem_of_mem_ruleFamily h)
  · exact .inl (stem_of_mem_ruleFamily h)
  · exact .inl (stem_of_mem_ruleFamily h)
  · exact .inl (stem_of_mem_ruleFamily h)
  · exact .inr (stem_of_mem_ruleFamily h)
  · exact .inl (stem_of_mem_ruleFamily h)

/-- A token that resolves begins with a stem of one of the rules. -/
theorem exists_stem_of_resolveToken {usage : Usage} {styling : Styling}
    (h : (resolveToken rules theme token usage).1 = some styling) :
    ∃ rule ∈ rules, ∃ word ∈ rule.pattern.stem.words, word.toList <+: token.toList := by
  rw [resolveToken_eq, settle_fst] at h
  obtain ⟨reading, hreading, -⟩ := Option.map_eq_some_iff.1 h
  obtain ⟨rule, hrule, houtcome⟩ := List.exists_of_findSome?_eq_some hreading
  rw [Rule.outcome?_eq] at houtcome
  obtain ⟨split, hsplit, -⟩ := Option.bind_eq_some_iff.1 houtcome
  obtain ⟨word, hword, hcut⟩ := List.exists_of_findSome?_eq_some hsplit
  obtain ⟨rest, hrest, -⟩ := Option.bind_eq_some_iff.1 hcut
  exact ⟨rule, hrule, word, hword, rest, (cutStart?_eq_some_iff.1 hrest).symm⟩

/-- A token that the table resolves begins with a letter. -/
theorem head_of_resolveToken {usage : Usage} {styling : Styling}
    (h : (resolveToken borderRules theme token usage).1 = some styling) :
    ∃ c rest, token.toList = c :: rest ∧ c.isAlpha = true := by
  have hborder : ∀ word ∈ borderStem.words, word.toList.head?.any Char.isAlpha = true := by decide
  have hradius : ∀ word ∈ radiusStem.words, word.toList.head?.any Char.isAlpha = true := by decide
  obtain ⟨rule, hrule, word, hword, hstart⟩ := exists_stem_of_resolveToken h
  have halpha : word.toList.head?.any Char.isAlpha = true := by
    rcases stem_of_mem_borderRules hrule with hstem | hstem
    · exact hborder word (hstem ▸ hword)
    · exact hradius word (hstem ▸ hword)
  obtain ⟨c, hhead, hletter⟩ := (Option.any_eq_true _ _).1 halpha
  obtain ⟨tail, hword⟩ := List.head?_eq_some_iff.1 hhead
  obtain ⟨rest, htoken⟩ := hstart
  exact ⟨c, tail ++ rest, by rw [← htoken, hword, List.cons_append], hletter⟩

/-! ## Two spellings of a stem -/

/-- The patterns of the stems make the same of two tokens. -/
def StemClass.Alike (stems : StemClass) (a b : String) : Prop :=
  ∀ side tail, (⟨stems, side, tail⟩ : Pattern).split? a.toList =
    (⟨stems, side, tail⟩ : Pattern).split? b.toList

/-- Two tokens with the same text behind their stems are alike. -/
theorem StemClass.Leaves.alike (ha : stems.Leaves a text) (hb : stems.Leaves b text) :
    stems.Alike a b :=
  fun side tail => (ha side tail).trans (hb side tail).symm

/-- Rules for whose stems two tokens are alike resolve both in the same way. -/
theorem resolveToken_of_alike (h : ∀ rule ∈ rules, rule.pattern.stem.Alike a b) (usage : Usage) :
    resolveToken rules theme a usage = resolveToken rules theme b usage := by
  induction rules generalizing usage with
  | nil => rfl
  | cons rule rest ih =>
    obtain ⟨hrule, hrest⟩ := List.forall_mem_cons.1 h
    have hattempt : rule.attempt theme a usage = rule.attempt theme b usage := by
      rw [Rule.attempt_eq, Rule.attempt_eq, Rule.outcome?_eq, Rule.outcome?_eq,
        hrule rule.pattern.side rule.pattern.tail]
    rw [resolveToken, resolveToken, hattempt]
    -- A rule that declines hands the usage on, so the induction is for every usage.
    rcases rule.attempt theme b usage with ⟨_ | styling, after⟩
    · exact ih hrest after
    · rfl

/-- Both spellings of the stem of a border leave what follows them to the patterns of a border. -/
theorem borderStem_alike (htext : firstWord text = [])
    (ha : a.toList = "border".toList ++ text) (hb : b.toList = "b".toList ++ text) :
    borderStem.Alike a b :=
  (borderStem_leaves (by decide) ha htext).alike (borderStem_leaves (by decide) hb htext)

/-- Behind a border stem and a hyphen, the patterns of a radius look for their own stem. -/
theorem radiusStem_split?_border (hstem : stem ∈ borderStem.words)
    (htoken : token.toList = stem.toList ++ '-' :: text) (side : SideClass) (tail : TailClass) :
    (⟨radiusStem, side, tail⟩ : Pattern).split? token.toList =
      ["rounded", "rd"].findSome? fun word =>
        (cutStart? word.toList text).bind (side.split? tail) := by
  have hsplit : (⟨radiusStem, side, tail⟩ : Pattern).split? token.toList =
      ["border-rounded", "border-rd", "b-rounded", "b-rd", "rounded", "rd"].findSome? fun word =>
        (cutStart? word.toList token.toList).bind (side.split? tail) := rfl
  rw [hsplit, htoken]
  -- Only those of the six words can be cut off that begin with the spelling at hand and a hyphen.
  rcases List.mem_pair.1 hstem with rfl | rfl
  · have hrounded : cutStart? "border-rounded".toList ("border".toList ++ '-' :: text) =
        cutStart? "rounded".toList text := rfl
    have hrd : cutStart? "border-rd".toList ("border".toList ++ '-' :: text) =
        cutStart? "rd".toList text := rfl
    have hother : ∀ word ∈ ["b-rounded", "b-rd", "rounded", "rd"],
        cutStart? word.toList ("border".toList ++ '-' :: text) = none := by
      simp only [List.forall_mem_cons]
      exact ⟨rfl, rfl, rfl, rfl, List.forall_mem_nil _⟩
    simp only [List.forall_mem_cons] at hother
    simp only [List.findSome?_cons, List.findSome?_nil, hrounded, hrd, hother, Option.bind_none]
  · have hrounded : cutStart? "b-rounded".toList ("b".toList ++ '-' :: text) =
        cutStart? "rounded".toList text := rfl
    have hrd : cutStart? "b-rd".toList ("b".toList ++ '-' :: text) =
        cutStart? "rd".toList text := rfl
    have hother : ∀ word ∈ ["border-rounded", "border-rd", "rounded", "rd"],
        cutStart? word.toList ("b".toList ++ '-' :: text) = none := by
      simp only [List.forall_mem_cons]
      exact ⟨rfl, rfl, rfl, rfl, List.forall_mem_nil _⟩
    simp only [List.forall_mem_cons] at hother
    simp only [List.findSome?_cons, List.findSome?_nil, hrounded, hrd, hother, Option.bind_none]

/-- Both spellings of the stem of a border leave the same to the patterns of a radius. -/
theorem radiusStem_alike_border (htext : firstWord text = [])
    (ha : a.toList = "border".toList ++ text) (hb : b.toList = "b".toList ++ text) :
    radiusStem.Alike a b := by
  intro side tail
  rcases eq_nil_or_hyphen_of_firstWord htext with rfl | ⟨rest, rfl⟩
  · rw [ha, hb]
    rfl
  · rw [radiusStem_split?_border (by decide) ha, radiusStem_split?_border (by decide) hb]

/-- A token with a radius stem is for no pattern of a border. -/
theorem borderStem_split?_radius (hstem : stem ∈ ["rounded", "rd"])
    (htoken : token.toList = stem.toList ++ text) (side : SideClass) (tail : TailClass) :
    (⟨borderStem, side, tail⟩ : Pattern).split? token.toList = none := by
  rw [Pattern.split?_border, if_neg]
  intro hmem
  have hhead : (firstWord token.toList).head? = some 'b' := by
    rcases List.mem_pair.1 hmem with hword | hword
    · rw [← String.toList_ofList (l := firstWord token.toList), hword]
      rfl
    · rw [← String.toList_ofList (l := firstWord token.toList), hword]
      rfl
  rw [htoken] at hhead
  rcases List.mem_pair.1 hstem with rfl | rfl
  · cases hhead
  · cases hhead

/-- Both spellings of the stem of a radius leave the same to all patterns. -/
theorem alike_radius (hstems : stems = borderStem ∨ stems = radiusStem)
    (ha : a.toList = "rounded".toList ++ text) (hb : b.toList = "rd".toList ++ text) :
    stems.Alike a b := by
  rcases hstems with rfl | rfl
  · intro side tail
    rw [borderStem_split?_radius (by decide) ha, borderStem_split?_radius (by decide) hb]
  · exact (radiusStem_leaves (by decide) ha).alike (radiusStem_leaves (by decide) hb)

/-- Both spellings of a stem resolve alike, under any selection of the rules of the table in any
order: for a border if a hyphen or nothing follows the stem, and for a radius whatever follows it.
-/
theorem resolveToken_spelling {rules : List Rule} (hrules : ∀ rule ∈ rules, rule ∈ borderRules)
    (theme : Theme) (usage : Usage) (text : String) :
    (text = "" ∨ (∃ rest, text = "-" ++ rest) →
      resolveToken rules theme ("border" ++ text) usage =
        resolveToken rules theme ("b" ++ text) usage) ∧
    resolveToken rules theme ("rounded" ++ text) usage =
      resolveToken rules theme ("rd" ++ text) usage := by
  constructor
  · intro htext
    have hfirst : firstWord text.toList = [] := by
      rcases htext with rfl | ⟨rest, rfl⟩
      · rfl
      · rw [String.toList_append]
        rfl
    refine resolveToken_of_alike (fun rule hrule => ?_) usage
    rcases stem_of_mem_borderRules (hrules rule hrule) with hstem | hstem
    · rw [hstem]
      exact borderStem_alike hfirst String.toList_append String.toList_append
    · rw [hstem]
      exact radiusStem_alike_border hfirst String.toList_append String.toList_append
  · refine resolveToken_of_alike (fun rule hrule => ?_) usage
    exact alike_radius (stem_of_mem_borderRules (hrules rule hrule)) String.toList_append
      String.toList_append

/-- A radius of the built-in theme on a corner of two logical edges, in its four spellings, under
the rules of the table in the opposite order. -/
theorem resolveToken_spelling_reversed :
    resolveToken borderRules.reverse .preset "border-rounded-bs-is-md" .empty =
        resolveToken borderRules.reverse .preset "b-rounded-bs-is-md" .empty ∧
      resolveToken borderRules.reverse .preset "rounded-bs-is-md" .empty =
        resolveToken borderRules.reverse .preset "rd-bs-is-md" .empty := by
  have hrules : ∀ rule ∈ borderRules.reverse, rule ∈ borderRules :=
    fun rule => List.mem_reverse.1
  have hborder := (resolveToken_spelling hrules .preset .empty "-rounded-bs-is-md").1
  have hradius := (resolveToken_spelling hrules .preset .empty "-bs-is-md").2
  exact ⟨hborder (.inr ⟨"rounded-bs-is-md", by decide⟩), hradius⟩

end BorderCss
