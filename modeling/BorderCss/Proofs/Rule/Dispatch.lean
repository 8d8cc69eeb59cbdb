import BorderCss.Proofs.Rule.Outcome
import BorderCss.Proofs.Text.Word
import BorderCss.Rule.Table

/-!
# Which border rules a token reaches

The words of a border token's stem and sides have no hyphens, so a pattern fits a token by its first
word and, where a side is asked for, by its second (`Pattern.split?_border`,
`SideClass.Plain.split?_hyphen`). A family of rules therefore comes to two attempts on a token: the
rule without a side sees all of the text behind the stem, and if it declines, the word there may
name a side (`familyOutcome?`). The table tries the families in turn
(`findSome?_borderRules_hyphen`).
-/

namespace BorderCss

variable {tail : TailClass} {side : SideClass} {theme : Theme} {token : String}

/-! ## Patterns -/

theorem TailClass.body?_cons_of_ne {c : Char} (h : c ≠ '-') (rest : List Char) :
    tail.body? (c :: rest) = none := by
  unfold TailClass.body?
  split
  · next heq => cases heq
  · next heq =>
    rw [List.cons.injEq] at heq
    exact absurd heq.1 h
  · rfl

/-- The body behind a hyphen is what a lead leaves of the text, if that is a line. -/
theorem TailClass.body?_hyphen (tail : TailClass) (text : List Char) :
    tail.body? ('-' :: text) = tail.leads.findSome? fun lead =>
      (cutStart? lead.toList text).bind fun body =>
        if isLine body then some (some body) else none := by
  unfold TailClass.body?
  refine congrArg (tail.leads.findSome? ·) (funext fun lead => ?_)
  cases cutStart? lead.toList text <;> rfl

theorem ne_nil_of_isLine {body : List Char} (h : isLine body = true) : body ≠ [] := by
  rintro rfl
  cases h

/-- The side and the body of what follows a stem. -/
def SideClass.split? (side : SideClass) (tail : TailClass) (text : List Char) :
    Option (String × Option (List Char)) :=
  side.words.findSome? fun word =>
    (cutSide? word text).bind fun rest => (tail.body? rest).map (word, ·)

theorem SideClass.split?_cons_of_ne {c : Char} (h : c ≠ '-') (rest : List Char) :
    side.split? tail (c :: rest) = none := by
  refine List.findSome?_eq_none_iff.2 fun word _ => ?_
  unfold cutSide?
  split
  · rw [Option.bind_some, tail.body?_cons_of_ne h, Option.map_none]
  · rw [cutStart?_cons_cons, if_neg h.symm, Option.bind_none]

theorem borderStem_words : ∀ word ∈ borderStem.words, '-' ∉ word.toList := by
  decide

/-- A border pattern fits by the first word of a token, its stem, and by what follows it. -/
theorem Pattern.split?_border (token : List Char) :
    (⟨borderStem, side, tail⟩ : Pattern).split? token =
      if String.ofList (firstWord token) ∈ borderStem.words then side.split? tail (afterWord token)
      else none :=
  findSome?_cutStart? (fun word hword => ⟨borderStem_words word hword, rfl⟩)
    fun _ _ rest hne => SideClass.split?_cons_of_ne hne rest

theorem noSide_split? (text : List Char) :
    noSide.split? tail text = (tail.body? text).map ("", ·) := by
  unfold SideClass.split?
  rw [show noSide.words = [""] from rfl, List.findSome?_singleton]
  rfl

/-- A class of sides that must be written, by words without hyphens. -/
def SideClass.Plain (side : SideClass) : Prop :=
  ∀ word ∈ side.words, word ≠ "" ∧ '-' ∉ word.toList

instance : DecidablePred SideClass.Plain := fun side =>
  inferInstanceAs (Decidable (∀ word ∈ side.words, word ≠ "" ∧ '-' ∉ word.toList))

/-- A side that must be written needs a hyphen in front of it. -/
theorem SideClass.Plain.split?_nil (h : side.Plain) : side.split? tail [] = none := by
  refine List.findSome?_eq_none_iff.2 fun word hword => ?_
  rw [cutSide?, if_neg (h word hword).1]
  rfl

/-- A side is the first word behind the hyphen. -/
theorem SideClass.Plain.split?_hyphen (h : side.Plain) (text : List Char) :
    side.split? tail ('-' :: text) =
      if String.ofList (firstWord text) ∈ side.words then
        (tail.body? (afterWord text)).map (String.ofList (firstWord text), ·)
      else none := by
  refine findSome?_cutStart? (fun word hword => ⟨(h word hword).2, ?_⟩) fun _ _ _ hne => ?_
  · rw [cutSide?, if_neg (h word hword).1, cutStart?_cons_cons, if_pos rfl]
  · rw [tail.body?_cons_of_ne hne, Option.map_none]

/-! ## Families of rules -/

/-- What a utility makes of a side and a body. -/
def Utility.sideOutcome? (utility : Utility) (theme : Theme) (side : String)
    (body : Option (List Char)) : Option (Reading Styling) :=
  utility.outcome? theme ⟨[some side, body.map String.ofList]⟩

/-- The first group of a border token is its side. -/
theorem Captures.getD_side (side : String) (body : Option String) :
    (⟨[some side, body]⟩ : Captures).getD 1 "" = side := by
  show (if side = "" then "" else side) = side
  split
  · next h => exact h.symm
  · rfl

/-- The second group is its body. -/
theorem Captures.getD_body (side fallback : String) {body : List Char} (h : body ≠ []) :
    (⟨[some side, some (String.ofList body)]⟩ : Captures).getD 2 fallback = String.ofList body := by
  have hne : String.ofList body ≠ "" := by
    rw [Ne, ← String.toList_inj, String.toList_ofList]
    exact h
  exact if_neg hne

theorem Rule.outcome?_eq (rule : Rule) (token : String) :
    rule.outcome? theme token =
      (rule.pattern.split? token.toList).bind fun split =>
        rule.utility.sideOutcome? theme split.1 split.2 := by
  rw [Rule.outcome?, Pattern.captures?, Option.bind_map]
  rfl

/-- The words that a border token may name a side by. -/
def borderSideWords : List String :=
  borderSides.flatMap (·.words)

theorem borderSides_plain : ∀ side ∈ borderSides, side.Plain := by
  decide

theorem borderSideWords_hyphen : ∀ word ∈ borderSideWords, '-' ∉ word.toList := by
  decide

variable {stem : String} {text : List Char} {utility : Utility} {hints : List String}

/-- The stems leave `text` of the token to the side and the tail of a pattern. -/
def StemClass.Leaves (stems : StemClass) (token : String) (text : List Char) : Prop :=
  ∀ side tail, (⟨stems, side, tail⟩ : Pattern).split? token.toList = side.split? tail text

/-- A border stem leaves what follows it, if that is a hyphen or nothing. -/
theorem borderStem_leaves (hstem : stem ∈ borderStem.words)
    (htoken : token.toList = stem.toList ++ text) (htext : firstWord text = []) :
    borderStem.Leaves token text := by
  intro side tail
  have hword := borderStem_words stem hstem
  rw [htoken, Pattern.split?_border, ofList_firstWord hword htext, if_pos hstem,
    afterWord_append hword, afterWord_of_firstWord htext]

variable {stems : StemClass}

/-- A rule looks at what its stems leave. -/
theorem StemClass.Leaves.outcome? (h : stems.Leaves token text) :
    (⟨⟨stems, side, tail⟩, utility, hints⟩ : Rule).outcome? theme token =
      (side.split? tail text).bind fun split => utility.sideOutcome? theme split.1 split.2 := by
  rw [Rule.outcome?_eq, h side tail]

/-- A rule without a side takes all that follows the stem for its tail. -/
theorem StemClass.Leaves.outcome?_noSide (h : stems.Leaves token text) :
    (⟨⟨stems, noSide, tail⟩, utility, hints⟩ : Rule).outcome? theme token =
      (tail.body? text).bind (utility.sideOutcome? theme "") := by
  rw [h.outcome?, noSide_split?, Option.bind_map]
  rfl

/-- A rule with a side takes the first word behind the hyphen for it. -/
theorem StemClass.Leaves.outcome?_side (h : stems.Leaves token ('-' :: text))
    (hside : side.Plain) :
    (⟨⟨stems, side, tail⟩, utility, hints⟩ : Rule).outcome? theme token =
      if String.ofList (firstWord text) ∈ side.words then
        (tail.body? (afterWord text)).bind
          (utility.sideOutcome? theme (String.ofList (firstWord text)))
      else none := by
  rw [h.outcome?, hside.split?_hyphen]
  split
  · rw [Option.bind_map]
    rfl
  · rfl

/-- The rules with a side decline a stem alone. -/
theorem StemClass.Leaves.findSome?_sides_nil (h : stems.Leaves token []) {sides : List SideClass}
    (hplain : ∀ side ∈ sides, side.Plain) :
    (sides.map fun side => (⟨⟨stems, side, tail⟩, utility, []⟩ : Rule)).findSome?
      (·.outcome? theme token) = none := by
  rw [List.findSome?_map, List.findSome?_eq_none_iff]
  intro side hside
  rw [Function.comp_apply, h.outcome?, (hplain side hside).split?_nil, Option.bind_none]

/-- The rules with a side come to one whose class has the word behind the stem. -/
theorem StemClass.Leaves.findSome?_sides_hyphen (h : stems.Leaves token ('-' :: text))
    {sides : List SideClass} (hplain : ∀ side ∈ sides, side.Plain) :
    (sides.map fun side => (⟨⟨stems, side, tail⟩, utility, []⟩ : Rule)).findSome?
      (·.outcome? theme token) =
      if String.ofList (firstWord text) ∈ sides.flatMap (·.words) then
        (tail.body? (afterWord text)).bind
          (utility.sideOutcome? theme (String.ofList (firstWord text)))
      else none := by
  induction sides with
  | nil => rfl
  | cons side rest ih =>
    obtain ⟨hside, hrest⟩ := List.forall_mem_cons.1 hplain
    rw [List.map_cons, List.findSome?_cons, h.outcome?_side hside, ih hrest, List.flatMap_cons]
    by_cases h : String.ofList (firstWord text) ∈ side.words
    · rw [if_pos h, if_pos (List.mem_append_left _ h)]
      -- a later class with the same word would come to the same
      cases (tail.body? (afterWord text)).bind
          (utility.sideOutcome? theme (String.ofList (firstWord text))) with
      | none => exact ite_self none
      | some outcome => rfl
    · rw [if_neg h]
      simp only [List.mem_append, h, false_or]

/-- A family of border rules tries the stem alone without a side. -/
theorem findSome?_ruleFamily_nil (hstem : stem ∈ borderStem.words)
    (htoken : token.toList = stem.toList) :
    (ruleFamily borderStem borderSides tail utility hints).findSome? (·.outcome? theme token) =
      (tail.body? []).bind (utility.sideOutcome? theme "") := by
  have hleaves : borderStem.Leaves token [] :=
    borderStem_leaves hstem (by rw [htoken, List.append_nil]) firstWord_nil
  rw [ruleFamily, List.findSome?_cons, hleaves.findSome?_sides_nil borderSides_plain,
    hleaves.outcome?_noSide]
  cases (tail.body? []).bind (utility.sideOutcome? theme "") <;> rfl

/-- What a family of border rules makes of the text behind a stem and a hyphen: it takes all of it
for the tail or, if that is declined, the first word for a side. -/
def familyOutcome? (tail : TailClass) (utility : Utility) (theme : Theme) (text : List Char) :
    Option (Reading Styling) :=
  ((tail.body? ('-' :: text)).bind (utility.sideOutcome? theme "")).or
    (if String.ofList (firstWord text) ∈ borderSideWords then
      (tail.body? (afterWord text)).bind
        (utility.sideOutcome? theme (String.ofList (firstWord text)))
    else none)

theorem findSome?_ruleFamily_hyphen (hstem : stem ∈ borderStem.words)
    (htoken : token.toList = stem.toList ++ '-' :: text) :
    (ruleFamily borderStem borderSides tail utility hints).findSome? (·.outcome? theme token) =
      familyOutcome? tail utility theme text := by
  have hleaves := borderStem_leaves hstem htoken (firstWord_hyphen text)
  rw [ruleFamily, List.findSome?_cons, hleaves.findSome?_sides_hyphen borderSides_plain,
    hleaves.outcome?_noSide, familyOutcome?, borderSideWords]
  cases (tail.body? ('-' :: text)).bind (utility.sideOutcome? theme "") <;> rfl

/-! ## The table -/

/-- A stem alone is a width without a body, if it is anything. -/
theorem findSome?_borderRules_nil (theme : Theme) (hstem : stem ∈ borderStem.words)
    (htoken : token.toList = stem.toList) :
    ∃ others, borderRules.findSome? (·.outcome? theme token) =
      (Utility.width.sideOutcome? theme "" none).or others := by
  simp only [borderRules, List.findSome?_append, Option.or_assoc]
  have hbody : optionalTail.body? [] = some none := rfl
  rw [findSome?_ruleFamily_nil hstem htoken, hbody, Option.bind_some]
  exact ⟨_, rfl⟩

/-- The text behind a stem and a hyphen is tried as a width, a width behind its word, a colour and
an opacity, before the other families see the token. -/
theorem findSome?_borderRules_hyphen (theme : Theme) (hstem : stem ∈ borderStem.words)
    (htoken : token.toList = stem.toList ++ '-' :: text) :
    ∃ others, borderRules.findSome? (·.outcome? theme token) =
      (familyOutcome? optionalTail .width theme text).or
        ((familyOutcome? widthTail .width theme text).or
          ((familyOutcome? colorTail .color theme text).or
            ((familyOutcome? opacityTail .opacity theme text).or others))) := by
  simp only [borderRules, List.findSome?_append, Option.or_assoc]
  rw [findSome?_ruleFamily_hyphen hstem htoken, findSome?_ruleFamily_hyphen hstem htoken,
    findSome?_ruleFamily_hyphen hstem htoken, findSome?_ruleFamily_hyphen hstem htoken]
  exact ⟨_, rfl⟩

end BorderCss
