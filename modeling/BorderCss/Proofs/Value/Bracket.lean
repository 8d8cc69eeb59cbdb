import BorderCss.Proofs.Text.Nesting
import BorderCss.Proofs.Text.Word
import BorderCss.Proofs.Value.MathSpacing
import BorderCss.Proofs.Value.Underscore
import BorderCss.Value.Bracket

/-!
# Bracket escapes read back

A text is put into a bracket escape by writing it in the underscore notation behind a hint or behind
none. What the escape may not hold is left out by `Enclosable`, and `readBracket?_hinted` and
`readBracket?_unhinted` read such an escape down to the value that its content has under the hint.
That value is the text again (`readBracket?_underscored`): as plain text, as a quoted string that
`readQuoted?` reads, and without a hint if nothing in the text is read as a `url(…)` or as a call of
a math function.
-/

namespace BorderCss

variable {text rest content : List Char} {c : Char}

/-! ## Balance -/

/-- One step of the scan goes on at the depth behind the character, which may not be negative. -/
theorem bracketsBalance_cons {depth : Nat} :
    bracketsBalance depth (c :: rest) = true ↔
      ∃ next : Nat, (next : Int) = depth + (if c = '[' then 1 else if c = ']' then -1 else 0) ∧
        bracketsBalance next rest = true := by
  rw [bracketsBalance]
  split
  · next hopen =>
    constructor
    · exact fun h => ⟨depth + 1, by omega, h⟩
    · rintro ⟨next, hnext, h⟩
      obtain rfl : next = depth + 1 := by omega
      exact h
  · next hopen =>
    split
    · next hclose =>
      rw [Bool.and_eq_true, bne_iff_ne]
      constructor
      · rintro ⟨hdepth, h⟩
        exact ⟨depth - 1, by omega, h⟩
      · rintro ⟨next, hnext, h⟩
        obtain rfl : next = depth - 1 := by omega
        exact ⟨by omega, h⟩
    · constructor
      · exact fun h => ⟨depth, by omega, h⟩
      · rintro ⟨next, hnext, h⟩
        obtain rfl : next = depth := by omega
        exact h

/-- The scan accepts what closes the brackets that are open at its start and those that it opens,
and no others. -/
theorem bracketsBalance_iff {depth : Nat} :
    bracketsBalance depth text = true ↔
      (∀ start, start <+: text → 0 ≤ (depth : Int) + nesting '[' ']' start) ∧
        (depth : Int) + nesting '[' ']' text = 0 := by
  induction text generalizing depth with
  | nil =>
    rw [bracketsBalance, beq_iff_eq]
    simp only [List.prefix_nil, forall_eq, nesting_nil]
    omega
  | cons c rest ih =>
    simp only [bracketsBalance_cons, ih, forall_prefix_cons, nesting_nil,
      nesting_cons (show '[' ≠ ']' by decide), ← Int.add_assoc]
    generalize (depth : Int) + (if c = '[' then 1 else if c = ']' then -1 else 0) = inner
    constructor
    · rintro ⟨next, rfl, hstarts, hlevel⟩
      exact ⟨⟨by omega, hstarts⟩, hlevel⟩
    · rintro ⟨⟨-, hstarts⟩, hlevel⟩
      have hfirst := hstarts [] List.nil_prefix
      rw [nesting_nil, Int.add_zero] at hfirst
      have hinner := Int.toNat_of_nonneg hfirst
      exact ⟨inner.toNat, hinner, by rwa [hinner], by rwa [hinner]⟩

theorem bracketsBalance_zero_iff : bracketsBalance 0 text = true ↔ Balanced '[' ']' text := by
  have hzero : ((0 : Nat) : Int) = 0 := rfl
  simp only [bracketsBalance_iff, hzero, Int.zero_add]
  exact ⟨fun h => ⟨h.1, h.2⟩, fun h => ⟨h.nested, h.level⟩⟩

/-- The notation of underscores has the brackets of the text. -/
theorem bracketsBalance_underscored (depth : Nat) (text : List Char) :
    bracketsBalance depth (underscored text) = bracketsBalance depth text := by
  induction text generalizing depth with
  | nil => rfl
  | cons c rest ih =>
    rw [underscored]
    split
    · next hspace => simp [bracketsBalance, ih, hspace]
    · split
      · next hunderscore => simp [bracketsBalance, ih, hunderscore]
      · simp [bracketsBalance, ih]

/-! ## Hints -/

/-- A hint is read off its word and the colon behind it. -/
theorem splitHint_word (hint : BracketHint) (rest : List Char) :
    splitHint (hint.word.toList ++ ':' :: rest) = (some hint, rest) := by
  cases hint <;> rfl

/-- A content that no hint is cut off has none. -/
theorem splitHint_of_none (h : ∀ hint ∈ BracketHint.all, cutHint? hint content = none) :
    splitHint content = (none, content) := by
  have hnone : (BracketHint.all.findSome? fun hint => (cutHint? hint content).map (hint, ·)) =
      none := by
    refine List.findSome?_eq_none_iff.2 fun hint hhint => ?_
    rw [h hint hhint, Option.map_none]
  rw [splitHint, hnone]

/-! ## Calls -/

/-- What a text opens that is not read as plain text: an address, or a call of a math function. -/
def callOpenings : List String := ["url(", "calc(", "clamp(", "min(", "max("]

theorem spaceMath_of_plain (h : ∀ opening ∈ callOpenings, ¬opening.toList <:+: text) :
    spaceMath text = text := by
  have hopenings : ∀ name ∈ mathFunctions, name ++ "(" ∈ callOpenings := by decide
  refine spaceMath_of_not_callsMath fun hcalls => ?_
  obtain ⟨name, hname, hinside⟩ := callsMath_iff.1 hcalls
  exact h (name ++ "(") (hopenings name hname) hinside

/-! ## Quoted strings -/

/-- The value of a quoted string behind its opening quote, where a backslash makes the character
behind it stand for itself, and what follows the closing quote. -/
def readQuotedTail? : List Char → Option (List Char × List Char)
  | [] => none
  | '\\' :: c :: rest => (readQuotedTail? rest).map fun (value, after) => (c :: value, after)
  | c :: rest =>
    if c = '"' then some ([], rest)
    else if c = '\\' then none
    else (readQuotedTail? rest).map fun (value, after) => (c :: value, after)

/-- The value of the quoted string that a text begins with, and what follows its closing quote, the
first one behind the opening quote that no backslash stands in front of. -/
def readQuoted? : List Char → Option (List Char × List Char)
  | '"' :: rest => readQuotedTail? rest
  | _ => none

theorem readQuotedTail?_append (text rest : List Char) :
    readQuotedTail? (text.flatMap (fun c => if c = '"' ∨ c = '\\' then ['\\', c] else [c]) ++
      '"' :: rest) = some (text, rest) := by
  induction text with
  | nil => rfl
  | cons c text ih =>
    rw [List.flatMap_cons, List.append_assoc]
    split
    · rw [List.cons_append, List.cons_append, List.nil_append, readQuotedTail?, ih]
      rfl
    · next hplain =>
      rw [not_or] at hplain
      rw [List.cons_append, List.nil_append, readQuotedTail?, if_neg hplain.1, if_neg hplain.2, ih]
      · rfl
      · exact fun _ _ heq => absurd heq hplain.2

/-- A quoted text is read back, to its last character. -/
theorem readQuoted?_quotedText (text : List Char) :
    readQuoted? (quotedText text) = some (text, []) :=
  readQuotedTail?_append text []

/-! ## Escapes of a text -/

/-- A text that a bracket escape carries as a value: it is not empty or an empty attribute test,
its brackets balance, it does not begin like the name of a custom property, and no backslash would
take the mark of a space for its own. -/
structure Enclosable (text : String) : Prop where
  nonempty : text ≠ ""
  noTest : text ≠ "=\"\""
  balanced : Balanced '[' ']' text.toList
  noProperty : ¬"--".toList <+: text.toList
  separate : ¬['\\', ' '] <:+: text.toList

instance (text : String) : Decidable (Enclosable text) :=
  decidable_of_iff
    (text ≠ "" ∧ text ≠ "=\"\"" ∧ Balanced '[' ']' text.toList ∧ ¬"--".toList <+: text.toList ∧
      ¬['\\', ' '] <:+: text.toList)
    ⟨fun ⟨hne, htest, hbalanced, hproperty, hseparate⟩ =>
      ⟨hne, htest, hbalanced, hproperty, hseparate⟩,
    fun h => ⟨h.nonempty, h.noTest, h.balanced, h.noProperty, h.separate⟩⟩

/-- The bracket escape of a text, with what stands in front of its content. -/
def enclosed (lead text : String) : String :=
  "[" ++ lead ++ String.ofList (underscored text.toList) ++ "]"

theorem bracketContent?_enclosed (lead text : String) :
    bracketContent? (enclosed lead text).toList =
      some (lead.toList ++ underscored text.toList) := by
  have htoList : (enclosed lead text).toList =
      '[' :: ((lead.toList ++ underscored text.toList) ++ [']']) := by
    simp [enclosed]
  rw [htoList]
  exact cutEnd?_eq_some_iff.2 rfl

namespace Enclosable

variable {text : String} (h : Enclosable text)

include h

theorem spaced_underscored : spaced (underscored text.toList) = text.toList :=
  BorderCss.spaced_underscored h.separate

/-- An escape whose hint is split off the notation of the text is accepted. -/
theorem readBracket?_enclosed {lead : String} {hint : Option BracketHint}
    (hsplit : splitHint (lead.toList ++ underscored text.toList) =
      (hint, underscored text.toList)) :
    readBracket? (enclosed lead text) =
      some ⟨hint, String.ofList (contentValue hint (underscored text.toList))⟩ := by
  have hback := h.spaced_underscored
  have hne : (underscored text.toList).isEmpty = false := by
    rw [List.isEmpty_eq_false_iff]
    intro hnil
    rw [hnil] at hback
    exact h.nonempty (String.toList_eq_nil_iff.1 hback.symm)
  have htest : (underscored text.toList == "=\"\"".toList) = false := by
    rw [beq_eq_false_iff_ne]
    intro heq
    rw [heq] at hback
    exact h.noTest (String.toList_inj.1 hback.symm)
  have hbalance : bracketsBalance 0 (underscored text.toList) = true := by
    rw [bracketsBalance_underscored, bracketsBalance_zero_iff]
    exact h.balanced
  rw [readBracket?, bracketContent?_enclosed]
  dsimp only
  rw [hsplit]
  dsimp only
  rw [hne, htest, hbalance]
  rfl

/-- The content of the escape is not the name of a custom property. -/
theorem not_property : ¬"--".toList.isPrefixOf (underscored text.toList) = true := fun hstart =>
  h.noProperty (prefix_of_prefix_underscored (by decide) (List.isPrefixOf_iff_prefix.1 hstart))

/-- Under a hint, the escape has the value of the text under that hint. -/
theorem readBracket?_hinted (hint : BracketHint) :
    readBracket? (enclosed (hint.word ++ ":") text) =
      some ⟨some hint, String.ofList (contentValue (some hint) (underscored text.toList))⟩ := by
  refine h.readBracket?_enclosed ?_
  rw [String.toList_append, List.append_assoc]
  exact splitHint_word hint _

/-- Without a hint, the escape of a text that has no calls has the text for its value. -/
theorem readBracket?_unhinted
    (hplain : ∀ opening ∈ callOpenings, ¬opening.toList <:+: text.toList)
    (hhint : ∀ hint ∈ BracketHint.all, cutHint? hint (underscored text.toList) = none) :
    readBracket? (enclosed "" text) = some ⟨none, text⟩ := by
  have hurl : ¬"url(".toList <:+: underscored text.toList := fun hmem =>
    hplain "url(" (by decide) (infix_of_infix_underscored (by decide) hmem)
  have hvalue : contentValue none (underscored text.toList) =
      spaceMath (spacedOutsideUrls (underscored text.toList)) := if_neg h.not_property
  have hsplit : splitHint ("".toList ++ underscored text.toList) =
      (none, underscored text.toList) := splitHint_of_none hhint
  rw [h.readBracket?_enclosed hsplit, hvalue, spacedOutsideUrls_eq_spaced hurl,
    h.spaced_underscored, spaceMath_of_plain hplain, String.ofList_toList]

end Enclosable

/-- A text that a bracket escape carries is read back from it: as it is under the hint for plain
text, from a quoted string under the hint for that, and as it is again without a hint, if the text
has no calls and does not spell a hint itself. -/
theorem readBracket?_underscored {text : String} (h : Enclosable text) :
    bracket? ("[string:" ++ String.ofList (underscored text.toList) ++ "]") = some text ∧
    (∃ quoted, bracket? ("[quoted:" ++ String.ofList (underscored text.toList) ++ "]") =
        some quoted ∧
      readQuoted? quoted.toList = some (text.toList, [])) ∧
    ((∀ opening ∈ ["url(", "calc(", "clamp(", "min(", "max("],
        ¬opening.toList <:+: text.toList) →
      (∀ hint ∈ BracketHint.all, cutHint? hint (underscored text.toList) = none) →
      readBracket? ("[" ++ String.ofList (underscored text.toList) ++ "]") =
        some ⟨none, text⟩) := by
  have hstring : contentValue (some .string) (underscored text.toList) = text.toList :=
    (if_neg h.not_property).trans h.spaced_underscored
  have hquoted : contentValue (some .quoted) (underscored text.toList) = quotedText text.toList :=
    (if_neg h.not_property).trans (congrArg quotedText h.spaced_underscored)
  refine ⟨?_, ⟨String.ofList (quotedText text.toList), ?_, ?_⟩, h.readBracket?_unhinted⟩
  · have hread := h.readBracket?_hinted .string
    rw [hstring, String.ofList_toList] at hread
    exact congrArg (Option.map BracketValue.value) hread
  · have hread := h.readBracket?_hinted .quoted
    rw [hquoted] at hread
    exact congrArg (Option.map BracketValue.value) hread
  · rw [String.toList_ofList]
    exact readQuoted?_quotedText text.toList

/-- A space and underscores, one of them behind a backslash, and quotes inside nested brackets. -/
theorem readBracket?_underscored_nested :
    Enclosable "a_b [c\\_\"d\"]" ∧
    bracket? "[string:a\\_b_[c\\\\_\"d\"]]" = some "a_b [c\\_\"d\"]" ∧
    (∃ quoted, bracket? "[quoted:a\\_b_[c\\\\_\"d\"]]" = some quoted ∧
      readQuoted? quoted.toList = some ("a_b [c\\_\"d\"]".toList, [])) ∧
    readBracket? "[a\\_b_[c\\\\_\"d\"]]" = some ⟨none, "a_b [c\\_\"d\"]"⟩ := by
  have htext : Enclosable "a_b [c\\_\"d\"]" := by decide +kernel
  obtain ⟨hstring, hquoted, hplain⟩ := readBracket?_underscored htext
  exact ⟨htext, hstring, hquoted, hplain (by decide +kernel) (by decide +kernel)⟩

end BorderCss
