import BorderCss.Css.Selector
import BorderCss.Proofs.Value.BinaryOperator
import BorderCss.Proofs.Value.Underscore
import BorderCss.Value.Bracket

/-!
# Spacing inside and outside of math functions

`InMath` says that a text ends inside a math function. Whether the operators of a bracket escape are
spaced is decided for its whole content, so a call of a math function anywhere lets the binary
operators outside of math functions be spaced as well; without such operators, nothing is changed
outside of math functions (`readBracket?_outside_math_iff`). The addresses `url(…)` of the content,
which are read as they are, are among what may be changed.
-/

namespace BorderCss

variable {c d : Char} {before span after content out : List Char} {text value : String}

/-! ## Math functions -/

/-- The name of a function may begin behind the text: it does not go on with another name. -/
def BeginsName (start : List Char) : Prop :=
  ∀ c ∈ start.getLast?, isNameChar c = false ∧ c.toNat < 0x80

/-- A call of a math function that begins in the text is still open at its end. -/
def InMath (before : List Char) : Prop :=
  ∃ name ∈ mathFunctions, ∃ start, BeginsName start ∧
    OpenSince (start ++ (name ++ "(").toList) before

-- by the last character, since a search may settle on the type of all characters instead
instance (start : List Char) : Decidable (BeginsName start) :=
  decidable_of_iff (start.getLast?.all fun c => !isNameChar c && decide (c.toNat < 0x80)) <| by
    simp [BeginsName, Option.all_eq_true]

instance (before : List Char) : Decidable (InMath before) :=
  decidable_of_iff (∃ name ∈ mathFunctions, ∃ start ∈ before.inits, BeginsName start ∧
      OpenSince (start ++ (name ++ "(").toList) before)
    ⟨fun ⟨name, hname, start, _, hopen⟩ => ⟨name, hname, start, hopen⟩,
      fun ⟨name, hname, start, hstart, hopen⟩ =>
        ⟨name, hname, start, (List.mem_inits _ _).2 hopen.start_prefix, hstart, hopen⟩⟩

/-- Only a closing parenthesis leaves a call. -/
theorem InMath.concat (h : InMath before) (hc : c ≠ ')') : InMath (before ++ [c]) := by
  obtain ⟨name, hname, start, hstart, hopen⟩ := h
  exact ⟨name, hname, start, hstart, hopen.append (nested_of_notMem (by simpa using hc.symm))⟩

/-- Only an opening parenthesis enters one. -/
theorem InMath.of_concat (h : InMath (before ++ [c])) (hc : c ≠ '(') : InMath before := by
  obtain ⟨name, hname, start, hstart, hopen⟩ := h
  exact ⟨name, hname, start, hstart,
    hopen.of_append (getLast?_opening start name) (by simpa using hc.symm)⟩

/-- A binary operator behind a character is in the calls that the character is in. -/
theorem InMath.of_isBinary (h : InMath (before ++ [c])) (hbinary : IsBinary (before ++ [c]) d) :
    InMath before := by
  refine h.of_concat ?_
  rintro rfl
  obtain hclosed | hnumeric := hbinary.follows
  · rw [List.getLast?_concat] at hclosed
    cases hclosed
  · cases (endsNumeric_concat.1 hnumeric).1

/-- What follows a binary operator is in the calls that the operator is in. -/
theorem InMath.concat_isBinary (h : InMath before) (hbinary : IsBinary before c) :
    InMath (before ++ [c]) := by
  refine h.concat ?_
  rintro rfl
  cases hbinary.operator

/-! ## What is left untouched -/

/-- The span between two texts is in the output as it is, and so it is together with the characters
next to it: nothing is inserted on either side of it. -/
def Untouched (before span after out : List Char) : Prop :=
  ∀ start lead next rest, before = start ++ lead → after = next ++ rest →
    lead.length ≤ 1 → next.length ≤ 1 → Keeps start (lead ++ span ++ next) rest out

/-- Every binary operator of the text stands in a math function. -/
def BinaryInMath (text : List Char) : Prop :=
  ∀ before c after, text = before ++ c :: after → IsBinary before c → InMath before

instance (text : List Char) : Decidable (BinaryInMath text) :=
  decidable_of_iff (∀ before ∈ text.inits, (text.drop before.length).head?.all fun c =>
      decide (IsBinary before c → InMath before)) <| by
    simp only [Option.all_eq_true, decide_eq_true_eq]
    constructor
    · rintro h before c after rfl
      exact h before ((List.mem_inits _ _).2 (List.prefix_append before _)) c (by simp)
    · rintro h before hbefore c hc
      obtain ⟨rest, rfl⟩ := (List.mem_inits _ _).1 hbefore
      rw [List.drop_left] at hc
      obtain ⟨after, rfl⟩ := List.head?_eq_some_iff.1 hc
      exact h before c after rfl

/-- If no binary operator stands outside of math functions, there is none next to a character
outside of them either. -/
theorem BinaryInMath.around {start lead next rest left right text : List Char}
    (h : BinaryInMath text) (htext : text = start ++ (lead ++ [c] ++ next) ++ rest)
    (hlead : lead.length ≤ 1) (hnext : next.length ≤ 1) (hout : ¬InMath (start ++ lead))
    (hspan : lead ++ [c] ++ next = left ++ d :: right) : ¬IsBinary (start ++ left) d := by
  intro hbinary
  have hcall : InMath (start ++ left) := by
    refine h (start ++ left) d (right ++ rest) ?_ hbinary
    rw [htext, hspan]
    simp only [List.append_assoc, List.cons_append]
  rw [List.append_assoc] at hspan
  obtain ⟨between, rfl, hbetween⟩ | ⟨between, rfl, hbetween⟩ := List.append_eq_append_iff.1 hspan
  · cases between with
    | nil => exact hout (by rwa [List.append_nil] at hcall)
    | cons e between =>
      -- the operator is the character behind
      obtain ⟨rfl, rfl⟩ : c = e ∧ next = between ++ d :: right := List.cons.inj hbetween
      rw [List.length_append, List.length_cons] at hnext
      obtain rfl : between = [] := List.length_eq_zero_iff.1 (by omega)
      rw [← List.append_assoc] at hcall hbinary
      exact hout (hcall.of_isBinary hbinary)
  · cases between with
    | nil => exact hout (by rwa [List.append_nil])
    | cons e between =>
      -- the operator is the character in front
      obtain ⟨rfl, -⟩ := List.cons.inj hbetween
      rw [List.length_append, List.length_cons] at hlead
      obtain rfl : left = [] := List.length_eq_zero_iff.1 (by omega)
      obtain rfl : between = [] := List.length_eq_zero_iff.1 (by omega)
      rw [List.append_nil] at hcall hbinary
      exact hout (hcall.concat_isBinary hbinary)

/-- The characters outside of math functions are untouched just if the text calls none, or has no
binary operators outside of them. -/
theorem untouched_spaceMath_iff (text : List Char) :
    (∀ before c after, text = before ++ c :: after → ¬InMath before →
        Untouched before [c] after (spaceMath text)) ↔
      (callsMath text = true → BinaryInMath text) := by
  constructor
  · rintro huntouched hcalls before c after rfl hbinary
    by_contra hout
    have hkeeps := huntouched before c after rfl hout before [] [] after (List.append_nil _).symm
      rfl (Nat.zero_le 1) (Nat.zero_le 1)
    have hspan : before ++ c :: after = before ++ ([] ++ [c] ++ []) ++ after := by simp
    rw [hspan] at hkeeps hcalls
    exact keeps_spaceMath_iff.1 hkeeps hcalls [] c [] rfl (by rwa [List.append_nil])
  · rintro hinside before c after rfl hout start lead next rest rfl rfl hlead hnext
    have hspan : start ++ lead ++ c :: (next ++ rest) = start ++ (lead ++ [c] ++ next) ++ rest := by
      simp
    rw [hspan] at hinside ⊢
    exact keeps_spaceMath_iff.2 fun hcalls left d right hsplit =>
      (hinside hcalls).around rfl hlead hnext hout hsplit

/-! ## Bracket escapes -/

/-- What follows the hint of a bracket escape, if it has one that is announced or none at all. -/
theorem toList_value_of_readBracket? {hint : Option BracketHint}
    (hread : readBracket? text = some ⟨hint, value⟩)
    (hsplit : (bracketContent? text.toList).map splitHint = some (hint, content)) :
    value.toList = contentValue hint content := by
  obtain ⟨inside, hinside, hsplit⟩ := Option.map_eq_some_iff.1 hsplit
  rw [readBracket?, hinside] at hread
  dsimp only at hread
  rw [hsplit] at hread
  dsimp only at hread
  split at hread
  · cases hread
  · obtain ⟨-, rfl⟩ := BracketValue.mk.inj (Option.some.inj hread)
    exact String.toList_ofList

/-- Without a hint, the content of a bracket escape that is not the name of a custom property is
decoded, and its binary operators are spaced. -/
theorem toList_value_unhinted (hread : readBracket? text = some ⟨none, value⟩)
    (hsplit : (bracketContent? text.toList).map splitHint = some (none, content))
    (hname : ¬"--".toList <+: content) :
    value.toList = spaceMath (spacedOutsideUrls content) := by
  rw [toList_value_of_readBracket? hread hsplit]
  exact if_neg fun hstart => hname (List.isPrefixOf_iff_prefix.1 hstart)

/-- In the value of a bracket escape without a hint, the characters of the content that stand
outside of math functions are untouched just if no math function is called or no binary operator
stands outside of one; and an address, which is decoded to itself wherever it stands, is there as it
was just if no math function is called or no binary operator stands in it. -/
theorem readBracket?_outside_math_iff (hread : readBracket? text = some ⟨none, value⟩)
    (hsplit : (bracketContent? text.toList).map splitHint = some (none, content))
    (hname : ¬"--".toList <+: content) :
    ((∀ before c after, spacedOutsideUrls content = before ++ c :: after → ¬InMath before →
        Untouched before [c] after value.toList) ↔
      (callsMath (spacedOutsideUrls content) = true →
        BinaryInMath (spacedOutsideUrls content))) ∧
    ∀ before url after, content = before ++ url ++ after → UrlsClosed before → Url url after →
      spacedOutsideUrls content =
          spacedOutsideUrls before ++ url ++ spacedOutsideUrls after ∧
        (Keeps (spacedOutsideUrls before) url (spacedOutsideUrls after) value.toList ↔
          (callsMath (spacedOutsideUrls content) = true →
            ∀ start c rest, url = start ++ c :: rest →
              ¬IsBinary (spacedOutsideUrls before ++ start) c)) := by
  rw [toList_value_unhinted hread hsplit hname]
  refine ⟨untouched_spaceMath_iff _, ?_⟩
  rintro before url after rfl hclosed hurl
  rw [spacedOutsideUrls_url hclosed hurl]
  exact ⟨rfl, keeps_spaceMath_iff⟩

/-- The slash of the address is no binary operator, and the minus sign stands in a math function. -/
theorem readBracket?_outside_math_address :
    readBracket? "[url(/a_b.png)_calc(100%-2px)]" =
        some ⟨none, "url(/a_b.png) calc(100% - 2px)"⟩ ∧
      ∀ before c after, "url(/a_b.png) calc(100%-2px)".toList = before ++ c :: after →
        ¬InMath before → Untouched before [c] after "url(/a_b.png) calc(100% - 2px)".toList := by
  have hread : readBracket? "[url(/a_b.png)_calc(100%-2px)]" =
      some ⟨none, "url(/a_b.png) calc(100% - 2px)"⟩ := by decide +kernel
  have hsplit : (bracketContent? "[url(/a_b.png)_calc(100%-2px)]".toList).map splitHint =
      some (none, "url(/a_b.png)_calc(100%-2px)".toList) := by decide +kernel
  have hinside : BinaryInMath "url(/a_b.png) calc(100%-2px)".toList := by decide +kernel
  have hdecoded : spacedOutsideUrls "url(/a_b.png)_calc(100%-2px)".toList =
      "url(/a_b.png) calc(100%-2px)".toList := by decide +kernel
  have hiff := readBracket?_outside_math_iff hread hsplit (by decide +kernel)
  rw [hdecoded] at hiff
  exact ⟨hread, hiff.1.2 fun _ => hinside⟩

/-- A call of a math function anywhere lets the operators of an address be spaced. -/
theorem readBracket?_outside_math_spaced :
    readBracket? "[url(/1-2.png)_calc(1px)]" = some ⟨none, "url(/1 - 2.png) calc(1px)"⟩ ∧
      "url(/1-2.png)_calc(1px)".toList = "url(/1".toList ++ '-' :: "2.png)_calc(1px)".toList ∧
      ¬InMath "url(/1".toList ∧ Url "url(/1-2.png)".toList "_calc(1px)".toList ∧
      ¬"url(/1-2.png)".toList <:+: "url(/1 - 2.png) calc(1px)".toList := by
  refine ⟨by decide +kernel, rfl, by decide +kernel, ?_, by decide +kernel⟩
  exact .closed (show ')' ∉ "/1-2.png".toList by decide)

end BorderCss
