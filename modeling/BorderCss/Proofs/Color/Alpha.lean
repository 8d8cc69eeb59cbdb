import BorderCss.Color.Reading
import BorderCss.Proofs.Rule.Outcome
import BorderCss.Proofs.Text.Nesting
import BorderCss.Proofs.Value.Word
import BorderCss.Theme.Preset

/-!
# The alpha of a colour part

A colour part whose colour has no slash outside brackets (`Undivided`) is cut at the slash in front
of its alpha (`splitSlash_append`). The alpha is read as an opacity token reads its value, apart
from the two spellings that only opacities have, CSS-wide keywords and math calls
(`readAlpha?_eq`), and the colour is read as it is on its own and then takes the alpha, which a
keyword does not (`readMain?_some`). `readColor?_alpha` puts the two together.
-/

namespace BorderCss

/-- A text whose own slashes do not end it as a colour: they stand at another bracket depth than
zero, to which the text comes back. -/
structure Undivided (main : String) : Prop where
  nonempty : main ≠ ""
  shielded : ∀ start, start ++ ['/'] <+: main.toList → nesting '[' ']' start ≠ 0
  level : nesting '[' ']' main.toList = 0

variable {theme : Theme} {main text : String} {usage : Usage} {c : Char} {rest : List Char}

/-! ## The cut -/

/-- No slash of a text ends it, so the cut is looked for behind it. -/
theorem splitSlash_append (depth : Int) {chars : List Char}
    (h : ∀ start, start ++ ['/'] <+: chars → depth + nesting '[' ']' start ≠ 0)
    (rest : List Char) :
    splitSlash depth (chars ++ rest) =
      (chars ++ (splitSlash (depth + nesting '[' ']' chars) rest).1,
        (splitSlash (depth + nesting '[' ']' chars) rest).2) := by
  induction chars generalizing depth with
  | nil => simp
  | cons c chars ih =>
    have hcut : ¬(c = '/' ∧ depth = 0) := by
      rintro ⟨rfl, rfl⟩
      exact h [] (List.prefix_append ['/'] chars) rfl
    have hinner : (if c = '[' then depth + 1 else if c = ']' then depth - 1 else depth) =
        depth + nesting '[' ']' [c] := by
      rw [nesting_cons (by decide), nesting_nil]
      split
      · rfl
      · split <;> omega
    have hrest := ih (depth + nesting '[' ']' [c]) fun start hstart => by
      rw [Int.add_assoc, ← nesting_append]
      exact h (c :: start) (List.cons_prefix_cons.2 ⟨rfl, hstart⟩)
    rw [Int.add_assoc, ← nesting_append, List.singleton_append] at hrest
    rw [List.cons_append, splitSlash, if_neg hcut, hinner]
    dsimp only
    rw [hrest]
    rfl

namespace Undivided

variable (h : Undivided main)

include h

theorem splitSlash_eq (rest : List Char) :
    splitSlash 0 (main.toList ++ rest) =
      (main.toList ++ (splitSlash 0 rest).1, (splitSlash 0 rest).2) := by
  have happend := splitSlash_append 0 (by simpa using h.shielded) rest
  rwa [h.level] at happend

/-- On its own, the text is a colour without an alpha. -/
theorem splitAlpha?_self : splitAlpha? main = some (main, none) := by
  have hcut := h.splitSlash_eq []
  rw [List.append_nil, splitSlash, List.append_nil] at hcut
  rw [splitAlpha?, hcut]
  split
  · next heq => exact absurd (String.toList_eq_nil_iff.1 (Prod.mk.inj heq).1) h.nonempty
  · next heq => exact absurd (Prod.mk.inj heq).2 nofun
  · next heq =>
    obtain ⟨rfl, rfl⟩ := Prod.mk.inj heq
    rw [String.ofList_toList]
    rfl

/-- With a slash behind it, the text is the colour and what follows the slash is its alpha. -/
theorem splitAlpha?_slash (hne : text ≠ "") :
    splitAlpha? (main ++ "/" ++ text) = some (main, some text) := by
  have hcut := h.splitSlash_eq ('/' :: text.toList)
  rw [splitSlash, if_pos ⟨rfl, rfl⟩, List.append_nil] at hcut
  have htoList : (main ++ "/" ++ text).toList = main.toList ++ '/' :: text.toList := by simp
  rw [splitAlpha?, htoList, hcut]
  split
  · next heq => exact absurd (String.toList_eq_nil_iff.1 (Prod.mk.inj heq).1) h.nonempty
  · next heq =>
    exact absurd (String.toList_eq_nil_iff.1 (Option.some.inj (Prod.mk.inj heq).2)) hne
  · next heq =>
    obtain ⟨rfl, rfl⟩ := Prod.mk.inj heq
    rw [String.ofList_toList, Option.map_some, String.ofList_toList]

end Undivided

instance (main : String) : Decidable (Undivided main) :=
  decidable_of_iff
    (main ≠ "" ∧ (∀ start ∈ main.toList.inits, start ++ ['/'] <+: main.toList →
      nesting '[' ']' start ≠ 0) ∧ nesting '[' ']' main.toList = 0)
    ⟨fun ⟨hne, hshielded, hlevel⟩ =>
      ⟨hne, fun start hstart => hshielded start
        ((List.mem_inits _ _).2 ((List.prefix_append start ['/']).trans hstart)) hstart, hlevel⟩,
    fun h => ⟨h.nonempty, fun start _ => h.shielded start, h.level⟩⟩

/-! ## The colour -/

/-- The colour with an alpha, which a keyword does not take. -/
def Color.withAlpha (color : Color) (alpha : String) : Color :=
  { color with alpha := if color.isSpecial then none else some alpha }

/-- A colour is found whatever its alpha is. -/
theorem readMain?_some (theme : Theme) (main alpha : String) :
    readMain? theme main (some alpha) = (readMain? theme main none).map (·.withAlpha alpha) := by
  unfold readMain?
  cases SpecialColor.read? main with
  | some keyword => rfl
  | none =>
    dsimp only
    split
    · rfl
    · cases literalColor? main (colorBracket? main) with
      | some css => rfl
      | none =>
        dsimp only
        rw [Option.map_map]
        rfl

/-! ## The alpha -/

/-- The value that an opacity token gives to the text. -/
def opacityValue? (theme : Theme) (text : String) (usage : Usage) : Option String :=
  ((resolveFragment theme .percent none text).runFrom usage).1

/-- The value of an opacity, unless only opacities are spelled in that way. -/
def alphaValue? (theme : Theme) (text : String) (usage : Usage) : Option String :=
  if isWideKeyword text || isMathCall text then none else opacityValue? theme text usage

/-- An opacity is a bracket escape, a spelling of its own or a percentage. -/
theorem opacityValue?_eq (theme : Theme) (text : String) (usage : Usage) :
    opacityValue? theme text usage =
      ((bracket? text).map percentageToFraction).or
        ((spelledValue? text).or (fraction? text)) := by
  rw [opacityValue?, resolveFragment_settles .percent none text usage, settle_fst, Option.map_map]
  unfold resolveFragment? bracket?
  cases readBracket? text with
  | some bracket => rfl
  | none =>
    cases spelledValue? text with
    | some css => rfl
    | none =>
      dsimp only [bracketFragment?, convert?]
      cases fraction? text <;> rfl

/-- A percentage does not begin with a letter. -/
theorem fraction?_of_isLower (htext : text.toList = c :: rest) (hc : c.isLower = true) :
    fraction? text = none := by
  have hnumeral : readNumeral? ((cutEnd? ['%'] text.toList).getD text.toList) = none := by
    have hstart : ∀ rest, readNumeral? (c :: rest) = none := fun rest => by
      rw [readNumeral?, Numeral.scan_of_isLower hc]
    cases hcut : cutEnd? ['%'] text.toList with
    | none => rw [Option.getD_none, htext, hstart]
    | some before =>
      rw [Option.getD_some]
      cases before with
      | nil => rfl
      | cons d before =>
        have hequal := htext.symm.trans (cutEnd?_eq_some_iff.1 hcut)
        rw [← (List.cons.inj hequal).1, hstart]
  rw [fraction?, hnumeral]
  rfl

theorem wideKeywords_lower : ∀ keyword ∈ wideKeywords, keyword.toList.head?.any Char.isLower := by
  decide

theorem mathFunctions_lower : ∀ name ∈ mathFunctions, name.toList.head?.any Char.isLower := by
  decide

/-- CSS-wide keywords and math calls begin with a letter. -/
theorem head_of_spelled (h : (isWideKeyword text || isMathCall text) = true) :
    ∃ c rest, text.toList = c :: rest ∧ c.isLower = true := by
  have hhead : text.toList.head?.any Char.isLower = true := by
    rw [Bool.or_eq_true] at h
    rcases h with hwide | hcall
    · exact wideKeywords_lower text (List.contains_iff_mem.1 hwide)
    · obtain ⟨name, hname, hcut⟩ := List.any_eq_true.1 hcall
      split at hcut
      · next tail htail =>
        have hlower := mathFunctions_lower name hname
        rw [cutStart?_eq_some_iff.1 htail, List.head?_append]
        cases hfirst : name.toList.head? with
        | none =>
          rw [hfirst] at hlower
          cases hlower
        | some first =>
          rw [hfirst] at hlower
          exact hlower
      · cases hcut
  cases htext : text.toList with
  | nil =>
    rw [htext] at hhead
    cases hhead
  | cons c rest =>
    rw [htext] at hhead
    exact ⟨c, rest, rfl, hhead⟩

/-- An alpha is read as an opacity, where it is not spelled as only opacities are. -/
theorem readAlpha?_eq (theme : Theme) (text : String) (usage : Usage) :
    readAlpha? text = alphaValue? theme text usage := by
  rw [readAlpha?, alphaValue?]
  split
  · next hspelled =>
    obtain ⟨c, rest, htext, hc⟩ := head_of_spelled hspelled
    rw [bracket?, readBracket?_of_isLower htext hc, customProperty?_of_isLower htext hc,
      fraction?_of_isLower htext hc]
    rfl
  · next hspelled =>
    rw [Bool.or_eq_true, not_or] at hspelled
    rw [opacityValue?_eq, spelledValue?, wideKeyword?, if_neg hspelled.1, if_neg hspelled.2]
    simp only [Option.or_none]

/-! ## The whole -/

theorem Undivided.readColor?_slash (h : Undivided main) (hne : text ≠ "") (theme : Theme) :
    readColor? theme (main ++ "/" ++ text) =
      (readAlpha? text).bind fun alpha => (readColor? theme main).map (·.withAlpha alpha) := by
  have hmain : readColor? theme main = readMain? theme main none := by
    rw [readColor?, h.splitAlpha?_self]
  rw [readColor?, h.splitAlpha?_slash hne, hmain]
  dsimp only
  cases readAlpha? text with
  | none => rfl
  | some alpha => exact readMain?_some theme main alpha

/-- A colour with an alpha behind a slash is that colour with the value that the text of the alpha
has as an opacity, and it is a colour just if both are read; a keyword stays without an alpha. -/
theorem readColor?_alpha (theme : Theme) (h : Undivided main) (hne : text ≠ "") (usage : Usage) :
    readColor? theme (main ++ "/" ++ text) =
      (readColor? theme main).bind fun color =>
        (alphaValue? theme text usage).map fun alpha => color.withAlpha alpha := by
  rw [h.readColor?_slash hne, readAlpha?_eq theme text usage]
  cases alphaValue? theme text usage <;> cases readColor? theme main <;> rfl

/-- A slash inside a bracket escape is not the one in front of the alpha. -/
theorem readColor?_alpha_bracket :
    Undivided "[rgb(0_0_0_/_1)]" ∧
      readColor? .preset ("[rgb(0_0_0_/_1)]" ++ "/" ++ "[50%]") =
        some ⟨"[rgb(0_0_0_/_1)]", none, .literal "rgb(0 0 0 / 1)", some "0.5"⟩ := by
  have hmain : Undivided "[rgb(0_0_0_/_1)]" := by decide +kernel
  refine ⟨hmain, ?_⟩
  rw [readColor?_alpha .preset hmain (by decide) .empty]
  decide +kernel

end BorderCss
