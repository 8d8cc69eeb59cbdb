import BorderCss.Proofs.Css.Identifier
import BorderCss.Proofs.Rule.Stem

/-!
# The selectors of tokens

A token is read back from its class name, so distinct tokens have distinct selectors. A token that
the table resolves begins with a letter, hence its class name is an identifier, and in the rule of
its class that identifier ends at the brace (`readName_escapeClass`).
-/

namespace BorderCss

variable {token : String}

theorem toList_escapeClass (token : String) :
    (escapeClass token).toList = escapeName token.toList :=
  String.toList_ofList

/-- Nothing but the token is read from its class name. -/
theorem readName_escapeClass_iff :
    readName (escapeClass token).toList = (token.toList, []) ↔ Escapable token.toList := by
  have hnil : readName [] = ([], []) := readName_of_none rfl
  have hread : readName (escapeName token.toList ++ []) = (token.toList ++ [], []) ↔
      Escapable token.toList ∧ readName [] = ([], []) := readName_escapeName_iff
  rw [List.append_nil, List.append_nil, and_iff_left hnil] at hread
  rw [toList_escapeClass]
  exact hread

/-- A class name is that of one token. -/
theorem escapeClass_inj {other : String} (htoken : Escapable token.toList)
    (hother : Escapable other.toList) (h : escapeClass other = escapeClass token) :
    other = token := by
  have hread := readName_escapeClass_iff.2 hother
  rw [h, readName_escapeClass_iff.2 htoken] at hread
  exact String.toList_inj.1 (Prod.mk.inj hread).1.symm

/-- The rule of a class is the preludes, a point and then the class name and the block. -/
theorem Styling.toClassCss_eq (styling : Styling) (token : String) :
    styling.toClassCss token = String.join (styling.preludes.map (· ++ "\n")) ++ "." ++
      (escapeClass token ++ ("\x7b" ++ styling.block.text ++ "\x7d")) := by
  simp only [Styling.toClassCss, Styling.toCss, String.append_assoc]

/-- Reading undoes the spelling of a token as a class name just if escapes can spell all of its
characters. Such tokens have distinct selectors, and if the table resolves one of them, then its
class name is an identifier, which ends at the brace in the rule of its class. -/
theorem readName_escapeClass (theme : Theme) (token : String) :
    (readName (escapeClass token).toList = (token.toList, []) ↔ Escapable token.toList) ∧
    (Escapable token.toList →
      (∀ other : String, Escapable other.toList →
        "." ++ escapeClass other = "." ++ escapeClass token → other = token) ∧
      ∀ usage styling, (resolveToken borderRules theme token usage).1 = some styling →
        readIdentifier? (escapeClass token).toList = some (token.toList, []) ∧
        ∃ after : String,
          styling.toClassCss token =
            String.join (styling.preludes.map (· ++ "\n")) ++ "." ++ after ∧
          readIdentifier? after.toList =
            some (token.toList, ("\x7b" ++ styling.block.text ++ "\x7d").toList)) := by
  refine ⟨readName_escapeClass_iff, fun htoken => ⟨?_, ?_⟩⟩
  · intro other hother heq
    exact escapeClass_inj htoken hother ((String.append_right_inj ".").1 heq)
  · intro usage styling hresolve
    obtain ⟨c, rest, hhead, hletter⟩ := head_of_resolveToken hresolve
    have hread : ∀ behind, readNameChar? behind = none →
        readIdentifier? ((escapeClass token).toList ++ behind) = some (token.toList, behind) := by
      intro behind hbehind
      rw [hhead] at htoken
      rw [toList_escapeClass, hhead]
      exact readIdentifier?_escapeName hletter htoken hbehind
    refine ⟨?_, _, styling.toClassCss_eq token, ?_⟩
    · rw [← hread [] rfl, List.append_nil]
    · rw [String.toList_append]
      refine hread _ ?_
      rw [String.append_assoc, String.toList_append]
      rfl

/-- A colour of the built-in theme with an opacity. -/
theorem readName_escapeClass_alpha :
    readName (escapeClass "b-red-500/50").toList = ("b-red-500/50".toList, []) ∧
      readIdentifier? (escapeClass "b-red-500/50").toList = some ("b-red-500/50".toList, []) := by
  have hescapable : Escapable "b-red-500/50".toList := by decide
  have hresolve : (resolveToken borderRules .preset "b-red-500/50" .empty).1.isSome = true := by
    decide +kernel
  obtain ⟨styling, hstyling⟩ := Option.isSome_iff_exists.1 hresolve
  obtain ⟨hread, hother⟩ := readName_escapeClass .preset "b-red-500/50"
  obtain ⟨-, htable⟩ := hother hescapable
  exact ⟨hread.2 hescapable, (htable .empty styling hstyling).1⟩

end BorderCss
