import BorderCss.Proofs.Rule.Dispatch
import BorderCss.Theme.Preset
import Mathlib.Data.List.Perm.Basic

/-!
# Reordering the rules of a group

A rule whose pattern does not fit a token may be left out of the list (`resolveToken_filter_fits`).
The sided rules of a family of border rules fit by the second word of a token, and no word belongs
to two classes of sides, so at most one of them fits (`SidedGroup.countP_fits_le`). Hence a
permutation of such a group leaves the rules that fit in the order of the table
(`SidedGroup.filter_fits_eq`). The main statement is `resolveToken_reordered`.
-/

namespace BorderCss

variable {theme : Theme} {token : String} {side : SideClass} {tail : TailClass}

/-! ## Rules that do not fit -/

theorem Rule.attempt_of_not_fits {rule : Rule} (h : ¬rule.pattern.fits token) (usage : Usage) :
    rule.attempt theme token usage = (none, usage) := by
  have hnone : rule.pattern.captures? token = none := by simpa [Pattern.fits] using h
  rw [rule.attempt_eq, Rule.outcome?, hnone]
  rfl

/-- Only the rules that fit a token count for it. -/
theorem resolveToken_filter_fits (rules : List Rule) (theme : Theme) (token : String)
    (usage : Usage) :
    resolveToken (rules.filter (·.pattern.fits token)) theme token usage =
      resolveToken rules theme token usage := by
  induction rules generalizing usage with
  | nil => rfl
  | cons rule rest ih =>
    by_cases h : rule.pattern.fits token
    · rw [List.filter_cons, if_pos h, resolveToken, resolveToken]
      -- a rule that declines hands the usage on, so the induction is for every usage
      rcases rule.attempt theme token usage with ⟨_ | styling, after⟩
      · exact ih after
      · rfl
    · rw [List.filter_cons, if_neg h, ih, resolveToken, Rule.attempt_of_not_fits h]

/-! ## The side of a token -/

/-- The second word of a token, which may name a side. -/
def sideWord (token : String) : String :=
  String.ofList (firstWord ((afterWord token.toList).drop 1))

/-- A sided border pattern fits only tokens whose second word is one of its sides. -/
theorem sideWord_mem_of_fits (hside : side.Plain)
    (h : (⟨borderStem, side, tail⟩ : Pattern).fits token) : sideWord token ∈ side.words := by
  rw [Pattern.fits, Pattern.captures?, Option.isSome_map, Pattern.split?_border] at h
  split at h
  · unfold sideWord
    cases hafter : afterWord token.toList with
    | nil =>
      rw [hafter, hside.split?_nil] at h
      cases h
    | cons c text =>
      rw [hafter, eq_hyphen_of_afterWord hafter, hside.split?_hyphen] at h
      split at h
      · next hmem => exact hmem
      · cases h
  · cases h

/-- No word names sides of two classes. -/
theorem borderSides_disjoint :
    borderSides.Pairwise fun a b => ∀ word ∈ a.words, word ∉ b.words := by
  decide

/-! ## Groups of rules -/

/-- The five groups of sided rules for border tokens. -/
inductive SidedGroup where
  | compoundWidth
  | infixedWidth
  | color
  | opacity
  | lineStyle
deriving DecidableEq, Repr

namespace SidedGroup

/-- What follows the side in tokens of the group. -/
def tailClass : SidedGroup → TailClass
  | compoundWidth => optionalTail
  | infixedWidth => widthTail
  | color => colorTail
  | opacity => opacityTail
  | lineStyle => styleTail

/-- What tokens of the group set. -/
def utility : SidedGroup → Utility
  | compoundWidth => .width
  | infixedWidth => .width
  | color => .color
  | opacity => .opacity
  | lineStyle => .lineStyle

/-- The four rules of the group, in the order of the table. -/
def rules (group : SidedGroup) : List Rule :=
  borderSides.map fun side =>
    { pattern := ⟨borderStem, side, group.tailClass⟩, utility := group.utility }

/-- At most one rule of a group fits a token. -/
theorem countP_fits_le (group : SidedGroup) (token : String) :
    group.rules.countP (·.pattern.fits token) ≤ 1 := by
  have hexclusive : (group.rules.filter (·.pattern.fits token)).Pairwise fun _ _ => False := by
    rw [List.pairwise_filter, rules, List.pairwise_map]
    refine borderSides_disjoint.imp_of_mem fun {a b} ha hb hdisjoint hfits hfits' => ?_
    exact hdisjoint _ (sideWord_mem_of_fits (borderSides_plain a ha) hfits)
      (sideWord_mem_of_fits (borderSides_plain b hb) hfits')
  rw [List.countP_eq_length_filter]
  cases hfits : group.rules.filter (·.pattern.fits token) with
  | nil => exact Nat.zero_le 1
  | cons rule rest =>
    rw [hfits, List.pairwise_cons] at hexclusive
    rw [List.eq_nil_iff_forall_not_mem.2 hexclusive.1]
    exact Nat.le_refl 1

/-- The rules that fit are the same in every order of the group. -/
theorem filter_fits_eq {group : SidedGroup} {others : List Rule} (h : others.Perm group.rules)
    (token : String) :
    others.filter (·.pattern.fits token) = group.rules.filter (·.pattern.fits token) := by
  have hperm := h.filter (·.pattern.fits token)
  have hone := group.countP_fits_le token
  rw [List.countP_eq_length_filter] at hone
  cases hfits : group.rules.filter (·.pattern.fits token) with
  | nil =>
    rw [hfits] at hperm
    exact hperm.eq_nil
  | cons rule rest =>
    rw [hfits, List.length_cons] at hone
    obtain rfl : rest = [] := List.eq_nil_of_length_eq_zero (by omega)
    rw [hfits] at hperm
    exact List.perm_singleton.1 hperm

end SidedGroup

/-- The table with the rules of each group in an order of their own. A group stands behind the rule
without a side of its family; the rules for radii keep their places in front of the last family. -/
def reordered (order : SidedGroup → List Rule) : List Rule :=
  borderRules.take 1 ++ order .compoundWidth ++
    ((borderRules.drop 5).take 1 ++ order .infixedWidth) ++
    ((borderRules.drop 10).take 1 ++ order .color) ++
    ((borderRules.drop 15).take 1 ++ order .opacity) ++
    ((borderRules.drop 20).take 6 ++ order .lineStyle)

/-- The order of the table itself. -/
theorem reordered_rules : reordered SidedGroup.rules = borderRules := rfl

/-- For every token at most one rule of each group matches, and so the groups may be reordered, each
within itself: the token has the same styling and leaves the same usage. -/
theorem resolveToken_reordered {order : SidedGroup → List Rule}
    (horder : ∀ group, (order group).Perm group.rules) (theme : Theme) (token : String)
    (usage : Usage) :
    (∀ group : SidedGroup, (order group).countP (·.pattern.fits token) ≤ 1) ∧
      resolveToken (reordered order) theme token usage =
        resolveToken borderRules theme token usage := by
  constructor
  · intro group
    rw [(horder group).countP_eq]
    exact group.countP_fits_le token
  · have hfits : (reordered order).filter (·.pattern.fits token) =
        borderRules.filter (·.pattern.fits token) := by
      rw [← reordered_rules]
      simp only [reordered, List.filter_append, SidedGroup.filter_fits_eq (horder _)]
    rw [← resolveToken_filter_fits, hfits, resolveToken_filter_fits]

/-- A colour on two edges of the built-in theme, with each group in the opposite order. -/
theorem resolveToken_reordered_reverse :
    let order : SidedGroup → List Rule := fun group => group.rules.reverse
    reordered order ≠ borderRules ∧ (∀ group, (order group).Perm group.rules) ∧
      (∀ group, (order group).countP (·.pattern.fits "b-x-red-500") ≤ 1) ∧
      resolveToken (reordered order) .preset "b-x-red-500" .empty =
        resolveToken borderRules .preset "b-x-red-500" .empty := by
  intro order
  have horder : ∀ group, (order group).Perm group.rules := fun group => group.rules.reverse_perm
  have hdifferent : reordered order ≠ borderRules := by decide
  exact ⟨hdifferent, horder, resolveToken_reordered horder .preset "b-x-red-500" .empty⟩

end BorderCss
