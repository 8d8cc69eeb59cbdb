import BorderCss.Proofs.Rule.Outcome

/-!
# Falling through the rules

Trying the rules of a list over a usage comes to the same as running the first rule that accepts the
token when it is run alone (`firstAccepting?`): the rules before it leave no trace, and what was
recorded before does not matter to it. The main statement is `resolveToken_eq_firstAccepting`.
-/

namespace BorderCss

/-- The first rule of a list that accepts a token when it is run alone, with nothing recorded. -/
def firstAccepting? (rules : List Rule) (theme : Theme) (token : String) : Option Rule :=
  rules.find? fun rule => (rule.attempt theme token .empty).1.isSome

variable {theme : Theme} {token : String}

/-- A rule accepts a token exactly when it has an outcome for it. -/
theorem Rule.isSome_attempt (rule : Rule) (usage : Usage) :
    (rule.attempt theme token usage).1.isSome = (rule.outcome? theme token).isSome := by
  rw [rule.attempt_eq, settle_fst, Option.isSome_map]

/-- A rule that declines leaves the usage alone. -/
theorem Rule.attempt_frame (rule : Rule) (usage : Usage) :
    rule.attempt theme token usage = (none, usage) ∨
      (rule.attempt theme token usage).1.isSome := by
  rw [rule.attempt_eq]
  cases rule.outcome? theme token with
  | none => exact .inl rfl
  | some outcome => exact .inr rfl

/-- What a rule does over a usage is what it does alone, joined with that usage. -/
theorem Rule.attempt_eq_absorb (rule : Rule) (usage : Usage) :
    rule.attempt theme token usage =
      ((rule.attempt theme token .empty).1, usage.absorb (rule.attempt theme token .empty).2) := by
  simp only [rule.attempt_eq]
  exact Prod.ext (by rw [settle_fst, settle_fst]) (settle_snd usage _)

/-- The rules before the first accepting one pass the usage on as they got it. -/
theorem resolveToken_eq_attempt {rules : List Rule} (usage : Usage) :
    resolveToken rules theme token usage =
      (firstAccepting? rules theme token).elim (none, usage) (·.attempt theme token usage) := by
  induction rules with
  | nil => rfl
  | cons rule rest ih =>
    unfold resolveToken firstAccepting?
    rw [List.find?_cons, rule.isSome_attempt, ← rule.isSome_attempt usage]
    rcases h : rule.attempt theme token usage with ⟨_ | styling, after⟩
    · have hframe : rule.attempt theme token usage = (none, usage) ∨
          (rule.attempt theme token usage).1.isSome := rule.attempt_frame usage
      rw [h] at hframe
      obtain hframe | hframe := hframe
      · cases hframe
        exact ih
      · cases hframe
    · exact h.symm

/-- A token is settled by the first rule that accepts it alone. Over any usage the list of rules
yields what that rule yields alone and adds to the usage what it records alone, at most one key. A
rule that declines leaves every usage as it was, and so does the list when it has no accepting
rule. -/
theorem resolveToken_eq_firstAccepting (rules : List Rule) (theme : Theme) (token : String)
    (usage : Usage) :
    (∀ rule ∈ rules, ∀ before : Usage,
      rule.attempt theme token before = (none, before) ∨
        (rule.attempt theme token before).1.isSome) ∧
    (match firstAccepting? rules theme token with
      | some rule =>
        resolveToken rules theme token usage =
          ((rule.attempt theme token .empty).1,
            usage.absorb (rule.attempt theme token .empty).2) ∧
        (rule.attempt theme token .empty).2.keys.length ≤ 1
      | none => resolveToken rules theme token usage = (none, usage)) ∧
    (resolveToken rules theme token usage = (none, usage) ∨
      (resolveToken rules theme token usage).1.isSome) := by
  refine ⟨fun rule _ before => rule.attempt_frame before, ?_, ?_⟩
  · rw [resolveToken_eq_attempt]
    cases firstAccepting? rules theme token with
    | none => rfl
    | some rule =>
      refine ⟨rule.attempt_eq_absorb usage, ?_⟩
      rw [rule.attempt_eq]
      exact length_settle_empty _
  · rw [resolveToken_eq_attempt]
    cases firstAccepting? rules theme token with
    | none => exact .inl rfl
    | some rule => exact rule.attempt_frame usage

end BorderCss
