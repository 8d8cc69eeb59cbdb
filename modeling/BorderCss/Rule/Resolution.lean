import BorderCss.Rule.Table

/-!
# Resolving tokens

`resolveToken` tries the rules of a list in order. A rule whose pattern does not fit, or whose
utility declines, leaves the token and the usage to the next one; the first that accepts settles
it.
-/

namespace BorderCss

namespace Rule

/-- What the rule makes of a token: it declines one that does not fit its pattern. -/
def apply (rule : Rule) (theme : Theme) (token : String) : Recorder Styling := do
  rule.utility.run theme (← .ofOption (rule.pattern.captures? token))

/-- The styling that the rule gives a token, and the usage after it. -/
def attempt (rule : Rule) (theme : Theme) (token : String) (usage : Usage) :
    Option Styling × Usage :=
  (rule.apply theme token).runFrom usage

end Rule

/-- The styling of a token under a list of rules, and the usage after it. -/
def resolveToken (rules : List Rule) (theme : Theme) (token : String) (usage : Usage) :
    Option Styling × Usage :=
  match rules with
  | [] => (none, usage)
  | rule :: rest =>
    match rule.attempt theme token usage with
    | (some styling, usage) => (some styling, usage)
    | (none, usage) => resolveToken rest theme token usage

/-- The hints of a list of rules, in order. -/
def ruleHints (rules : List Rule) : List String :=
  rules.flatMap (·.hints)

end BorderCss
