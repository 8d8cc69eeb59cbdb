import BorderCss.Css.Selector
import BorderCss.Rule.Resolution

/-!
# Stylesheets

A `Pass` resolves tokens one after the other and collects the theme keys they refer to.
`Pass.generate` renders a batch as a `Stylesheet`: each token once, in the order of the batch, with
the preludes that the rules share ahead of them.
-/

namespace BorderCss

/-- The CSS text of a batch, the tokens that have a rule in it, and those that have none. -/
structure Stylesheet where
  css : String
  matched : List String
  unmatched : List String
deriving DecidableEq, Repr

/-- No token of the batch has a rule. -/
def Stylesheet.isEmpty (sheet : Stylesheet) : Bool :=
  sheet.matched.isEmpty

/-- A run over tokens, with the theme keys used so far. -/
structure Pass where
  theme : Theme
  rules : List Rule := borderRules
  usage : Usage := .empty

/-- A batch in the making: the lines of its text, and its tokens. -/
structure Batch where
  preludes : List String := []
  lines : List String := []
  matched : List String := []
  unmatched : List String := []
deriving DecidableEq, Repr

namespace Batch

/-- The token was met before. -/
def knows (batch : Batch) (token : String) : Bool :=
  batch.matched.contains token || batch.unmatched.contains token

/-- The batch with the styling of a new token, or without one. -/
def add (batch : Batch) (token : String) : Option Styling → Batch
  | some styling =>
    { batch with
      preludes := styling.preludes.foldl addOnce batch.preludes
      lines := batch.lines ++ [(Styling.ofBlock styling.block).toClassCss token]
      matched := batch.matched ++ [token] }
  | none => { batch with unmatched := batch.unmatched ++ [token] }

/-- The finished batch: preludes first, a line each. -/
def finish (batch : Batch) : Stylesheet where
  css := String.intercalate "\n" (batch.preludes ++ batch.lines)
  matched := batch.matched
  unmatched := batch.unmatched

end Batch

namespace Pass

/-- The styling of a token, and the pass after it. -/
def resolve (pass : Pass) (token : String) : Option Styling × Pass :=
  let (styling, usage) := resolveToken pass.rules pass.theme token pass.usage
  (styling, { pass with usage })

/-- The batch and the pass after the remaining tokens; a token met before is skipped. -/
def collect (pass : Pass) (batch : Batch) : List String → Batch × Pass
  | [] => (batch, pass)
  | token :: rest =>
    if batch.knows token then collect pass batch rest
    else collect (pass.resolve token).2 (batch.add token (pass.resolve token).1) rest

/-- The stylesheet of a batch of tokens, and the pass after it. -/
def generate (pass : Pass) (tokens : List String) : Stylesheet × Pass :=
  let (batch, pass) := pass.collect {} tokens
  (batch.finish, pass)

/-- The root rule that defines the custom properties of the theme keys used so far. -/
def rootBlock (pass : Pass) : String :=
  pass.usage.rootBlock pass.theme

/-- The pass with no key used. -/
def reset (pass : Pass) : Pass :=
  { pass with usage := .empty }

end Pass

end BorderCss
