import BorderCss.Theme.Recorder
import BorderCss.Value.Bracket
import BorderCss.Value.Conversion
import BorderCss.Value.Keyword

/-!
# Value fragments

`resolveFragment` turns the value part of a token into a CSS value. It tries, in this order, a
bracket escape, a custom property, a CSS-wide keyword, a math function, a theme scale and at last
the unit conversion of the mode. A value taken from the theme records the key that it refers to;
`resolveFragment?` gives the value and that key without a usage to record in.
-/

namespace BorderCss

/-- A theme namespace that is looked up before units are converted. -/
inductive ThemeScale where
  | radius
deriving DecidableEq, Repr

/-- The name of a scale's namespace. -/
def ThemeScale.space : ThemeScale → String
  | .radius => "radius"

/-- The value that a theme gives to a key of a scale. -/
def ThemeScale.lookup? (scale : ThemeScale) (theme : Theme) (key : String) : Option String :=
  match scale with
  | .radius => theme.radius? key

/-- The keys whose value is written out instead of a reference to its custom property. -/
def literalKeys : List String := [defaultKey, "none"]

/-- A CSS value and the theme key that it refers to, if any. -/
structure FragmentValue where
  css : String
  key : Option ThemeKey := none
deriving DecidableEq, Repr

/-- The value of a key that a theme scale has: the custom property of the key, or the value itself
for a literal key. -/
def scaleValue? (theme : Theme) (scale : ThemeScale) (key : String) : Option FragmentValue :=
  (scale.lookup? theme key).map fun value =>
    if literalKeys.contains key then { css := value }
    else
      { css := "var(" ++ themeVariable scale.space [key] ++ ")"
        key := some ⟨scale.space, [key]⟩ }

/-- `scaleValue?` over a usage: a key that is referred to is recorded. -/
def scaleValue (theme : Theme) (scale : ThemeScale) (key : String) : Recorder String := do
  let value ← .ofOption (scale.lookup? theme key)
  if literalKeys.contains key then return value
  .record ⟨scale.space, [key]⟩
  return "var(" ++ themeVariable scale.space [key] ++ ")"

/-- The value of a bracket escape under a mode. Pixels refuse a colour, so that a colour rule can
have it, and percentages are written as fractions. -/
def bracketFragment? (mode : UnitMode) (bracket : BracketValue) : Option String :=
  match mode with
  | .px => if bracket.isColor then none else some bracket.value
  | .percent => some (percentageToFraction bracket.value)
  | _ => some bracket.value

/-- A value with a spelling of its own: a custom property, a CSS-wide keyword or a math call. -/
def spelledValue? (raw : String) : Option String :=
  (customProperty? raw).or <| (wideKeyword? raw).or <| if isMathCall raw then some raw else none

/-- The CSS value of a fragment. A bracket escape is settled by its content alone. -/
def resolveFragment? (theme : Theme) (mode : UnitMode) (scale : Option ThemeScale) (raw : String) :
    Option FragmentValue :=
  match readBracket? raw with
  | some bracket => (bracketFragment? mode bracket).map ({ css := · })
  | none =>
    match spelledValue? raw with
    | some css => some { css }
    | none =>
      (scale.bind fun scale => scaleValue? theme scale raw).or
        ((convert? mode raw).map ({ css := · }))

/-- `resolveFragment?` over a usage: a theme key that the value refers to is recorded. -/
def resolveFragment (theme : Theme) (mode : UnitMode) (scale : Option ThemeScale) (raw : String) :
    Recorder String :=
  match readBracket? raw with
  | some bracket => .ofOption (bracketFragment? mode bracket)
  | none =>
    match spelledValue? raw with
    | some css => return css
    | none =>
      match scale with
      | some scale => scaleValue theme scale raw <|> .ofOption (convert? mode raw)
      | none => .ofOption (convert? mode raw)

end BorderCss
