import BorderCss.Number.Fixed
import BorderCss.Value.Quantity

/-!
# Unit conversion

How a bare fragment becomes a CSS value under each `UnitMode`: `pixels?`, `rootEms?`, `ratio?` and
`fraction?` are the conversions, `convert?` picks one by mode. Every number written passes through
`fixedText`.
-/

namespace BorderCss

/-- What a bare number stands for: pixels, quarters of a root em, a percentage, or itself. -/
inductive UnitMode where
  | px
  | rem
  | percent
  | plain
deriving DecidableEq, Repr

/-- `2` is `2px`; a unit is kept. -/
def pixels? (text : String) : Option String :=
  (readQuantity? text).map fun quantity =>
    fixedText quantity.number ++ quantity.unit.getD "px"

/-- `4` is `1rem`, a quarter root em for each; a unit is kept. -/
def rootEms? (text : String) : Option String :=
  (readQuantity? text).map fun quantity =>
    match quantity.unit with
    | some unit => fixedText quantity.number ++ unit
    | none => fixedText (quantity.number.div (.ofNat 4)) ++ "rem"

/-- `1/2` is `50%`, `full` is `100%`, and a zero ratio has no unit. The ratio must be finite. -/
def ratio? (text : String) : Option String :=
  if text = "full" then some "100%"
  else do
    let (left, right) ← cutFirst? '/' text.toList
    let ratio := (← readNumber? left).div (← readNumber? right)
    if !ratio.isFinite then none
    else if ratio.isZero then some "0"
    else some (fixedText (ratio.mul (.ofNat 100)) ++ "%")

/-- `50` and `50%` are `0.5`. The hundredth must be finite. -/
def fraction? (text : String) : Option String := do
  let chars := text.toList
  let number ← readNumeral? ((cutEnd? ['%'] chars).getD chars)
  let hundredth := number.div (.ofNat 100)
  if hundredth.isFinite then some (fixedText hundredth) else none

/-- A literal percentage as a fraction; every other value is itself. -/
def percentageToFraction (value : String) : String :=
  if value.toList.getLast? = some '%' then (fraction? value).getD value else value

/-- The unit conversion of a mode. -/
def convert? (mode : UnitMode) (text : String) : Option String :=
  match mode with
  | .px => pixels? text
  | .rem => (ratio? text).or (rootEms? text)
  | .percent => fraction? text
  | .plain => (readQuantity? text).map fun _ => text

end BorderCss
