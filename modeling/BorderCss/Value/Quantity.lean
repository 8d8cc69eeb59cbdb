import BorderCss.Number.Numeral
import BorderCss.Text.Classes

/-!
# Quantities

A quantity is a finite plain numeral directly followed by an optional length unit. `readQuantity?`
reads a whole text as one; units are recognised under case folding and kept as they were written.
-/

namespace BorderCss

/-- The units, in lower case: absolute and font-relative ones, the root-relative forms of the
latter, and the viewport and container families. -/
def lengthUnits : List String :=
  ["px", "pt", "pc", "%", "em", "ex", "lh", "cap", "ch", "ic",
    "rem", "rex", "rlh", "rcap", "rch", "ric"] ++
  ["v", "sv", "lv", "dv", "cq"].flatMap (fun family =>
    ["w", "h", "i", "b", "min", "max"].map (family ++ ·)) ++
  ["in", "cm", "mm", "rpx"]

/-- The text is a unit under case folding. -/
def isUnit (text : List Char) : Bool :=
  lengthUnits.any fun unit => unit.toList == text.map foldLatin

/-- A finite number with the unit it was written with. -/
structure Quantity where
  number : Binary64
  unit : Option String
deriving DecidableEq, Repr

/-- The quantity that a whole text writes. A number too large to be finite is none. -/
def readQuantity? (text : String) : Option Quantity :=
  let (numeral, rest) := Numeral.scan text.toList
  if rest.isEmpty || isUnit rest then
    match numeral.value? with
    | some number =>
      if number.isFinite then
        some ⟨number, if rest.isEmpty then none else some (String.ofList rest)⟩
      else none
    | none => none
  else none

end BorderCss
