import BorderCss.Css.Styling
import BorderCss.Number.Fixed
import BorderCss.Number.Numeral
import BorderCss.Theme.Recorder

/-!
# Colours and their declarations

A `Color` is what the colour part of a token stands for: a theme entry, a literal or a keyword,
possibly with an alpha. `Color.styling` declares it for a property, and `Color.declare` also records
the theme key that it refers to. Other than a keyword, a colour is mixed with transparency by its
own alpha or, without one, by an opacity variable; the variable of a single edge falls back to the
shared one, so that an opacity token that is matched elsewhere takes effect without repeating the
colour.
-/

namespace BorderCss

/-- A keyword that is written as it is and takes no alpha. -/
inductive SpecialColor where
  | transparent
  | currentColor
  | inherit
deriving DecidableEq, Repr

namespace SpecialColor

/-- The keyword that a colour part spells. -/
def read? (text : String) : Option SpecialColor :=
  if text = "transparent" then some .transparent
  else if text = "current" ∨ text = "currentColor" then some .currentColor
  else if text = "inherit" then some .inherit
  else none

/-- The keyword in CSS. -/
def css : SpecialColor → String
  | .transparent => "transparent"
  | .currentColor => "currentColor"
  | .inherit => "inherit"

end SpecialColor

/-- Where a colour comes from. -/
inductive ColorKind where
  /-- The theme entry at a key path, and its CSS value. -/
  | theme (keys : List String) (value : String)
  /-- A CSS colour given in full. -/
  | literal (css : String)
  | special (keyword : SpecialColor)
deriving DecidableEq, Repr

/-- A colour with its name, the shade of that name and its alpha. -/
structure Color where
  name : String
  shade : Option String
  kind : ColorKind
  alpha : Option String
deriving DecidableEq, Repr

/-- The colour property of a property base and an edge suffix. -/
def colorProperty (base suffix : String) : String :=
  base ++ suffix ++ "-color"

/-- The opacity variable of a property base and an edge suffix. -/
def opacityVariable (base suffix : String) : String :=
  "--un-" ++ base ++ suffix ++ "-opacity"

/-- The registration that makes an opacity variable a number which is one unless set. -/
def opacityRegistration (name : String) : String :=
  "@property " ++ name ++
    "\x7bsyntax:\"<number>\";inherits:false;initial-value:1;\x7d"

/-- A fraction as a percentage. One that is no number is left to CSS to multiply. -/
def alphaPercentage (alpha : String) : String :=
  match readNumber? alpha.toList with
  | some fraction => fixedText (fraction.mul (.ofNat 100)) ++ "%"
  | none => "calc(" ++ alpha ++ " * 100%)"

/-- A CSS colour mixed with transparency by a percentage. -/
def mixed (css percentage : String) : String :=
  "color-mix(in oklch, " ++ css ++ " " ++ percentage ++ ", transparent)"

namespace Color

/-- The colour is a keyword. -/
def isSpecial (color : Color) : Bool :=
  match color.kind with
  | .special _ => true
  | _ => false

/-- The theme key that the declarations of the colour refer to. -/
def key? (color : Color) : Option ThemeKey :=
  match color.kind with
  | .theme keys _ => some ⟨"colors", keys⟩
  | _ => none

/-- The colour in CSS, before its alpha. -/
def css (color : Color) : String :=
  match color.kind with
  | .theme keys _ => "var(" ++ themeVariable "colors" keys ++ ")"
  | .literal css => css
  | .special keyword => keyword.css

/-- The percentage of the colour in its mix, on the edge of a suffix. -/
def percentage (color : Color) (base suffix : String) : String :=
  match color.alpha with
  | some alpha => alphaPercentage alpha
  | none => "calc(var(" ++ opacityVariable base suffix ++ ") * 100%)"

/-- The declarations of the colour on the edge of a suffix. -/
def block (color : Color) (base suffix : String) : Block :=
  if color.isSpecial then Block.empty.set (colorProperty base suffix) color.css
  else
    let mix := Block.empty.set (colorProperty base suffix)
      (mixed color.css (color.percentage base suffix))
    if suffix = "" then mix
    else mix.set (opacityVariable base suffix) ("var(" ++ opacityVariable base "" ++ ")")

/-- The declarations of the colour and, unless it is a keyword, the registration of the shared
opacity variable. -/
def styling (color : Color) (base suffix : String) : Styling :=
  let plain := Styling.ofBlock (color.block base suffix)
  if color.isSpecial then plain
  else plain.addPrelude (opacityRegistration (opacityVariable base ""))

/-- The styling of the colour on the edge of a suffix, after recording its theme key. -/
def declare (color : Color) (base suffix : String) : Recorder Styling := do
  match color.key? with
  | some key => .record key
  | none => pure ()
  return color.styling base suffix

/-- The stylings of the colour on several edges, merged in order. Each edge records the key. -/
def declareAll (color : Color) (base : String) : List String → Recorder Styling
  | [] => failure
  | suffix :: rest => do
    let first ← color.declare base suffix
    rest.foldlM (fun styling suffix => return styling.merge (← color.declare base suffix)) first

end Color

end BorderCss
