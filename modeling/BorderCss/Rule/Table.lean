import BorderCss.Rule.Utility

/-!
# The border rules

`borderRules` is the ordered table of thirty rules: for each utility, patterns from the least to the
most qualified side. The order matters, since the first rule that accepts a token settles it; a
pattern without a side sees every token of its stem first and declines the sided ones.
-/

namespace BorderCss

/-- A pattern, what it sets, and the hints that an editor offers for it. -/
structure Rule where
  pattern : Pattern
  utility : Utility
  hints : List String := []
deriving DecidableEq, Repr

/-- Tokens of a border. -/
def borderStem : StemClass := ⟨["border", "b"], "(?:border|b)"⟩

/-- Tokens of a radius. -/
def radiusStem : StemClass where
  words := ["border-rounded", "border-rd", "b-rounded", "b-rd", "rounded", "rd"]
  expression := "(?:border-|b-)?(?:rounded|rd)"

/-- No side. -/
def noSide : SideClass := ⟨[""], "()"⟩

/-- The horizontal and the vertical pair of edges. -/
def axes : SideClass := ⟨["x", "y"], "([xy])"⟩

/-- Single edges by one letter. -/
def letterEdges : SideClass := ⟨["r", "l", "t", "b", "s", "e"], "([rltbse])"⟩

/-- The block and the inline pair of edges. -/
def logicalAxes : SideClass := ⟨["block", "inline"], "(block|inline)"⟩

/-- Single logical edges by two letters. -/
def logicalEdges : SideClass := ⟨["bs", "be", "is", "ie"], "([bi][se])"⟩

/-- Corners by two physical edges, in either order. -/
def physicalCorners : SideClass where
  words := ["r", "l", "t", "b"].flatMap fun a => ["r", "l", "t", "b"].map (a ++ ·)
  expression := "([rltb]\x7b2\x7d)"

/-- Logical edges and corners by two letters. -/
def logicalCorners : SideClass where
  words := ["b", "i", "s", "e"].flatMap fun a => ["s", "e"].map (a ++ ·)
  expression := "([bise][se])"

/-- Corners by two logical edges, in either order. -/
def edgePairCorners : SideClass where
  words := logicalEdges.words.flatMap fun a => logicalEdges.words.map (a ++ "-" ++ ·)
  expression := "([bi][se]-[bi][se])"

/-- A body that may be left out. -/
def optionalTail : TailClass := ⟨[""], true, "()(?:-(.+))?", "(?:-(.+))?"⟩

/-- A body after a word for widths. -/
def widthTail : TailClass :=
  ⟨["width-", "size-"], false, "-()(?:width|size)-(.+)", "-(?:width|size)-(.+)"⟩

/-- A body that a word for colours may precede. -/
def colorTail : TailClass := ⟨["color-", ""], false, "-()(?:color-)?(.+)", "-(?:color-)?(.+)"⟩

/-- A body after a word for opacities, whose hyphen may be left out. -/
def opacityTail : TailClass where
  leads := ["opacity-", "opacity", "op-", "op"]
  bare := false
  unsided := "-()op(?:acity)?-?(.+)"
  sided := "-op(?:acity)?-?(.+)"

/-- A body that a word for line styles may precede. -/
def styleTail : TailClass := ⟨["style-", ""], false, "-(?:style-)?()(.+)", "-(?:style-)?(.+)"⟩

/-- The sides that a border token may name. -/
def borderSides : List SideClass := [axes, letterEdges, logicalAxes, logicalEdges]

/-- The corners that a radius token may name. -/
def radiusSides : List SideClass := [letterEdges, physicalCorners, logicalCorners, edgePairCorners]

/-- The rules of a utility: the one without a side, which carries the hints, and then one for each
class of sides. -/
def ruleFamily (stem : StemClass) (sides : List SideClass) (tail : TailClass) (utility : Utility)
    (hints : List String) : List Rule :=
  { pattern := ⟨stem, noSide, tail⟩, utility, hints } ::
    sides.map fun side => { pattern := ⟨stem, side, tail⟩, utility }

/-- The line styles as the alternatives of a hint. -/
def lineStyleHint : String :=
  "(" ++ String.intercalate "|" lineStyles ++ ")"

/-- The rules for border tokens, in order. -/
def borderRules : List Rule :=
  ruleFamily borderStem borderSides optionalTail .width ["(border|b)-<directions>"] ++
  ruleFamily borderStem borderSides widthTail .width
    ["(border|b)-<num>", "(border|b)-<directions>-<num>"] ++
  ruleFamily borderStem borderSides colorTail .color
    ["(border|b)-$colors", "(border|b)-<directions>-$colors"] ++
  ruleFamily borderStem borderSides opacityTail .opacity ["(border|b)-(op|opacity)-<percent>"] ++
  ruleFamily radiusStem radiusSides optionalTail .radius
    ["(border|b)-(rounded|rd)", "(border|b)-(rounded|rd)-$radius", "(rounded|rd)",
      "(rounded|rd)-$radius"] ++
  ruleFamily borderStem borderSides styleTail .lineStyle
    ["(border|b)-style", "(border|b)-" ++ lineStyleHint, "(border|b)-<directions>-style",
      "(border|b)-<directions>-" ++ lineStyleHint,
      "(border|b)-<directions>-style-" ++ lineStyleHint, "(border|b)-style-" ++ lineStyleHint]

end BorderCss
