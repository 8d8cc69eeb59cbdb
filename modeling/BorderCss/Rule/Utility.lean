import BorderCss.Border.Edge
import BorderCss.Border.LineStyle
import BorderCss.Color.Reading
import BorderCss.Rule.Pattern
import BorderCss.Value.Fragment

/-!
# Border utilities

The five things that a token may set: width, colour, opacity, radius and line style. A `Utility`
turns captures into a `Styling`, recording the theme keys that it refers to, or declines them when
the side is unknown or the body is no value of its kind. A colour whose body is a math function is a
width.
-/

namespace BorderCss

/-- What a token sets. -/
inductive Utility where
  | width
  | color
  | opacity
  | radius
  | lineStyle
deriving DecidableEq, Repr

/-- The styling that sets one property per suffix, all to one value. -/
def Styling.fanOut (suffixes : List String) (property : String → String) (value : String) :
    Styling :=
  .ofBlock (.ofList (suffixes.map fun suffix => ⟨property suffix, value⟩))

/-- The radius that rounds a corner fully. -/
def infiniteRadius : String := "calc(infinity * 1px)"

/-- The property that holds the width of the edge of a suffix. -/
def widthProperty (suffix : String) : String :=
  "border" ++ suffix ++ "-width"

/-- The property that holds the radius of the corner of a suffix. -/
def radiusProperty (suffix : String) : String :=
  "border" ++ suffix ++ "-radius"

/-- The property that holds the line style of the edge of a suffix. -/
def lineStyleProperty (suffix : String) : String :=
  "border" ++ suffix ++ "-style"

/-- The width of the edges of a side. -/
def widthStyling (theme : Theme) (side raw : String) : Recorder Styling := do
  let edges ← .ofOption (edgesOf? side)
  let value ← resolveFragment theme .px none raw
  return .fanOut (edges.map Edge.suffix) widthProperty value

/-- The body is a math function, in a bracket escape or not. -/
def isMathBody (body : String) : Bool :=
  (bracket? body).any isMathCall || isMathCall body

/-- The colour of the edges of a side, or their width if the body is a math function. -/
def colorStyling (theme : Theme) (side body : String) : Recorder Styling := do
  let edges ← .ofOption (edgesOf? side)
  if isMathBody body then widthStyling theme side body
  else
    let color ← .ofOption (readColor? theme body)
    color.declareAll "border" (edges.map Edge.suffix)

/-- The opacity of the edges of a side. -/
def opacityStyling (theme : Theme) (side body : String) : Recorder Styling := do
  let edges ← .ofOption (edgesOf? side)
  let value ← resolveFragment theme .percent none body
  return .fanOut (edges.map Edge.suffix) (opacityVariable "border") value

/-- The value of a radius: fully round, or a fragment that may name a radius of the theme. -/
def radiusValue (theme : Theme) (scale : String) : Recorder String :=
  if scale = "full" then return infiniteRadius
  else resolveFragment theme .rem (some .radius) scale

/-- The radius of the corners of a corner part. -/
def radiusStyling (theme : Theme) (corner scale : String) : Recorder Styling := do
  let corners ← .ofOption (cornersOf? corner)
  let value ← radiusValue theme scale
  return .fanOut (corners.map Corner.suffix) radiusProperty value

/-- The line style of the edges of a side, which is also kept in a variable. -/
def lineStyling? (side style : String) : Option Styling :=
  if isLineStyle style then
    (edgesOf? side).map fun edges =>
      .ofBlock (.ofList (⟨"--un-border-style", style⟩ ::
        (edges.map Edge.suffix).map fun suffix => ⟨lineStyleProperty suffix, style⟩))
  else none

/-- What a utility makes of captures, whose first group is the side and second the body. A width
without a body is one pixel, and a radius without one is the theme's default. -/
def Utility.run (utility : Utility) (theme : Theme) (captures : Captures) : Recorder Styling :=
  let side := captures.getD 1 ""
  match utility with
  | .width => widthStyling theme side (captures.getD 2 "1")
  | .color => do colorStyling theme side (← .ofOption (captures.get? 2))
  | .opacity => do opacityStyling theme side (← .ofOption (captures.get? 2))
  | .radius => radiusStyling theme side (captures.getD 2 defaultKey)
  | .lineStyle => .ofOption ((captures.get? 2).bind (lineStyling? side))

end BorderCss
