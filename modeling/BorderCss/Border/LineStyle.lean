import BorderCss.Value.Keyword

/-!
# Line styles

The keywords of the `border-style` property, the CSS-wide ones included.
-/

namespace BorderCss

/-- The line styles that a token may name. -/
def lineStyles : List String :=
  ["solid", "dashed", "dotted", "double", "hidden", "none", "groove", "ridge", "inset", "outset"] ++
    wideKeywords

/-- The text is a line style. -/
def isLineStyle (text : String) : Bool :=
  lineStyles.contains text

end BorderCss
