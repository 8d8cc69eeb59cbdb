import BorderCss.Css.Styling

/-!
# Class selectors

`escapeClass` spells a token as a CSS class name: characters that may not stand in an identifier
are escaped with a backslash, and a leading digit by its code point.
-/

namespace BorderCss

/-- A character that stands for itself in a class name. -/
def isNameChar (c : Char) : Bool :=
  c.isAlphanum || c = '-' || c = '_'

/-- A character of a class name other than the first. -/
def escapeChar (c : Char) : List Char :=
  if isNameChar c then [c] else ['\\', c]

/-- A token as a class name. The code point of a leading digit ends in a space, so that what follows
is not read as part of it. -/
def escapeName : List Char → List Char
  | [] => []
  | c :: rest =>
    (if c.isDigit then ['\\', '3', c, ' '] else escapeChar c) ++ rest.flatMap escapeChar

/-- A token as the text of a class name. -/
def escapeClass (token : String) : String :=
  String.ofList (escapeName token.toList)

/-- The rule that gives a token's class its declarations. -/
def Styling.toClassCss (styling : Styling) (token : String) : String :=
  styling.toCss ("." ++ escapeClass token)

end BorderCss
