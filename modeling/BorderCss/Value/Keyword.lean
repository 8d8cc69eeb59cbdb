import BorderCss.Text.Classes
import BorderCss.Text.Cut
import BorderCss.Value.MathSpacing

/-!
# Values with a spelling of their own

Fragments that are recognised by their spelling alone: `customProperty?` for `$name`,
`wideKeyword?` for the keywords that every CSS property takes, and `isMathCall` for a call of a math
function.
-/

namespace BorderCss

/-- The CSS-wide keywords. -/
def wideKeywords : List String := ["inherit", "initial", "revert", "revert-layer", "unset"]

/-- The text is a CSS-wide keyword. -/
def isWideKeyword (text : String) : Bool :=
  wideKeywords.contains text

/-- A CSS-wide keyword as itself. -/
def wideKeyword? (text : String) : Option String :=
  if isWideKeyword text then some text else none

/-- The characters that may not follow the dollar sign of a custom property, blanks apart. -/
def propertyStops : List Char := ['\x27', '"', '\x60', ';', '{', '}']

/-- `$name` is `var(--name)` and `$name,fallback` is `var(--name, fallback)`; an empty fallback is
left out. -/
def customProperty? (text : String) : Option String :=
  match text.toList with
  | '$' :: c :: rest =>
    if isBlank c || propertyStops.contains c then none
    else
      match cutFirst? ',' (c :: rest) with
      | some (name, []) => some ("var(--" ++ String.ofList name ++ ")")
      | some (name, fallback) =>
        some ("var(--" ++ String.ofList name ++ ", " ++ String.ofList fallback ++ ")")
      | none => some ("var(--" ++ String.ofList (c :: rest) ++ ")")
  | _ => none

/-- What follows a math function's name is a parenthesised text on one line, possibly after
blanks. -/
def isCallTail (text : List Char) : Bool :=
  match text.dropWhile isBlank with
  | '(' :: rest =>
    match cutEnd? [')'] rest with
    | some arguments => !arguments.contains '\n'
    | none => false
  | _ => false

/-- The whole text is a call of a math function. -/
def isMathCall (text : String) : Bool :=
  mathFunctions.any fun name =>
    match cutStart? name.toList text.toList with
    | some tail => isCallTail tail
    | none => false

end BorderCss
