import BorderCss.Text.Classes
import BorderCss.Text.Cut
import BorderCss.Value.MathSpacing
import BorderCss.Value.Underscore

/-!
# Bracket escapes

`[…]` carries a CSS value that the token grammar could not spell otherwise. `readBracket?` unwraps
it: an optional type hint with a colon (`[color:red]`), then the content, whose brackets must
balance. `_` is a space, math operators are spaced out, `--name` is a custom property, and the hints
`string` and `quoted` take the content as plain text.
-/

namespace BorderCss

/-- The type that a bracket value may announce. -/
inductive BracketHint where
  | color
  | length
  | size
  | position
  | quoted
  | string
  | number
  | percentage
deriving DecidableEq, Repr

/-- The word that announces a hint. -/
def BracketHint.word : BracketHint → String
  | .color => "color"
  | .length => "length"
  | .size => "size"
  | .position => "position"
  | .quoted => "quoted"
  | .string => "string"
  | .number => "number"
  | .percentage => "percentage"

/-- Every hint. -/
def BracketHint.all : List BracketHint :=
  [.color, .length, .size, .position, .quoted, .string, .number, .percentage]

/-- A bracket's hint, if it has one, and the CSS value inside. -/
structure BracketValue where
  hint : Option BracketHint
  value : String
deriving DecidableEq, Repr

/-- The content of `[…]`. -/
def bracketContent? (text : List Char) : Option (List Char) :=
  match text with
  | '[' :: rest => cutEnd? [']'] rest
  | _ => none

/-- `content` without the word of `hint` and its colon, and the word as it was written. The word is
recognised under case folding. -/
def cutHint? (hint : BracketHint) (content : List Char) : Option (List Char × List Char) :=
  let size := hint.word.toList.length
  if (content.take size).map foldLatin = hint.word.toList then
    match content.drop size with
    | ':' :: rest => some (content.take size, rest)
    | _ => none
  else none

/-- The hint that a content starts with, and the rest. A word whose letters are not all ASCII is
cut off like the others but announces nothing. -/
def splitHint (content : List Char) : Option BracketHint × List Char :=
  match BracketHint.all.findSome? fun hint => (cutHint? hint content).map (hint, ·) with
  | some (hint, written, rest) =>
    (if written.map Char.toLower = hint.word.toList then some hint else none, rest)
  | none => (none, content)

/-- No bracket is closed before it was opened, from `depth` open brackets on, and none stays
open. -/
def bracketsBalance (depth : Nat) : List Char → Bool
  | [] => depth == 0
  | c :: rest =>
    if c = '[' then bracketsBalance (depth + 1) rest
    else if c = ']' then depth != 0 && bracketsBalance (depth - 1) rest
    else bracketsBalance depth rest

/-- A double-quoted CSS string: quotes and backslashes inside are escaped. -/
def quotedText (text : List Char) : List Char :=
  '"' :: text.flatMap (fun c => if c = '"' ∨ c = '\\' then ['\\', c] else [c]) ++ ['"']

/-- The CSS value of a content under a hint. -/
def contentValue (hint : Option BracketHint) (content : List Char) : List Char :=
  if "--".toList.isPrefixOf content then "var(".toList ++ content ++ [')']
  else
    match hint with
    | some .string => spaced content
    | some .quoted => quotedText (spaced content)
    | _ => spaceMath (spacedOutsideUrls content)

/-- The value that a bracket escape carries. The content may not be empty, an empty attribute
test, or unbalanced. -/
def readBracket? (text : String) : Option BracketValue :=
  match bracketContent? text.toList with
  | none => none
  | some content =>
    let (hint, base) := splitHint content
    if base.isEmpty || base == "=\"\"".toList || !bracketsBalance 0 base then none
    else some ⟨hint, String.ofList (contentValue hint base)⟩

/-- The value of a bracket escape, whatever its hint. -/
def bracket? (text : String) : Option String :=
  (readBracket? text).map (·.value)

/-- The value of a bracket escape that is unhinted or announces a colour. -/
def colorBracket? (text : String) : Option String :=
  match readBracket? text with
  | some ⟨none, value⟩ => some value
  | some ⟨some .color, value⟩ => some value
  | _ => none

/-- The openings of CSS colours: a hash or a colour function. -/
def colorOpenings : List String :=
  ["#", "rgb(", "rgba(", "hsl(", "hsla(", "hwb(", "lab(", "lch(", "oklab(", "oklch(", "color(",
    "color-mix("]

/-- A bracket value that is a colour by its hint or, without one, by its opening. -/
def BracketValue.isColor (bracket : BracketValue) : Bool :=
  match bracket.hint with
  | some hint => hint == .color
  | none => colorOpenings.any fun opening =>
      opening.toList.isPrefixOf (bracket.value.toList.map Char.toLower)

end BorderCss
