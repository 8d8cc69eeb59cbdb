import BorderCss.Document.Basic
import BorderCss.Document.Yaml.Tag
import BorderCss.Number.Numeral

/-!
# What a YAML scalar denotes

A plain scalar that reads as null, as a truth value or as a number denotes that, and every other
scalar its text. A tag may decide otherwise; `scalarValue` takes both into account.
-/

namespace BorderCss.Yaml

/-- The text without a plus sign; a second sign after it is refused. -/
def unsigned? (text : List Char) : Option (List Char) :=
  match text with
  | '+' :: rest => if rest.head? = some '+' ∨ rest.head? = some '-' then none else some rest
  | _ => some text

/-- Digits of a base that write a number up to `limit`. -/
def isBasedDigits (base limit : Nat) (text : List Char) : Bool :=
  !text.isEmpty && text.all (fun c => (hexDigit? c).any (· < base)) &&
    text.foldl (fun n c => base * n + (hexDigit? c).getD 0) 0 ≤ limit

/-- A whole number of at most 128 bits in a base that a letter after a zero announces. -/
def isPrefixedInt (text : List Char) : Bool :=
  let (digits, limit) :=
    match text with
    | '-' :: rest => (rest, Nat.pow 2 127)
    | '+' :: rest => (rest, Nat.pow 2 128 - 1)
    | _ => (text, Nat.pow 2 128 - 1)
  match digits with
  | '0' :: 'x' :: rest => isBasedDigits 16 limit rest
  | '0' :: 'o' :: rest => isBasedDigits 8 limit rest
  | '0' :: 'b' :: rest => isBasedDigits 2 limit rest
  | _ => false

/-- Digits with a superfluous zero ahead, which are no number. -/
def isZeroLed (text : List Char) : Bool :=
  let digits :=
    match text with
    | '-' :: rest => rest
    | '+' :: rest => rest
    | _ => text
  digits.head? = some '0' && 1 < digits.length && digits.all Char.isDigit

/-- A finite number, or one of the words for infinities and for not a number. -/
def isFloat (text : List Char) : Bool :=
  [".inf", ".Inf", ".INF", "+.inf", "+.Inf", "+.INF", "-.inf", "-.Inf", "-.INF", ".nan", ".NaN",
    ".NAN"].any (·.toList == text) ||
  match unsigned? text with
  | some rest => (readNumber? rest).any Binary64.isFinite
  | none => false

/-- A plain text that denotes null, a truth value or a number. -/
def isTyped (text : List Char) : Bool :=
  text.isEmpty ||
  ["~", "null", "Null", "NULL", "true", "True", "TRUE", "false", "False", "FALSE"].any
    (·.toList == text) ||
  isPrefixedInt text || (!isZeroLed text && isFloat text)

/-- The scalar of a text that was written plainly or in quotes, under a tag. -/
def scalarValue (tag : Option TagBytes) (plain : Bool) (text : String) : Scalar where
  text := text
  isString :=
    match tagSense tag with
    | .silent => !plain || !isTyped text.toList
    | .string => true
    | .other => false
    | .own => false
  isBlank := plain && text.isEmpty

end BorderCss.Yaml
