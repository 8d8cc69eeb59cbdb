import BorderCss.Number.Binary64
import BorderCss.Text.Cut

/-!
# Reading numerals

`Numeral.scan` reads the longest plain numeral at the start of a text: an optional minus, digits,
and a point that digits follow. `Numeral.value?` is the double nearest to it. `readNumber?` reads a
whole text in the wider notation that also has a plus, a point with digits on one side only, an
exponent, and the words for infinity and for not a number.
-/

namespace BorderCss

/-- The number that a run of decimal digits writes. -/
def digitsValue (digits : List Char) : Nat :=
  Nat.ofDigitChars 10 digits 0

/-- A plain numeral, as its sign and the digits before and after the point. -/
structure Numeral where
  negative : Bool
  whole : List Char
  fraction : List Char
deriving DecidableEq, Repr

namespace Numeral

/-- The fraction at the start of a text, a point and at least one digit, and what follows it. -/
def scanFraction : List Char → List Char × List Char
  | '.' :: rest =>
    if (rest.takeWhile Char.isDigit).isEmpty then ([], '.' :: rest)
    else (rest.takeWhile Char.isDigit, rest.dropWhile Char.isDigit)
  | text => ([], text)

/-- A numeral of the given sign and what follows it. -/
def scanUnsigned (negative : Bool) (text : List Char) : Numeral × List Char :=
  let (fraction, rest) := scanFraction (text.dropWhile Char.isDigit)
  (⟨negative, text.takeWhile Char.isDigit, fraction⟩, rest)

/-- The longest plain numeral, possibly without digits, at the start of a text, and what follows
it. -/
def scan : List Char → Numeral × List Char
  | '-' :: rest => scanUnsigned true rest
  | text => scanUnsigned false text

/-- The double nearest to the numeral, which must have a digit. -/
def value? (n : Numeral) : Option Binary64 :=
  if n.whole.isEmpty && n.fraction.isEmpty then none
  else
    some (.ofDecimal n.negative (digitsValue (n.whole ++ n.fraction)) (-(n.fraction.length : Int)))

end Numeral

/-- The value of a text that is a plain numeral and nothing more. -/
def readNumeral? (text : List Char) : Option Binary64 :=
  match Numeral.scan text with
  | (numeral, []) => numeral.value?
  | _ => none

/-- The whole number that an exponent's digits and sign write. -/
def readExponent? (text : List Char) : Option Int :=
  let (negative, digits) :=
    match text with
    | '-' :: rest => (true, rest)
    | '+' :: rest => (false, rest)
    | _ => (false, text)
  if digits.isEmpty || !digits.all Char.isDigit then none
  else some (if negative then -(digitsValue digits : Int) else digitsValue digits)

/-- The value of an unsigned text in exponent notation. The point may stand first or last. -/
def readScientific? (negative : Bool) (text : List Char) : Option Binary64 :=
  let whole := text.takeWhile Char.isDigit
  let (fraction, rest) :=
    match text.dropWhile Char.isDigit with
    | '.' :: rest => (rest.takeWhile Char.isDigit, rest.dropWhile Char.isDigit)
    | rest => ([], rest)
  let exponent? : Option Int :=
    match rest with
    | [] => some 0
    | c :: digits => if c = 'e' ∨ c = 'E' then readExponent? digits else none
  if whole.isEmpty && fraction.isEmpty then none
  else exponent?.map fun exponent =>
    .ofDecimal negative (digitsValue (whole ++ fraction)) (exponent - fraction.length)

/-- The value of an unsigned text: an infinity, not a number, or exponent notation. The words are
read in any case. -/
def readUnsigned? (negative : Bool) (text : List Char) : Option Binary64 :=
  let lower := text.map Char.toLower
  if lower = "inf".toList ∨ lower = "infinity".toList then some (.infinite negative)
  else if lower = "nan".toList then some .nan
  else readScientific? negative text

/-- The value of a text in the wide notation, none if it is anything else. -/
def readNumber? : List Char → Option Binary64
  | '-' :: rest => readUnsigned? true rest
  | '+' :: rest => readUnsigned? false rest
  | text => readUnsigned? false text

end BorderCss
