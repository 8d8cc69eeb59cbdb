import BorderCss.Number.Binary64

/-!
# Decimals with at most ten places

`fixedText` writes a double as the multiple of 10^-10 nearest to its exact value, ties to the even
multiple, without superfluous zeros, and never as a negative zero.
-/

namespace BorderCss

/-- How many places a written number may have. -/
def places : Nat := 10

/-- The last `count` decimal digits of `n`, leading zeros kept. -/
def paddedDigits : (count n : Nat) → List Char
  | 0, _ => []
  | count + 1, n => Nat.digitChar (n / Nat.pow 10 count % 10) :: paddedDigits count n

/-- `digits` without its trailing zeros. -/
def dropTrailingZeros (digits : List Char) : List Char :=
  (digits.reverse.dropWhile (· == '0')).reverse

/-- The text of `n` units of 10^-10. -/
def placesText (n : Nat) : List Char :=
  let whole := Nat.toDigits 10 (n / Nat.pow 10 places)
  match dropTrailingZeros (paddedDigits places (n % Nat.pow 10 places)) with
  | [] => whole
  | fraction => whole ++ '.' :: fraction

/-- The multiple of 10^-10 nearest to this many units of 2^-1074, ties to the even one. -/
def roundedPlaces (units : Nat) : Nat :=
  roundHalfEven (units * Nat.pow 10 places) Binary64.unitsPerOne

/-- The decimal text of a number. Infinities and non-numbers are written as words. -/
def fixedText : Binary64 → String
  | .finite negative units =>
    let n := roundedPlaces units
    String.ofList (if negative && n != 0 then '-' :: placesText n else placesText n)
  | .infinite negative => if negative then "-inf" else "inf"
  | .nan => "NaN"

end BorderCss
