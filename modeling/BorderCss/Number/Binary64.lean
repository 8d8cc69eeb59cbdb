/-!
# Binary64 numbers, exactly

Every finite double is a whole number of units of 2^-1074, the smallest positive one, so `Binary64`
keeps a finite number as a sign and a count of `units` and no rounding hides in its arithmetic.
`Binary64.ofRatio` rounds a ratio of natural numbers to the nearest double, ties to the even
significand; `mul` and `div` are the exact result passed through it. `ofBits` and `toBits` read and
write the interchange word.
-/

namespace BorderCss

/-- The whole number nearest to `num / den`; a tie goes to the even neighbour. -/
def roundHalfEven (num den : Nat) : Nat :=
  let below := num / den
  let rest := num % den
  if 2 * rest < den then below
  else if den < 2 * rest then below + 1
  else below + below % 2

/-- A double: a finite number of `units` of 2^-1074 with a sign, an infinity, or not a number. -/
inductive Binary64 where
  | finite (negative : Bool) (units : Nat)
  | infinite (negative : Bool)
  | nan
deriving DecidableEq, Repr

namespace Binary64

/-- The number of units in one. -/
def unitsPerOne : Nat := Nat.pow 2 1074

/-- The least number of units beyond every finite double, that of 2^1024. -/
def unitsLimit : Nat := Nat.pow 2 2098

/-- How many low bits a double of this many units leaves out: a significand has 53 bits. -/
def spacing (units : Nat) : Nat :=
  (units.log2 + 1) - 53

/-- The double nearest to `num / den` with the given sign, `den` being positive. A result that
rounds to 2^1024 or more is infinite. -/
def ofRatio (negative : Bool) (num den : Nat) : Binary64 :=
  let scaled := num * unitsPerOne
  let step := Nat.pow 2 (spacing (scaled / den))
  let units := roundHalfEven scaled (den * step) * step
  if units < unitsLimit then .finite negative units else .infinite negative

/-- A natural number as the nearest double. -/
def ofNat (n : Nat) : Binary64 :=
  ofRatio false n 1

/-- Neither an infinity nor a non-number. -/
def isFinite : Binary64 → Bool
  | .finite _ _ => true
  | _ => false

/-- Zero of either sign. -/
def isZero : Binary64 → Bool
  | .finite _ units => units == 0
  | _ => false

/-- The correctly rounded product; zero times infinity is not a number. -/
def mul : Binary64 → Binary64 → Binary64
  | .finite s a, .finite t b => ofRatio (s != t) (a * b) (unitsPerOne * unitsPerOne)
  | .finite s a, .infinite t => if a = 0 then .nan else .infinite (s != t)
  | .infinite s, .finite t b => if b = 0 then .nan else .infinite (s != t)
  | .infinite s, .infinite t => .infinite (s != t)
  | _, _ => .nan

/-- The correctly rounded quotient. Dividing a nonzero number by zero gives an infinity; zero by
zero and infinity by infinity are not numbers. -/
def div : Binary64 → Binary64 → Binary64
  | .finite s a, .finite t b =>
    if b = 0 then (if a = 0 then .nan else .infinite (s != t)) else ofRatio (s != t) a b
  | .finite s _, .infinite t => .finite (s != t) 0
  | .infinite s, .finite t _ => .infinite (s != t)
  | _, _ => .nan

/-- The double whose decimal is `digits · 10^exponent`. Beyond 10^400 every nonzero value is
infinite and below 10^-400 it is zero, so no larger power is ever computed. -/
def ofDecimal (negative : Bool) (digits : Nat) : Int → Binary64
  | .ofNat up =>
    if digits = 0 then .finite negative 0
    else if 400 < up then .infinite negative
    else ofRatio negative (digits * Nat.pow 10 up) 1
  | .negSucc down =>
    if 400 + digits.log2 < down then .finite negative 0
    else ofRatio negative digits (Nat.pow 10 (down + 1))

/-- The number of the interchange word `bits`: a sign bit, eleven exponent bits and a fraction of
52 bits. -/
def ofBits (bits : UInt64) : Binary64 :=
  let word := bits.toNat
  let negative := Nat.pow 2 63 ≤ word
  let exponent := word / Nat.pow 2 52 % Nat.pow 2 11
  let fraction := word % Nat.pow 2 52
  if exponent = 2047 then
    if fraction = 0 then .infinite negative else .nan
  else if exponent = 0 then .finite negative fraction
  else .finite negative ((Nat.pow 2 52 + fraction) * Nat.pow 2 (exponent - 1))

/-- The interchange word of a number. The exponent field counts the bits left out, which the
leading bit of the significand raises by one for every normal number. -/
def toBits : Binary64 → UInt64
  | .finite negative units =>
    let exponent := spacing units
    signBit negative + UInt64.ofNat (exponent * Nat.pow 2 52 + units / Nat.pow 2 exponent)
  | .infinite negative => signBit negative + 0x7FF0000000000000
  | .nan => 0x7FF8000000000000
where
  /-- The sign bit in its place. -/
  signBit (negative : Bool) : UInt64 :=
    if negative then 0x8000000000000000 else 0

end Binary64

end BorderCss
