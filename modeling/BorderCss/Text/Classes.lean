/-!
# Character classes

The three classes that the token grammar takes from Unicode: `isBlank` (the white space property),
`isDecimalDigit` (general category `Nd`, whose members come in tens) and `foldLatin`, simple case
folding restricted to the letters that fold into ASCII.
-/

namespace BorderCss

/-- The Unicode white space property. -/
def isBlank (c : Char) : Bool :=
  let n := c.toNat
  (9 ≤ n && n ≤ 13) || n == 0x20 || n == 0x85 || n == 0xA0 || n == 0x1680 ||
    (0x2000 ≤ n && n ≤ 0x200A) || n == 0x2028 || n == 0x2029 || n == 0x202F || n == 0x205F ||
    n == 0x3000

/-- The zeros of the decimal digit ranges: each starts a run of ten digits. -/
def digitZeros : List Nat := [
  0x0030, 0x0660, 0x06F0, 0x07C0, 0x0966, 0x09E6, 0x0A66, 0x0AE6, 0x0B66, 0x0BE6,
  0x0C66, 0x0CE6, 0x0D66, 0x0DE6, 0x0E50, 0x0ED0, 0x0F20, 0x1040, 0x1090, 0x17E0,
  0x1810, 0x1946, 0x19D0, 0x1A80, 0x1A90, 0x1B50, 0x1BB0, 0x1C40, 0x1C50, 0xA620,
  0xA8D0, 0xA900, 0xA9D0, 0xA9F0, 0xAA50, 0xABF0, 0xFF10, 0x104A0, 0x10D30, 0x10D40,
  0x11066, 0x110F0, 0x11136, 0x111D0, 0x112F0, 0x11450, 0x114D0, 0x11650, 0x116C0, 0x116D0,
  0x116DA, 0x11730, 0x118E0, 0x11950, 0x11BF0, 0x11C50, 0x11D50, 0x11DA0, 0x11F50, 0x16130,
  0x16A60, 0x16AC0, 0x16B50, 0x16D70, 0x1CCF0, 0x1D7CE, 0x1D7D8, 0x1D7E2, 0x1D7EC, 0x1D7F6,
  0x1E140, 0x1E2F0, 0x1E4F0, 0x1E5F1, 0x1E950, 0x1FBF0]

/-- A decimal digit of any script. -/
def isDecimalDigit (c : Char) : Bool :=
  digitZeros.any fun first => first ≤ c.toNat && c.toNat < first + 10

/-- Case folding onto ASCII: the capitals, the long s and the Kelvin sign have a lower-case ASCII
letter as their folded form, and every other character stands for itself. -/
def foldLatin (c : Char) : Char :=
  if c == '\u017F' then 's' else if c == '\u212A' then 'k' else c.toLower

/-- A hexadecimal digit under case folding, where any decimal digit counts. -/
def isHexLike (c : Char) : Bool :=
  isDecimalDigit c || ('a' ≤ foldLatin c && foldLatin c ≤ 'f')

end BorderCss
