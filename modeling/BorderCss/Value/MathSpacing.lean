import BorderCss.Text.Cut

/-!
# Spaces around the operators of math functions

`spaceMath` sets a space before and after every binary operator of a text that calls a math
function. An operator is binary when it directly follows a numeric token or a closing parenthesis;
`var(…)` is copied as it stands. The scan keeps what it needs to know of the text before a character
in a `MathScan`, and `MathScan.read` is its single step.
-/

namespace BorderCss

/-- The four arithmetic operators. -/
def isOperator (c : Char) : Bool :=
  c = '+' || c = '-' || c = '*' || c = '/'

/-- What is known of the text before a character. -/
structure MathScan where
  /-- The parenthesis depth inside the `var(` being copied, zero outside one. -/
  variableDepth : Nat := 0
  /-- The number of open parentheses. -/
  depth : Nat := 0
  /-- A numeric token, possibly with its unit, ends here. -/
  numeric : Bool := false
  /-- A closing parenthesis stands directly before. -/
  closed : Bool := false
  /-- A numeric token may start here. -/
  fresh : Bool := true
deriving DecidableEq, Repr

/-- After a character that was written as it is. -/
def MathScan.wrote (scan : MathScan) (c : Char) : MathScan :=
  { scan with closed := false, fresh := c = '(' || c = ',' || c = ' ' || isOperator c }

/-- One step: the text written for `c` when `rest` follows it, and what is known after it. -/
def MathScan.read (scan : MathScan) (c : Char) (rest : List Char) : List Char × MathScan :=
  let scan' := scan.wrote c
  if scan.variableDepth = 0 ∧ "var(".toList.isPrefixOf (c :: rest) then
    ([c], { scan' with variableDepth := scan.depth + 1, numeric := false })
  else if c = '(' then
    ([c], { scan' with depth := scan.depth + 1, numeric := false })
  else if c = ')' then
    let variableDepth := if scan.variableDepth = scan.depth then 0 else scan.variableDepth
    ([c], { scan' with variableDepth, depth := scan.depth - 1, numeric := false,
                       closed := variableDepth = 0 })
  else if isOperator c && scan.variableDepth = 0 && (scan.numeric || scan.closed) then
    ([' ', c, ' '], { scan' with numeric := false, fresh := true })
  else if c.isDigit || c = '.' then
    ([c], { scan' with numeric := scan.numeric || (scan.variableDepth = 0 && scan.fresh) })
  else if c.isAlpha || c = '%' then
    ([c], scan')
  else
    ([c], { scan' with numeric := false })

/-- The text with its binary operators spaced, from a state of the scan on. -/
def spaceOperators (scan : MathScan) : List Char → List Char
  | [] => []
  | c :: rest => (scan.read c rest).1 ++ spaceOperators (scan.read c rest).2 rest

/-- The math functions of CSS that tokens may use. -/
def mathFunctions : List String := ["calc", "clamp", "min", "max"]

/-- A math function is called somewhere in the text. -/
def callsMath (text : List Char) : Bool :=
  mathFunctions.any fun name => occursIn (name.toList ++ ['(']) text

/-- Binary operators spaced, if the text calls a math function at all. -/
def spaceMath (text : List Char) : List Char :=
  if callsMath text then spaceOperators {} text else text

end BorderCss
