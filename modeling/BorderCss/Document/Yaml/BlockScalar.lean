import BorderCss.Document.Yaml.Scalar

/-!
# Block scalars

A literal or folded scalar takes up the lines below its header, as far as they are indented. The
indentation is given in the header or found by `detectIndent`, and `scanBlockLines` reads the lines
one character at a time.
-/

namespace BorderCss.Yaml

/-- What happens to the line breaks at the end of a block scalar, of which one is kept by
default. -/
inductive Chomping where
  /-- All of them are dropped. -/
  | strip
  /-- All of them are kept. -/
  | keep
deriving DecidableEq

/-- The header of a block scalar. -/
structure BlockHeader where
  literal : Bool
  chomping : Option Chomping := none
  /-- The indentation beyond the parent's, if it is given. -/
  indent : Option Nat := none

/-- The header after its first character, and the text after it. Chomping and indentation may be
given once each, in either order. -/
def scanHeader (header : BlockHeader) : List Char → BlockHeader × List Char
  | [] => (header, [])
  | c :: rest =>
    if c = '+' ∧ header.chomping.isNone then
      scanHeader { header with chomping := some .keep } rest
    else if c = '-' ∧ header.chomping.isNone then
      scanHeader { header with chomping := some .strip } rest
    else if '1' ≤ c ∧ c ≤ '9' ∧ header.indent.isNone then
      scanHeader { header with indent := some (c.toNat - '0'.toNat) } rest
    else (header, c :: rest)

/-- The column of the first line that is not empty, or that of the longest empty line ahead of it.
A tab may not stand in its place. -/
def detectIndent (widest column : Nat) : List Char → Option Nat
  | [] => some (max widest column)
  | c :: rest =>
    if c = ' ' then detectIndent widest (column + 1) rest
    else if isBreak c then detectIndent (max widest column) 0 rest
    else if c = '\t' then none
    else some (max widest column)

/-- A block scalar being read. -/
structure BlockScan where
  /-- The text so far, in reverse. -/
  done : List Char := []
  /-- The break at the end of the line before. -/
  lead : Option Char := none
  /-- The breaks of the empty lines since, in reverse. -/
  empties : List Char := []
  /-- The line before started with a blank. -/
  blank : Bool := false
  /-- The place is inside a line, not in its indentation. -/
  inside : Bool := false

namespace BlockScan

/-- A line starts with the character `c`. A newline between two lines of a folded scalar that do not
start with a blank is a space, and none at all if empty lines follow it. -/
def startLine (scan : BlockScan) (literal : Bool) (c : Char) : BlockScan :=
  let folds := !literal && scan.lead = some '\n' && !scan.blank && !isSpaceOrTab c
  let lead := if folds then (if scan.empties.isEmpty then [' '] else []) else scan.lead.toList
  { done := c :: (scan.empties ++ lead ++ scan.done), blank := isSpaceOrTab c, inside := true }

/-- The text with the breaks at its end that are kept. -/
def finish (scan : BlockScan) (chomping : Option Chomping) : List Char :=
  scan.done.reverse ++ (if chomping = some .strip then [] else scan.lead.toList) ++
    (if chomping = some .keep then scan.empties.reverse else [])

end BlockScan

/-- The rest of a block scalar whose lines are indented to the column `indent`. -/
def scanBlockLines (header : BlockHeader) (indent column line : Nat) (scan : BlockScan) :
    List Char → Option ScannedScalar
  | [] => some ⟨scan.finish header.chomping, { rest := [], column, line }, false⟩
  | c :: rest =>
    if scan.inside then
      if isBreak c then
        scanBlockLines header indent 0 (line + 1) { scan with lead := some c, inside := false } rest
      else
        scanBlockLines header indent (column + 1) line { scan with done := c :: scan.done } rest
    else if isBreak c then
      scanBlockLines header indent 0 (line + 1) { scan with empties := c :: scan.empties } rest
    else if column < indent then
      if c = ' ' then scanBlockLines header indent (column + 1) line scan rest
      else if c = '\t' then none
      else some ⟨scan.finish header.chomping, { rest := c :: rest, column, line }, false⟩
    else
      scanBlockLines header indent (column + 1) line (scan.startLine header.literal c) rest

/-- A block scalar from its first character on, inside the collection at the column `outer`, if it
is inside any. -/
def scanBlock (outer : Option Nat) (cursor : Cursor) : Option ScannedScalar :=
  let (header, after) := scanHeader { literal := cursor.rest.head? = some '|' } cursor.rest.tail
  (cursor.skipTo after).pastLine?.bind fun cursor =>
    let least := match outer with
      | some column => column + 1
      | none => 0
    let indent? := match header.indent with
      | some extra => some (outer.getD 0 + extra)
      | none => (detectIndent 0 cursor.column cursor.rest).map fun found => max 1 (max found least)
    indent?.bind fun indent =>
      scanBlockLines header indent cursor.column cursor.line {} cursor.rest

end BorderCss.Yaml
