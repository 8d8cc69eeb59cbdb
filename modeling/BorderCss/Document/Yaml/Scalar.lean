import BorderCss.Document.Yaml.Cursor
import BorderCss.Text.Hexadecimal

/-!
# Scalars on the lines of a YAML text

A scalar written plainly or in quotes may go on for several lines. The white space at the end of a
line and at the start of the next is folded: one newline is a space, and of several newlines the
first one is dropped. `scanPlain` and `scanQuoted` read the two kinds from their first character on.
-/

namespace BorderCss.Yaml

/-! ## Folding -/

/-- White space that was read but not yet written: the blanks before the first line break and the
breaks, both in reverse. -/
structure Pending where
  blanks : List Char := []
  breaks : List Char := []
  /-- A line break was read, escaped or not; blanks after it do not count. -/
  broken : Bool := false
  /-- The first break was escaped, so none of the others is folded. -/
  escaped : Bool := false

namespace Pending

/-- There is nothing to write. -/
def isEmpty (pending : Pending) : Bool :=
  pending.blanks.isEmpty && !pending.broken

/-- One more blank. -/
def blank (pending : Pending) (c : Char) : Pending :=
  if pending.broken then pending else { pending with blanks := c :: pending.blanks }

/-- One more line break. -/
def lineBreak (pending : Pending) (c : Char) : Pending :=
  { pending with breaks := c :: pending.breaks, broken := true }

/-- The text that the white space stands for, in reverse. Only a newline is folded. -/
def folded (pending : Pending) : List Char :=
  if !pending.broken then pending.blanks
  else if pending.escaped ∨ pending.breaks.getLast? ≠ some '\n' then pending.breaks
  else if pending.breaks.length = 1 then [' ']
  else pending.breaks.dropLast

end Pending

/-! ## Plain scalars -/

/-- A character that ends a plain scalar between brackets. -/
def isFlowMark (c : Char) : Bool :=
  c = ',' || c = '[' || c = ']' || c = '\x7b' || c = '\x7d'

/-- A plain scalar may start with this text. -/
def startsPlain (flow : Bool) : List Char → Bool
  | [] => false
  | c :: rest =>
    if c = '-' then !atBlank rest
    else if c = '?' ∨ c = ':' then !flow && !atBlank rest
    else !(isSpaceOrTab c || isBreak c || isFlowMark c ||
      ['#', '&', '*', '!', '|', '>', '\x27', '"', '%', '@', '\x60'].contains c)

/-- A scalar and the place after it. -/
structure ScannedScalar where
  text : List Char
  cursor : Cursor
  /-- A line break was read after the last character. -/
  broken : Bool := false

/-- The rest of a plain scalar, `done` being its text so far in reverse. Outside brackets a line of
it must reach the column `indent`. -/
def scanPlain (flow : Bool) (indent column line : Nat) (pending : Pending) (done : List Char) :
    List Char → Option ScannedScalar
  | [] => some ⟨done.reverse, { rest := [], column, line }, pending.broken⟩
  | c :: rest =>
    let stop : Option ScannedScalar :=
      some ⟨done.reverse, { rest := c :: rest, column, line }, pending.broken⟩
    if isBreak c then scanPlain flow indent 0 (line + 1) (pending.lineBreak c) done rest
    else if isSpaceOrTab c then
      if pending.broken ∧ c = '\t' ∧ column < indent then none
      else scanPlain flow indent (column + 1) line (pending.blank c) done rest
    else if !pending.isEmpty &&
        ((pending.broken && !flow && column < indent) || c = '#' ||
          isDocumentMark column (c :: rest)) then stop
    else if flow ∧ c = ':' ∧ (rest.head?.any fun d => isFlowMark d || d = '?') then none
    else if (c = ':' ∧ atBlank rest) ∨ (flow ∧ isFlowMark c) then stop
    else scanPlain flow indent (column + 1) line {} (c :: (pending.folded ++ done)) rest

/-! ## Quoted scalars -/

/-- The character that a backslash and one more character stand for. -/
def simpleEscape? (c : Char) : Option Char :=
  [('0', '\x00'), ('a', '\x07'), ('b', '\x08'), ('t', '\t'), ('\t', '\t'), ('n', '\n'),
    ('v', '\x0b'), ('f', '\x0c'), ('r', '\x0d'), ('e', '\x1b'), (' ', ' '), ('"', '"'), ('/', '/'),
    ('\\', '\\'), ('N', '\x85'), ('_', '\xa0'), ('L', '\u2028'), ('P', '\u2029')].lookup c

/-- The number of hexadecimal digits that an escape takes. -/
def escapeDigits? (c : Char) : Option Nat :=
  [('x', 2), ('u', 4), ('U', 8)].lookup c

/-- The character of a code point, unless it is a surrogate or out of range. -/
def codePoint? (n : Nat) : Option Char :=
  if n.isValidChar then some (Char.ofNat n) else none

/-- How the next character of a quoted scalar is read. -/
inductive QuotedScan where
  | plain
  | escaped
  /-- In a code point, with so many digits to come. -/
  | digits (left value : Nat)
  /-- After a single quote that another one follows. -/
  | doubled

/-- The rest of a quoted scalar, `done` being its text so far in reverse. -/
def scanQuoted (quote : Char) (column line : Nat) (pending : Pending) (done : List Char) :
    QuotedScan → List Char → Option ScannedScalar
  | _, [] => none
  | .doubled, c :: rest => scanQuoted quote (column + 1) line {} (c :: done) .plain rest
  | .escaped, c :: rest =>
    if isBreak c then
      scanQuoted quote 0 (line + 1) { broken := true, escaped := true } done .plain rest
    else
      match simpleEscape? c, escapeDigits? c with
      | some e, _ => scanQuoted quote (column + 1) line {} (e :: done) .plain rest
      | none, some count => scanQuoted quote (column + 1) line {} done (.digits (count - 1) 0) rest
      | none, none => none
  | .digits left value, c :: rest =>
    match hexDigit? c, left with
    | some d, 0 =>
      match codePoint? (16 * value + d) with
      | some e => scanQuoted quote (column + 1) line {} (e :: done) .plain rest
      | none => none
    | some d, left + 1 =>
      scanQuoted quote (column + 1) line {} done (.digits left (16 * value + d)) rest
    | none, _ => none
  | .plain, c :: rest =>
    if isDocumentMark column (c :: rest) then none
    else if isBreak c then scanQuoted quote 0 (line + 1) (pending.lineBreak c) done .plain rest
    else if isSpaceOrTab c then
      scanQuoted quote (column + 1) line (pending.blank c) done .plain rest
    else
      let done := pending.folded ++ done
      if c = quote then
        if quote = '\x27' ∧ rest.head? = some quote then
          scanQuoted quote (column + 1) line {} done .doubled rest
        else some ⟨done.reverse, { rest, column := column + 1, line }, false⟩
      else if quote = '"' ∧ c = '\\' then scanQuoted quote (column + 1) line {} done .escaped rest
      else scanQuoted quote (column + 1) line {} (c :: done) .plain rest

end BorderCss.Yaml
