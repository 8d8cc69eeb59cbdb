/-!
# Places in a YAML text

A `Cursor` is a place in a text with its column and its line. `Cursor.gap` skips what may stand
between two tokens: spaces, comments and line breaks, and tabs where the layout does not depend on
the column. A line ends at a newline or at one of the two separators; `normalized?` makes every
other kind of break a newline and refuses characters that may not occur in YAML at all.
-/

namespace BorderCss.Yaml

/-- A place in a text. -/
structure Cursor where
  rest : List Char
  column : Nat := 0
  line : Nat := 0

/-! ## Characters -/

/-- A character that a YAML text may contain. -/
def isPermitted (c : Char) : Bool :=
  let n := c.toNat
  n == 0x09 || n == 0x0A || n == 0x0D || (0x20 ≤ n && n ≤ 0x7E) || n == 0x85 ||
    (0xA0 ≤ n && n ≤ 0xD7FF) || (0xE000 ≤ n && n ≤ 0xFFFD) || 0x10000 ≤ n

/-- The text with a newline for every carriage return, alone or before a newline, and for every
next-line character. -/
def unifyBreaks : List Char → List Char
  | [] => []
  | '\x0d' :: '\n' :: rest => '\n' :: unifyBreaks rest
  | c :: rest => (if c = '\x0d' ∨ c = '\x85' then '\n' else c) :: unifyBreaks rest

/-- The text with its line breaks unified, unless it has a character that YAML does not permit. -/
def normalized? (text : List Char) : Option (List Char) :=
  if text.all isPermitted then some (unifyBreaks text) else none

/-- A line break: a newline, a line separator or a paragraph separator. -/
def isBreak (c : Char) : Bool :=
  c = '\n' || c = '\u2028' || c = '\u2029'

/-- A space or a tab. -/
def isSpaceOrTab (c : Char) : Bool :=
  c = ' ' || c = '\t'

/-- The text ends here, or its line does. -/
def atLineEnd : List Char → Bool
  | [] => true
  | c :: _ => isBreak c

/-- The text ends here, or white space follows. -/
def atBlank : List Char → Bool
  | [] => true
  | c :: _ => isSpaceOrTab c || isBreak c

/-- A character of a name. -/
def isNameChar (c : Char) : Bool :=
  c.isAlphanum || c = '-' || c = '_'

/-- The text starts with `mark` and white space after it. -/
def startsWithMark (mark : String) (text : List Char) : Bool :=
  match mark.toList.isPrefixOf? text with
  | some rest => atBlank rest
  | none => false

/-- A line that starts so begins or ends a document. -/
def isDocumentMark (column : Nat) (text : List Char) : Bool :=
  column == 0 && (startsWithMark "---" text || startsWithMark "..." text)

namespace Cursor

/-! ## Moving on -/

/-- The place after the next `count` characters, none of which is a line break. -/
def skip (cursor : Cursor) (count : Nat) : Cursor :=
  { cursor with rest := cursor.rest.drop count, column := cursor.column + count }

/-- The place where `rest` is left of the same line. -/
def skipTo (cursor : Cursor) (rest : List Char) : Cursor :=
  { cursor with rest, column := cursor.column + (cursor.rest.length - rest.length) }

/-- The place after spaces and tabs. -/
def skipBlanks (cursor : Cursor) : Cursor :=
  cursor.skipTo (cursor.rest.dropWhile isSpaceOrTab)

/-- The place after the break that ends this line, if only blanks and a comment stand before it.
At the end of the text there is no break to skip. -/
def pastLine? (cursor : Cursor) : Option Cursor :=
  let cursor := cursor.skipBlanks
  let cursor :=
    if cursor.rest.head? = some '#' then cursor.skipTo (cursor.rest.dropWhile (!isBreak ·))
    else cursor
  match cursor.rest with
  | [] => some cursor
  | c :: rest => if isBreak c then some { rest, column := 0, line := cursor.line + 1 } else none

/-- The place of the next token. `tabs` says that tabs may be skipped on this line, and `flow` that
they may be on every line; `comment` that the text starts inside a comment. A byte order mark may
start a line. -/
def gapFrom (flow : Bool) (column line : Nat) (tabs comment : Bool) : List Char → Cursor
  | [] => { rest := [], column, line }
  | c :: rest =>
    if isBreak c then gapFrom flow 0 (line + 1) flow false rest
    else if comment then gapFrom flow (column + 1) line tabs true rest
    else if c = ' ' ∨ (c = '\t' ∧ tabs) ∨ (c = '\uFEFF' ∧ column = 0) then
      gapFrom flow (column + 1) line tabs false rest
    else if c = '#' then gapFrom flow (column + 1) line tabs true rest
    else { rest := c :: rest, column, line }

/-- The place of the next token: between brackets, if `flow`, or in block layout. There, tabs are
skipped on this line only, and only where `tabs` says that no column matters. -/
def gap (cursor : Cursor) (flow tabs : Bool) : Cursor :=
  gapFrom flow cursor.column cursor.line (flow || tabs) false cursor.rest

end Cursor

end BorderCss.Yaml
