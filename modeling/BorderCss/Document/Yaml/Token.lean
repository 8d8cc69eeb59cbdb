import BorderCss.Document.Yaml.BlockScalar
import BorderCss.Document.Yaml.Tag

/-!
# Tokens of a YAML text

`tokens?` cuts a text into the tokens that the grammar of nodes is about. In block layout the column
of a token decides where collections start and end, so the lexer writes tokens for both. What turns
out to be a key by the colon after it gets the mark of a key ahead of it: until then the lexer
remembers the place as a `PossibleKey`, one for the block layout and one for every open bracket.

An anchor names a slot. It takes the slot numbered by how many different names there were before it,
and an alias stands for the slot that its name has at that point.
-/

namespace BorderCss.Yaml

/-- A token. -/
inductive Token where
  | version (major minor : Nat)
  | handle (name : String) (bytes : TagBytes)
  | documentStart
  | documentEnd
  /-- The start of a sequence in block layout. -/
  | blockSequence
  /-- The start of a mapping in block layout. -/
  | blockMapping
  /-- The end of a collection in block layout. -/
  | blockEnd
  | openSequence
  | closeSequence
  | openMapping
  | closeMapping
  /-- The dash ahead of an item. -/
  | dash
  | comma
  /-- A key follows. -/
  | key
  /-- A value follows. -/
  | value
  | anchor (slot : Nat)
  | alias (slot : Nat)
  | tag (name : TagName)
  | scalar (plain : Bool) (text : String)
deriving DecidableEq, Repr

/-- A place where a key may have started. -/
structure PossibleKey where
  /-- The number of tokens ahead of it. -/
  index : Nat
  line : Nat
  column : Nat
  /-- Nothing but a key may stand here. -/
  required : Bool

/-- The greatest number of characters between the start of a key and its colon. -/
def keyLimit : Nat := 1024

/-- A text that is being cut into tokens. -/
structure Lexer where
  cursor : Cursor
  /-- The tokens so far, in reverse. -/
  tokens : List Token := []
  /-- The columns of the open collections in block layout, the innermost first. -/
  columns : List Nat := []
  /-- The possible key between the innermost brackets. -/
  possible : Option PossibleKey := none
  /-- The possible keys around the open brackets, the innermost first. -/
  outer : List (Option PossibleKey) := []
  /-- A key or a collection in block layout may start here. -/
  keyAllowed : Bool := true
  /-- The slots of the anchors so far, one for each name. -/
  slots : List (String × Nat) := []

namespace Lexer

/-- The place is between brackets. -/
def flow (lexer : Lexer) : Bool :=
  !lexer.outer.isEmpty

/-- The next token, and the place after it. -/
def emit (lexer : Lexer) (token : Token) (cursor : Cursor) : Lexer :=
  { lexer with tokens := token :: lexer.tokens, cursor }

/-- A mark of so many characters is the next token. -/
def mark (lexer : Lexer) (token : Token) (count : Nat) : Lexer :=
  lexer.emit token (lexer.cursor.skip count)

/-- A token after the first `index` ones. -/
def insert (lexer : Lexer) (index : Nat) (token : Token) : Lexer :=
  let later := lexer.tokens.length - index
  { lexer with tokens := lexer.tokens.take later ++ token :: lexer.tokens.drop later }

/-- A key or a collection in block layout may start at the next token, or not. -/
def allowKey (lexer : Lexer) (keyAllowed : Bool) : Lexer :=
  { lexer with keyAllowed }

/-! ## Collections in block layout -/

/-- A collection of entries in this column starts after the first `index` tokens, unless one in this
column or further right is open. -/
def enter (lexer : Lexer) (column index : Nat) (token : Token) : Lexer :=
  if !lexer.flow && lexer.columns.all (· < column) then
    { lexer.insert index token with columns := column :: lexer.columns }
  else lexer

/-- The innermost collections end, up to the first one whose column `stays`. -/
def leave (lexer : Lexer) (stays : Nat → Bool) : Lexer :=
  if lexer.flow then lexer
  else
    let ended := lexer.columns.takeWhile (!stays ·)
    { lexer with
      tokens := List.replicate ended.length .blockEnd ++ lexer.tokens
      columns := lexer.columns.drop ended.length }

/-! ## Possible keys -/

/-- The possible key after the place has moved on. A key takes up one line and few characters. -/
def age? (cursor : Cursor) : Option PossibleKey → Option (Option PossibleKey)
  | none => some none
  | some key =>
    if key.line < cursor.line ∨ key.column + keyLimit < cursor.column then
      if key.required then none else some none
    else some (some key)

/-- No key started at the possible place, which is none or one where something else may stand. -/
def dropKey? (lexer : Lexer) : Option Lexer :=
  if lexer.possible.any (·.required) then none else some { lexer with possible := none }

/-- The token at this place may be a key. -/
def keepKey? (lexer : Lexer) : Option Lexer :=
  if lexer.keyAllowed then
    lexer.dropKey?.map fun lexer =>
      { lexer with
        possible := some {
          index := lexer.tokens.length
          line := lexer.cursor.line
          column := lexer.cursor.column
          required := !lexer.flow && lexer.columns.head? = some lexer.cursor.column } }
  else some lexer

/-- The lexer at the next token, with the collections ended that it lies outside of. -/
def settle? (lexer : Lexer) : Option Lexer :=
  let cursor := lexer.cursor.gap lexer.flow (!lexer.keyAllowed)
  let moved := !lexer.flow && cursor.line ≠ lexer.cursor.line
  (age? cursor lexer.possible).bind fun possible =>
    (lexer.outer.mapM (age? cursor)).map fun outer =>
      { lexer with
        cursor, possible, outer
        keyAllowed := lexer.keyAllowed || moved }.leave (· ≤ cursor.column)

/-! ## Marks -/

/-- A token that ends every collection in block layout. -/
def outside? (lexer : Lexer) : Option Lexer :=
  (lexer.leave fun _ => false).dropKey?.map (·.allowKey false)

/-- An opening bracket. -/
def openBracket? (lexer : Lexer) (token : Token) : Option Lexer :=
  lexer.keepKey?.map fun lexer =>
    { lexer with possible := none, outer := lexer.possible :: lexer.outer, keyAllowed := true }.mark
      token 1

/-- A closing bracket. -/
def closeBracket? (lexer : Lexer) (token : Token) : Option Lexer :=
  lexer.dropKey?.map fun lexer =>
    let lexer := match lexer.outer with
      | [] => lexer
      | possible :: outer => { lexer with possible, outer }
    (lexer.allowKey false).mark token 1

/-- A mark that starts a collection in block layout, unless one is open in its column. -/
def blockMark? (lexer : Lexer) (start token : Token) (keyAllowed : Bool) : Option Lexer :=
  if !lexer.flow && !lexer.keyAllowed then none
  else
    (lexer.enter lexer.cursor.column lexer.tokens.length start).dropKey?.map fun lexer =>
      (lexer.allowKey keyAllowed).mark token 1

/-- The colon ahead of a value. It makes a key of what stands at the possible place, or follows a
key that has a mark of its own. -/
def valueMark? (lexer : Lexer) : Option Lexer :=
  match lexer.possible with
  | some key =>
    let lexer := (lexer.insert key.index .key).enter key.column key.index .blockMapping
    some (({ lexer with possible := none }.allowKey false).mark .value 1)
  | none => lexer.blockMark? .blockMapping .value (!lexer.flow)

/-! ## Names and scalars -/

/-- A name may end before this text. -/
def endsName (text : List Char) : Bool :=
  atBlank text ||
    text.head?.any ['?', ':', ',', ']', '\x7d', '%', '@', '\x60'].contains

/-- The name after a mark, and the place after it. -/
def scanName? (cursor : Cursor) : Option (String × Cursor) :=
  let name := cursor.rest.tail.takeWhile isNameChar
  let after := cursor.rest.tail.drop name.length
  if name.isEmpty || !endsName after then none else some (String.ofList name, cursor.skipTo after)

/-- An anchor. -/
def anchor? (lexer : Lexer) : Option Lexer :=
  (scanName? lexer.cursor).map fun (name, cursor) =>
    let slot := lexer.slots.length
    let slots := (name, slot) :: lexer.slots.filter (·.1 ≠ name)
    { lexer with slots }.emit (.anchor slot) cursor

/-- An alias, whose anchor must stand before it. -/
def alias? (lexer : Lexer) : Option Lexer :=
  (scanName? lexer.cursor).bind fun (name, cursor) =>
    (lexer.slots.lookup name).map fun slot => lexer.emit (.alias slot) cursor

/-- A scalar. A key may follow it if a line break does. -/
def scalar (lexer : Lexer) (plain : Bool) (scanned : ScannedScalar) : Lexer :=
  (lexer.allowKey (lexer.keyAllowed || scanned.broken)).emit
    (.scalar plain (String.ofList scanned.text)) scanned.cursor

/-- A literal or folded scalar in block layout. -/
def blockScalar? (lexer : Lexer) : Option Lexer :=
  lexer.dropKey?.bind fun lexer =>
    (scanBlock lexer.columns.head? lexer.cursor).map ((lexer.allowKey true).scalar false ·)

/-- What starts with a character `c` and may be a key, other than a collection. -/
def simple? (lexer : Lexer) (c : Char) : Option Lexer :=
  lexer.keepKey?.bind fun lexer =>
    let lexer := lexer.allowKey false
    let cursor := lexer.cursor
    if c = '*' then lexer.alias?
    else if c = '&' then lexer.anchor?
    else if c = '!' then
      (scanTag? lexer.flow cursor).map fun (name, cursor) => lexer.emit (.tag name) cursor
    else if c = '"' ∨ c = '\x27' then
      (scanQuoted c (cursor.column + 1) cursor.line {} [] .plain cursor.rest.tail).map
        (lexer.scalar false ·)
    else if startsPlain lexer.flow cursor.rest then
      let indent := match lexer.columns with
        | [] => 0
        | column :: _ => column + 1
      (scanPlain lexer.flow indent cursor.column cursor.line {} [] cursor.rest).map
        (lexer.scalar true ·)
    else none

/-! ## Directives -/

/-- A part of a version number, and the text after it. -/
def scanVersionPart? (text : List Char) : Option (Nat × List Char) :=
  let digits := text.takeWhile Char.isDigit
  if digits.isEmpty ∨ 9 < digits.length then none
  else some (Nat.ofDigitChars 10 digits 0, text.drop digits.length)

/-- The version or the handle that a line declares, and what follows on the line. -/
def scanDirective? (text : List Char) : Option (Token × List Char) :=
  let word := text.takeWhile isNameChar
  let blanks := text.drop word.length
  let rest := blanks.dropWhile isSpaceOrTab
  if !atBlank blanks then none
  else if word = "YAML".toList then
    (scanVersionPart? rest).bind fun (major, rest) =>
      match rest with
      | '.' :: rest => (scanVersionPart? rest).map fun (minor, rest) => (.version major minor, rest)
      | _ => none
  else if word = "TAG".toList ∧ rest.head? = some '!' then
    match scanHandle rest.tail with
    | (handle, closed, after) =>
      if (!closed && !handle.isEmpty) || !after.head?.any isSpaceOrTab then none
      else
        (tagBytes? true (after.dropWhile isSpaceOrTab)).bind fun (bytes, rest) =>
          if atBlank rest then some (.handle (String.ofList ('!' :: handle)) bytes, rest) else none
  else none

/-- A directive, which takes up its line. -/
def directive? (lexer : Lexer) : Option Lexer :=
  lexer.outside?.bind fun lexer =>
    (scanDirective? lexer.cursor.rest.tail).bind fun (token, rest) =>
      (lexer.cursor.skipTo rest).pastLine?.map (lexer.emit token ·)

/-! ## All tokens -/

/-- The token at this place, which starts with the character `c` and goes on with `rest`. -/
def next? (lexer : Lexer) (c : Char) (rest : List Char) : Option Lexer :=
  let text := c :: rest
  let indicates := lexer.flow || atBlank rest
  if lexer.cursor.column = 0 ∧ c = '%' then lexer.directive?
  else if lexer.cursor.column = 0 ∧ startsWithMark "---" text then
    lexer.outside?.map (·.mark .documentStart 3)
  else if lexer.cursor.column = 0 ∧ startsWithMark "..." text then
    lexer.outside?.map (·.mark .documentEnd 3)
  else if c = '[' then lexer.openBracket? .openSequence
  else if c = '\x7b' then lexer.openBracket? .openMapping
  else if c = ']' then lexer.closeBracket? .closeSequence
  else if c = '\x7d' then lexer.closeBracket? .closeMapping
  else if c = ',' then lexer.dropKey?.map fun lexer => (lexer.allowKey true).mark .comma 1
  else if c = '-' ∧ atBlank rest then lexer.blockMark? .blockSequence .dash true
  else if c = '?' ∧ indicates then lexer.blockMark? .blockMapping .key (!lexer.flow)
  else if c = ':' ∧ indicates then lexer.valueMark?
  else if (c = '|' ∨ c = '>') ∧ !lexer.flow then lexer.blockScalar?
  else lexer.simple? c

/-- All the tokens of the text, in reverse. -/
def run? (fuel : Nat) (lexer : Lexer) : Option (List Token) :=
  match fuel with
  | 0 => none
  | fuel + 1 =>
    lexer.settle?.bind fun lexer =>
      match lexer.cursor.rest with
      | [] => lexer.outside?.map (·.tokens)
      | c :: rest => (lexer.next? c rest).bind (run? fuel)

end Lexer

/-- The tokens of a text. -/
def tokens? (text : String) : Option (List Token) :=
  (normalized? text.toList).bind fun chars =>
    (Lexer.run? (chars.length + 1) { cursor := { rest := chars } }).map List.reverse

end BorderCss.Yaml
