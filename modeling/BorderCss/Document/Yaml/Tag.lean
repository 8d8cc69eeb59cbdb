import BorderCss.Document.Yaml.Cursor
import BorderCss.Text.Hexadecimal

/-!
# Tags

A tag says what a value is. It is written in full between angle brackets, or as a handle that stands
for the first part of the tag and the suffix to be added; `TagName` is either of them and
`TagName.resolve?` the tag it stands for, under the handles of the document. Of a tag only its bytes
count, since escapes write single bytes; it ends before its first zero byte.
-/

namespace BorderCss.Yaml

/-- The bytes of a tag or of a part of it. -/
abbrev TagBytes := List UInt8

/-- The bytes of a text. -/
def bytesOf (text : String) : TagBytes :=
  text.toUTF8.toList

/-- A tag as it is written: a handle and a suffix. The suffix is the whole tag if the handle is
empty. -/
structure TagName where
  handle : String
  suffix : TagBytes
deriving DecidableEq, Repr

/-- The handles of a document and what they stand for. -/
abbrev TagHandles := List (String × TagBytes)

/-- The handles that need no declaration. -/
def defaultHandles : TagHandles :=
  [("!", bytesOf "!"), ("!!", bytesOf "tag:yaml.org,2002:")]

/-- The tag that a name stands for. -/
def TagName.resolve? (name : TagName) (handles : TagHandles) : Option TagBytes :=
  if name.handle = "" then some name.suffix
  else (handles.lookup name.handle).map (· ++ name.suffix)

/-! ## Reading tags -/

/-- The byte of two hexadecimal digits. -/
def hexByte? (high low : Char) : Option Nat := do
  some (16 * (← hexDigit? high) + (← hexDigit? low))

/-- How many bytes follow the first byte of an encoded character. -/
def followers? (byte : Nat) : Option Nat :=
  if byte < 0x80 then some 0
  else if 0xC0 ≤ byte ∧ byte < 0xE0 then some 1
  else if 0xE0 ≤ byte ∧ byte < 0xF0 then some 2
  else if 0xF0 ≤ byte ∧ byte < 0xF8 then some 3
  else none

/-- A character that stands for itself in a tag. The first three are no marks of a flow collection
in a tag that is written in full. -/
def isTagChar (full : Bool) (c : Char) : Bool :=
  (full && [',', '[', ']'].contains c) || isNameChar c ||
    [';', '/', '?', ':', '@', '&', '=', '+', '$', '.', '!', '~', '*', '\x27', '(', ')'].contains c

/-- The bytes from a place in a tag on, and the text after them. Of the character being escaped
there are `left` more bytes to come. -/
def scanTagBytes (full : Bool) (left : Nat) : List Char → Option (TagBytes × List Char)
  | [] => if left = 0 then some ([], []) else none
  | '%' :: high :: low :: rest =>
    (hexByte? high low).bind fun byte =>
      let left? :=
        match left with
        | 0 => followers? byte
        | left + 1 => if 0x80 ≤ byte ∧ byte < 0xC0 then some left else none
      left?.bind fun left =>
        (scanTagBytes full left rest).map fun (bytes, after) => (UInt8.ofNat byte :: bytes, after)
  | c :: rest =>
    if left ≠ 0 ∨ c = '%' then none
    else if isTagChar full c then
      (scanTagBytes full 0 rest).map fun (bytes, after) => (c.toNat.toUInt8 :: bytes, after)
    else some ([], c :: rest)

/-- The bytes from a place in a tag on, at least one, and the text after them. -/
def tagBytes? (full : Bool) (text : List Char) : Option (TagBytes × List Char) :=
  (scanTagBytes full 0 text).bind fun (bytes, after) =>
    if bytes.isEmpty then none else some (bytes.takeWhile (· ≠ 0), after)

/-- The handle at a place, without its first mark, and the text after it. It is closed if it ends in
another mark. -/
def scanHandle (text : List Char) : List Char × Bool × List Char :=
  let word := text.takeWhile isNameChar
  match text.drop word.length with
  | '!' :: after => (word ++ ['!'], true, after)
  | after => (word, false, after)

/-- The tag after an exclamation mark, and the text after it. A name whose handle is not closed is a
suffix of the shortest handle; a mark alone is a tag in full. -/
def scanTagName? : List Char → Option (TagName × List Char)
  | '<' :: rest =>
    (tagBytes? true rest).bind fun (suffix, after) =>
      match after with
      | '>' :: after => some (⟨"", suffix⟩, after)
      | _ => none
  | text =>
    match scanHandle text with
    | (handle, true, rest) =>
      (tagBytes? false rest).map fun (suffix, after) =>
        (⟨String.ofList ('!' :: handle), suffix⟩, after)
    | (word, false, rest) =>
      (scanTagBytes false 0 rest).map fun (bytes, after) =>
        let suffix := (bytesOf (String.ofList word) ++ bytes).takeWhile (· ≠ 0)
        (if suffix.isEmpty then ⟨"", bytesOf "!"⟩ else ⟨"!", suffix⟩, after)

/-- The tag at a place, and the place after it. White space must follow, or a comma between
brackets. -/
def scanTag? (flow : Bool) (cursor : Cursor) : Option (TagName × Cursor) :=
  (scanTagName? cursor.rest.tail).bind fun (name, after) =>
    if atBlank after ∨ (flow ∧ after.head? = some ',') then some (name, cursor.skipTo after)
    else none

/-! ## What tags say -/

/-- What a tag says about a value. -/
inductive TagSense where
  /-- Nothing. -/
  | silent
  /-- A scalar is a string. -/
  | string
  /-- A scalar is a truth value, a number or nothing. -/
  | other
  /-- The value is of a type of its own. -/
  | own
deriving DecidableEq, Repr

/-- The sense of a tag, if there is one. A tag that starts with a mark names a type of its own,
provided that the name is a text at all. -/
def tagSense : Option TagBytes → TagSense
  | none => .silent
  | some tag =>
    if tag.head? = some '!'.toNat.toUInt8 then
      if (String.fromUTF8? ⟨tag.tail.toArray⟩).isSome then .own else .silent
    else if ["null", "bool", "int", "float"].any fun word =>
        tag = bytesOf ("tag:yaml.org,2002:" ++ word) then .other
    else .string

end BorderCss.Yaml
