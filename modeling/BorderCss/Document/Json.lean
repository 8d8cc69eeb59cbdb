import BorderCss.Document.Basic
import BorderCss.Number.Numeral
import BorderCss.Text.Hexadecimal

/-!
# Reading JSON

`readJson?` reads strict JSON: one value with nothing but white space around it. The text is cut
into tokens, and `JsonState.read` takes them one at a time, keeping the containers that are still
open. Numbers, truth values and null are all `atom`; so is a string whose surrogate escapes do not
pair up.
-/

namespace BorderCss

/-- A character of a string literal: itself, or a code unit given by its number. -/
inductive JsonPiece where
  | char (c : Char)
  | unit (n : Nat)

/-- The character that a backslash and one more character stand for. -/
def jsonEscape? (c : Char) : Option Char :=
  [('"', '"'), ('\\', '\\'), ('/', '/'), ('b', '\x08'), ('f', '\x0c'), ('n', '\n'), ('r', '\x0d'),
    ('t', '\t')].lookup c

/-- How the next character of a string literal is read. -/
inductive JsonStringScan where
  | plain
  | escaped
  /-- In the number of a code unit, with so many digits to come. -/
  | digits (left value : Nat)

/-- A string literal after its opening quote: its pieces and what follows the closing quote. Control
characters must be escaped. -/
def scanJsonString : JsonStringScan → List Char → Option (List JsonPiece × List Char)
  | _, [] => none
  | .plain, c :: rest =>
    if c = '"' then some ([], rest)
    else if c = '\\' then scanJsonString .escaped rest
    else if c.toNat < 0x20 then none
    else (scanJsonString .plain rest).map fun (pieces, rest) => (.char c :: pieces, rest)
  | .escaped, c :: rest =>
    if c = 'u' then scanJsonString (.digits 3 0) rest
    else (jsonEscape? c).bind fun e =>
      (scanJsonString .plain rest).map fun (pieces, rest) => (.char e :: pieces, rest)
  | .digits left value, c :: rest =>
    (hexDigit? c).bind fun d =>
      match left with
      | 0 => (scanJsonString .plain rest).map fun (pieces, rest) =>
          (.unit (16 * value + d) :: pieces, rest)
      | left + 1 => scanJsonString (.digits left (16 * value + d)) rest

/-- What follows a string literal is shorter than the literal. -/
theorem length_scanJsonString {scan : JsonStringScan} {text : List Char}
    {result : List JsonPiece × List Char} (h : scanJsonString scan text = some result) :
    result.2.length < text.length := by
  induction text generalizing scan result with
  | nil => simp [scanJsonString] at h
  | cons c rest ih =>
    have mapped : ∀ {s} {f : List JsonPiece → List JsonPiece},
        (scanJsonString s rest).map (fun p => (f p.1, p.2)) = some result →
        result.2.length < rest.length + 1 := by
      intro s f h
      obtain ⟨p, hp, rfl⟩ := Option.map_eq_some_iff.1 h
      have := ih hp
      exact Nat.lt_succ_of_lt this
    cases scan with
    | plain =>
      unfold scanJsonString at h
      split at h
      · cases h; simp
      · split at h
        · exact Nat.lt_succ_of_lt (ih h)
        · split at h
          · cases h
          · exact mapped (f := (JsonPiece.char c :: ·)) h
    | escaped =>
      unfold scanJsonString at h
      split at h
      · exact Nat.lt_succ_of_lt (ih h)
      · obtain ⟨e, _, h⟩ := Option.bind_eq_some_iff.1 h
        exact mapped (f := (JsonPiece.char e :: ·)) h
    | digits left value =>
      unfold scanJsonString at h
      obtain ⟨d, _, h⟩ := Option.bind_eq_some_iff.1 h
      split at h
      · exact mapped (f := (JsonPiece.unit (16 * value + d) :: ·)) h
      · exact Nat.lt_succ_of_lt (ih h)

/-- The text of a string literal, if its high and low surrogates pair up. -/
def joinPieces : List JsonPiece → Option (List Char)
  | [] => some []
  | .char c :: rest => (joinPieces rest).map (c :: ·)
  | .unit high :: .unit low :: rest =>
    if 0xD800 ≤ high ∧ high < 0xDC00 then
      if 0xDC00 ≤ low ∧ low < 0xE000 then
        (joinPieces rest).map (Char.ofNat (0x10000 + (high - 0xD800) * 0x400 + (low - 0xDC00)) :: ·)
      else none
    else if 0xDC00 ≤ high ∧ high < 0xE000 then none
    else (joinPieces (.unit low :: rest)).map (Char.ofNat high :: ·)
  | .unit n :: rest =>
    if 0xD800 ≤ n ∧ n < 0xE000 then none else (joinPieces rest).map (Char.ofNat n :: ·)

/-- What JSON text is made of. -/
inductive JsonToken where
  | openMapping
  | closeMapping
  | openSequence
  | closeSequence
  | colon
  | comma
  | string (value : Document)
  | other

/-- The tokens of one character. -/
def jsonMark? (c : Char) : Option JsonToken :=
  if c = '\x7b' then some .openMapping
  else if c = '\x7d' then some .closeMapping
  else if c = '[' then some .openSequence
  else if c = ']' then some .closeSequence
  else if c = ':' then some .colon
  else if c = ',' then some .comma
  else none

/-- The text is a word that stands for a value. -/
def isJsonWord (text : List Char) : Bool :=
  ["true", "false", "null"].any (·.toList == text)

/-- The digits after a mark, at least one. -/
def isDigits (text : List Char) : Bool :=
  !text.isEmpty && text.all Char.isDigit

/-- The exponent of a number, which may be missing. -/
def isJsonExponent : List Char → Bool
  | [] => true
  | c :: rest =>
    (c = 'e' || c = 'E') &&
      match rest with
      | '+' :: digits => isDigits digits
      | '-' :: digits => isDigits digits
      | digits => isDigits digits

/-- The fraction of a number and its exponent, each of which may be missing. -/
def isJsonFraction : List Char → Bool
  | '.' :: rest =>
    !(rest.takeWhile Char.isDigit).isEmpty && isJsonExponent (rest.dropWhile Char.isDigit)
  | text => isJsonExponent text

/-- A number without its sign: no zero leads other digits. -/
def isJsonMagnitude : List Char → Bool
  | '0' :: rest => isJsonFraction rest
  | text => !(text.takeWhile Char.isDigit).isEmpty && isJsonFraction (text.dropWhile Char.isDigit)

/-- The text is a number. -/
def isJsonNumber : List Char → Bool
  | '-' :: rest => isJsonMagnitude rest
  | text => isJsonMagnitude text

/-- A character that words and numbers are made of. -/
def isJsonAtomChar (c : Char) : Bool :=
  c.isAlphanum || c = '-' || c = '+' || c = '.'

/-- The tokens of a text, white space between them left out. -/
def jsonTokens? (text : List Char) : Option (List JsonToken) :=
  match text with
  | [] => some []
  | c :: rest =>
    if c = ' ' ∨ c = '\t' ∨ c = '\n' ∨ c = '\x0d' then jsonTokens? rest
    else if c = '"' then
      match h : scanJsonString .plain rest with
      | none => none
      | some (pieces, after) =>
        have : after.length < rest.length + 1 :=
          Nat.lt_succ_of_lt (length_scanJsonString h)
        let value := match joinPieces pieces with
          | some chars => Document.ofText (String.ofList chars)
          | none => .atom
        (jsonTokens? after).map (.string value :: ·)
    else
      match jsonMark? c with
      | some token => (jsonTokens? rest).map (token :: ·)
      | none =>
        let word := c :: rest.takeWhile isJsonAtomChar
        have : (rest.dropWhile isJsonAtomChar).length < rest.length + 1 :=
          Nat.lt_succ_of_le (List.dropWhile_suffix _).length_le
        if isJsonWord word || isJsonNumber word then
          (jsonTokens? (rest.dropWhile isJsonAtomChar)).map (.other :: ·)
        else none
termination_by text.length

/-- A container that is still open, its contents in reverse. -/
inductive JsonFrame where
  | sequence (items : List Document)
  /-- A mapping whose next value belongs to `key`. -/
  | mapping (entries : List (Document × Document)) (key : Document)

/-- What may come next, given the containers that are open. -/
inductive JsonState where
  /-- A value. -/
  | value (stack : List JsonFrame)
  /-- The first item of a sequence, or its end. -/
  | firstItem (stack : List JsonFrame)
  /-- A key, or the end of the mapping if it is empty so far. -/
  | key (stack : List JsonFrame) (entries : List (Document × Document))
  /-- The colon after a key. -/
  | colon (stack : List JsonFrame) (entries : List (Document × Document)) (key : Document)
  /-- A comma or the end, after an item of a sequence. -/
  | afterItem (stack : List JsonFrame) (items : List Document)
  /-- A comma or the end, after an entry of a mapping. -/
  | afterEntry (stack : List JsonFrame) (entries : List (Document × Document))
  /-- Nothing more. -/
  | finished (value : Document)

namespace JsonState

/-- A value is complete inside the open containers. -/
def put (done : Document) : List JsonFrame → JsonState
  | [] => .finished done
  | .sequence items :: stack => .afterItem stack (done :: items)
  | .mapping entries name :: stack => .afterEntry stack ((name, done) :: entries)

/-- A value starts inside the open containers. -/
def start (stack : List JsonFrame) : JsonToken → Option JsonState
  | .string s => some (put s stack)
  | .other => some (put .atom stack)
  | .openSequence => some (.firstItem stack)
  | .openMapping => some (.key stack [])
  | _ => none

/-- One token. -/
def read : JsonState → JsonToken → Option JsonState
  | .value stack, token => start stack token
  | .firstItem stack, .closeSequence => some (put (.sequence []) stack)
  | .firstItem stack, token => start (.sequence [] :: stack) token
  | .key stack [], .closeMapping => some (put (.mapping []) stack)
  | .key stack entries, .string s => some (.colon stack entries s)
  | .colon stack entries name, .colon => some (.value (.mapping entries name :: stack))
  | .afterItem stack items, .comma => some (.value (.sequence items :: stack))
  | .afterItem stack items, .closeSequence => some (put (.sequence items.reverse) stack)
  | .afterEntry stack entries, .comma => some (.key stack entries)
  | .afterEntry stack entries, .closeMapping => some (put (.mapping entries.reverse) stack)
  | _, _ => none

end JsonState

/-- The document that a JSON text writes. -/
def readJson? (text : String) : Option Document :=
  match (jsonTokens? text.toList).bind (·.foldlM JsonState.read (.value [])) with
  | some (.finished value) => some value
  | _ => none

end BorderCss
