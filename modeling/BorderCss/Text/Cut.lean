/-!
# Cutting text

Text is cut as a list of characters. `cutStart?` and `cutEnd?` remove a fixed piece from an end,
`cutFirst?` cuts at the first separator, `pieces` at every one, and `occursIn` looks for a piece
anywhere.
-/

namespace BorderCss

/-- `text` without the leading `piece`, when it starts with it. -/
def cutStart? (piece text : List Char) : Option (List Char) :=
  piece.isPrefixOf? text

/-- `text` without the trailing `piece`, when it ends with it. -/
def cutEnd? (piece text : List Char) : Option (List Char) :=
  piece.isSuffixOf? text

/-- What stands before and after the first `separator`. -/
def cutFirst? (separator : Char) : List Char → Option (List Char × List Char)
  | [] => none
  | c :: rest =>
    if c = separator then some ([], rest)
    else (cutFirst? separator rest).map fun (before, after) => (c :: before, after)

/-- The pieces between the separators, one more than there are separators. -/
def pieces (separator : Char) : List Char → List (List Char)
  | [] => [[]]
  | c :: rest =>
    if c = separator then [] :: pieces separator rest
    else
      match pieces separator rest with
      | [] => [[c]]
      | piece :: others => (c :: piece) :: others

/-- `piece` stands somewhere in the text. -/
def occursIn (piece : List Char) : List Char → Bool
  | [] => piece.isEmpty
  | c :: rest => piece.isPrefixOf (c :: rest) || occursIn piece rest

/-- The text is not empty and stays on one line. -/
def isLine (text : List Char) : Bool :=
  !text.isEmpty && !text.contains '\n'

end BorderCss
