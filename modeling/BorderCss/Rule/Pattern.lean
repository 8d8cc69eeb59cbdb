import BorderCss.Text.Cut

/-!
# Token patterns

A token is a stem, then possibly a hyphen and a side, then possibly a hyphen, a lead and a body:
`border-x-width-2` has the stem `border`, the side `x`, the lead `width-` and the body `2`. A
`Pattern` says which stems, sides and leads it takes, all of them from finite lists, and
`Pattern.captures?` finds the side and the body of a token. `Pattern.expression` is the same pattern
as a regular expression, for display.
-/

namespace BorderCss

/-- The groups that a pattern captured, counted from one. A group may have taken no part. -/
structure Captures where
  groups : List (Option String)
deriving DecidableEq, Repr

namespace Captures

/-- The text of a group. -/
def get? (captures : Captures) : Nat → Option String
  | 0 => none
  | index + 1 => (captures.groups[index]?).join

/-- The text of a group, or `fallback` if the group took no part or is empty. -/
def getD (captures : Captures) (index : Nat) (fallback : String) : String :=
  match captures.get? index with
  | some text => if text = "" then fallback else text
  | none => fallback

end Captures

/-- The words that a token may start with. -/
structure StemClass where
  words : List String
  expression : String
deriving DecidableEq, Repr

/-- The words that may stand in the place of the side. The empty word, which is a class of its own,
is the side left out together with its hyphen. -/
structure SideClass where
  words : List String
  expression : String
deriving DecidableEq, Repr

/-- What may follow the side: one of the leads, in order of preference, and a body. `bare` tokens
may end with the side. The expression depends on whether a side is written. -/
structure TailClass where
  leads : List String
  bare : Bool
  unsided : String
  sided : String
deriving DecidableEq, Repr

/-- The text after a side, given that the side is not empty; a side left out leaves the text as it
is. -/
def cutSide? (side : String) (text : List Char) : Option (List Char) :=
  if side = "" then some text else cutStart? ('-' :: side.toList) text

/-- The body of a tail: none when a bare tail is missing. The body is a nonempty text on one
line. -/
def TailClass.body? (tail : TailClass) (text : List Char) : Option (Option (List Char)) :=
  match text with
  | [] => if tail.bare then some none else none
  | '-' :: rest =>
    tail.leads.findSome? fun lead =>
      match cutStart? lead.toList rest with
      | some body => if isLine body then some (some body) else none
      | none => none
  | _ => none

/-- The tokens that a rule looks at. -/
structure Pattern where
  stem : StemClass
  side : SideClass
  tail : TailClass
deriving DecidableEq, Repr

namespace Pattern

/-- The side and the body of a token that fits the pattern. -/
def split? (pattern : Pattern) (token : List Char) : Option (String × Option (List Char)) :=
  pattern.stem.words.findSome? fun stem =>
    (cutStart? stem.toList token).bind fun rest =>
      pattern.side.words.findSome? fun side =>
        (cutSide? side rest).bind fun rest =>
          (pattern.tail.body? rest).map (side, ·)

/-- The captures of a token that fits the pattern: its side and its body. -/
def captures? (pattern : Pattern) (token : String) : Option Captures :=
  (pattern.split? token.toList).map fun (side, body) => ⟨[some side, body.map String.ofList]⟩

/-- The token fits the pattern. -/
def fits (pattern : Pattern) (token : String) : Bool :=
  (pattern.captures? token).isSome

/-- The pattern as a regular expression. -/
def expression (pattern : Pattern) : String :=
  "^" ++ pattern.stem.expression ++
    (if pattern.side.words = [""] then pattern.tail.unsided
      else "-" ++ pattern.side.expression ++ pattern.tail.sided) ++ "$"

end Pattern

end BorderCss
