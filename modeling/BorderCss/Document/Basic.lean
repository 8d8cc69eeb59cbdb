/-!
# Document trees

A `Document` is a structured text as far as a theme can tell values apart. Every scalar has a text;
besides, it may denote that string or something else, and it may be one that was left out.
-/

namespace BorderCss

/-- A value that is no collection. -/
structure Scalar where
  text : String
  /-- It denotes its text, and not a truth value, a number or nothing. -/
  isString : Bool := true
  /-- Nothing was written. -/
  isBlank : Bool := false
deriving DecidableEq, Repr

/-- A structured text. -/
inductive Document where
  | scalar (value : Scalar)
  /-- A value without a text. -/
  | atom
  | sequence (items : List Document)
  | mapping (entries : List (Document × Document))
  /-- A collection that is marked as being of a type of its own. -/
  | marked (content : Document)

namespace Document

/-- A string. -/
def ofText (text : String) : Document :=
  .scalar { text }

/-- A value that was left out. -/
def blank : Document :=
  .scalar { text := "", isString := false, isBlank := true }

instance : Inhabited Document := ⟨blank⟩

/-- The text of a scalar, whatever it denotes. -/
def text? : Document → Option String
  | .scalar value => some value.text
  | _ => none

/-- The string that a scalar denotes. -/
def string? : Document → Option String
  | .scalar value => if value.isString then some value.text else none
  | _ => none

/-- The entries of a mapping, of whatever type it is marked; a value that was left out has none. -/
def entries? : Document → Option (List (Document × Document))
  | .mapping entries => some entries
  | .marked content => content.entries?
  | .scalar value => if value.isBlank then some [] else none
  | _ => none

end Document

end BorderCss
