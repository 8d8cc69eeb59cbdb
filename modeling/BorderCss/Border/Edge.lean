/-!
# Edges and corners of a border

`edgesOf?` expands the side part of a token into the edges it governs and `cornersOf?` the corner
part into corners, physical or logical. An edge or corner is named by the suffix it gives to a
property; the empty part means all of them, which is the property without a suffix.
-/

namespace BorderCss

/-- An edge that a border property may be limited to. -/
inductive Edge where
  | all
  | left
  | right
  | top
  | bottom
  | inlineStart
  | inlineEnd
  | blockStart
  | blockEnd
deriving DecidableEq, Repr

/-- The suffix that limits a property to an edge. -/
def Edge.suffix : Edge → String
  | .all => ""
  | .left => "-left"
  | .right => "-right"
  | .top => "-top"
  | .bottom => "-bottom"
  | .inlineStart => "-inline-start"
  | .inlineEnd => "-inline-end"
  | .blockStart => "-block-start"
  | .blockEnd => "-block-end"

/-- The side parts of tokens and the edges they stand for, in the order of output. -/
def edgeTable : List (String × List Edge) := [
  ("", [.all]),
  ("l", [.left]),
  ("r", [.right]),
  ("t", [.top]),
  ("b", [.bottom]),
  ("s", [.inlineStart]),
  ("e", [.inlineEnd]),
  ("x", [.left, .right]),
  ("y", [.top, .bottom]),
  ("bs", [.blockStart]),
  ("be", [.blockEnd]),
  ("is", [.inlineStart]),
  ("ie", [.inlineEnd]),
  ("block", [.blockStart, .blockEnd]),
  ("inline", [.inlineStart, .inlineEnd])]

/-- The edges of a side part. -/
def edgesOf? (side : String) : Option (List Edge) :=
  edgeTable.lookup side

/-- A corner that a radius may be limited to. -/
inductive Corner where
  | all
  | topLeft
  | topRight
  | bottomLeft
  | bottomRight
  | startStart
  | startEnd
  | endStart
  | endEnd
deriving DecidableEq, Repr

/-- The suffix that limits a radius to a corner. -/
def Corner.suffix : Corner → String
  | .all => ""
  | .topLeft => "-top-left"
  | .topRight => "-top-right"
  | .bottomLeft => "-bottom-left"
  | .bottomRight => "-bottom-right"
  | .startStart => "-start-start"
  | .startEnd => "-start-end"
  | .endStart => "-end-start"
  | .endEnd => "-end-end"

/-- The corner parts of tokens and the corners they stand for, in the order of output. -/
def cornerTable : List (String × List Corner) := [
  ("", [.all]),
  ("l", [.topLeft, .bottomLeft]),
  ("r", [.topRight, .bottomRight]),
  ("t", [.topLeft, .topRight]),
  ("b", [.bottomLeft, .bottomRight]),
  ("tl", [.topLeft]),
  ("lt", [.topLeft]),
  ("tr", [.topRight]),
  ("rt", [.topRight]),
  ("bl", [.bottomLeft]),
  ("lb", [.bottomLeft]),
  ("br", [.bottomRight]),
  ("rb", [.bottomRight]),
  ("bs", [.startStart, .startEnd]),
  ("be", [.endStart, .endEnd]),
  ("s", [.endStart, .startStart]),
  ("is", [.endStart, .startStart]),
  ("e", [.startEnd, .endEnd]),
  ("ie", [.startEnd, .endEnd]),
  ("ss", [.startStart]),
  ("bs-is", [.startStart]),
  ("is-bs", [.startStart]),
  ("se", [.startEnd]),
  ("bs-ie", [.startEnd]),
  ("ie-bs", [.startEnd]),
  ("es", [.endStart]),
  ("be-is", [.endStart]),
  ("is-be", [.endStart]),
  ("ee", [.endEnd]),
  ("be-ie", [.endEnd]),
  ("ie-be", [.endEnd])]

/-- The corners of a corner part. -/
def cornersOf? (corner : String) : Option (List Corner) :=
  cornerTable.lookup corner

end BorderCss
