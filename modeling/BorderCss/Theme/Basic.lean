import BorderCss.Text.Uppercase

/-!
# Themes

A `Theme` holds named colours, each a value or a nested scale of further names, and named radii.
`Theme.color?` walks the colour tree along a path of segments, at every level trying the remaining
segments as one camel-cased name before the next segment alone. Named entries are kept in the order
of their names, so that a theme has one representation and equality is structural.
-/

namespace BorderCss

/-- Entries with `name` set to `value`, kept in ascending order of names. -/
def insertEntry {α : Type} (name : String) (value : α) : List (String × α) → List (String × α)
  | [] => [(name, value)]
  | (other, v) :: rest =>
    if name = other then (name, value) :: rest
    else if name < other then (name, value) :: (other, v) :: rest
    else (other, v) :: insertEntry name value rest

/-- The entries that a list of writes leaves, the last write of a name deciding its value. -/
def entriesOfList {α : Type} (writes : List (String × α)) : List (String × α) :=
  writes.foldl (fun entries write => insertEntry write.1 write.2 entries) []

/-- A colour entry: a CSS value or a scale of named entries. -/
inductive ThemeNode where
  | value (css : String)
  | scale (entries : List (String × ThemeNode))
deriving Repr

namespace ThemeNode

instance : Inhabited ThemeNode := ⟨.scale []⟩

/-- The CSS value of an entry that is no scale. -/
def value? : ThemeNode → Option String
  | .value css => some css
  | .scale _ => none

/-- The entry of a scale. -/
def get? (key : String) : ThemeNode → Option ThemeNode
  | .value _ => none
  | .scale entries => entries.lookup key

mutual

/-- Structural equality. -/
def same : ThemeNode → ThemeNode → Bool
  | .value a, .value b => a == b
  | .scale a, .scale b => sameEntries a b
  | _, _ => false

/-- Structural equality of the entries of two scales. -/
def sameEntries : List (String × ThemeNode) → List (String × ThemeNode) → Bool
  | [], [] => true
  | (a, m) :: rest, (b, n) :: others => a == b && same m n && sameEntries rest others
  | _, _ => false

end

end ThemeNode

/-- Named colours and named radii. -/
structure Theme where
  colors : List (String × ThemeNode) := []
  radii : List (String × String) := []
deriving Repr

/-- A colour entry together with the names that lead to it. -/
structure ThemeHit where
  node : ThemeNode
  keys : List String

/-- A segment with its first character in upper case. -/
def capitalize : List Char → List Char
  | [] => []
  | c :: rest => upperCase c ++ rest

/-- The camel-cased name of several segments: all but the first are capitalised. -/
def camelName : List String → String
  | [] => ""
  | first :: rest => String.ofList (first.toList ++ rest.flatMap fun s => capitalize s.toList)

/-- The name of the entry that a scale keeps for its own bare name. -/
def defaultKey : String := "DEFAULT"

/-- The entry that a path leads to from a list of entries. A path of several segments is one
camel-cased name if there is such an entry; otherwise its first segment must name an entry, and a
scale if more segments follow. -/
def walk? (entries : List (String × ThemeNode)) : List String → Option ThemeHit
  | [] => none
  | [segment] => (entries.lookup segment).map (⟨·, [segment]⟩)
  | segment :: next :: rest =>
    let name := camelName (segment :: next :: rest)
    match entries.lookup name with
    | some node => some ⟨node, [name]⟩
    | none =>
      match entries.lookup segment with
      | some (.scale inner) =>
        (walk? inner (next :: rest)).map fun hit => ⟨hit.node, segment :: hit.keys⟩
      | _ => none

namespace Theme

instance : Inhabited Theme := ⟨{}⟩

/-- The theme with one radius set. -/
def setRadius (theme : Theme) (key value : String) : Theme :=
  { theme with radii := insertEntry key value theme.radii }

/-- The theme with one colour set. -/
def setColor (theme : Theme) (name : String) (node : ThemeNode) : Theme :=
  { theme with colors := insertEntry name node theme.colors }

/-- The radius of a name. -/
def radius? (theme : Theme) (key : String) : Option String :=
  theme.radii.lookup key

/-- The colour entry that a path leads to. -/
def color? (theme : Theme) (path : List String) : Option ThemeHit :=
  walk? theme.colors path

/-- The CSS value of a key path in a namespace. A scale stands for its default entry. -/
def value? (theme : Theme) (space : String) (path : List String) : Option String :=
  if space = "radius" then
    match path with
    | [key] => theme.radius? key
    | _ => none
  else if space = "colors" then
    (theme.color? path).bind fun hit =>
      match hit.node with
      | .value css => some css
      | .scale _ => (hit.node.get? defaultKey).bind ThemeNode.value?
  else none

/-- Two themes have the same colours and radii. -/
def same (a b : Theme) : Bool :=
  ThemeNode.sameEntries a.colors b.colors && a.radii == b.radii

end Theme

/-- The name of the custom property that carries a theme entry. -/
def themeVariable (space : String) (path : List String) : String :=
  "--" ++ space ++ String.join (path.map ("-" ++ ·))

end BorderCss
