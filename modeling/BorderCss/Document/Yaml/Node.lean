import BorderCss.Document.Yaml.Token

/-!
# Nodes of a YAML text

A `Node` is a part of a document as it was written, with its tag and its anchor, and with aliases
left as they are. `Node.ofTokens?` reads the only document of a text off the tokens. Every grammar
rule takes the tokens that it accounts for and leaves the others; `fuel` bounds how many rules are
tried inside one another.
-/

namespace BorderCss.Yaml

/-- What stands ahead of a node. -/
structure Properties where
  /-- The slot that the node takes. -/
  anchor : Option Nat := none
  tag : Option TagBytes := none
deriving DecidableEq, Repr

/-- Neither an anchor nor a tag was written. -/
def Properties.isEmpty (properties : Properties) : Bool :=
  properties.anchor.isNone && properties.tag.isNone

/-- A part of a document. -/
inductive Node where
  /-- The node that took a slot. -/
  | alias (slot : Nat)
  /-- A scalar, written plainly or otherwise. -/
  | scalar (properties : Properties) (plain : Bool) (text : String)
  | sequence (properties : Properties) (items : List Node)
  | mapping (properties : Properties) (entries : List (Node × Node))

/-- A node that was left out. -/
def Node.empty : Node :=
  .scalar {} true ""

/-! ## Taking tokens -/

/-- A rule of the grammar, which takes tokens and may fail. -/
abbrev Grammar := StateT (List Token) Option

namespace Grammar

/-- The next token is one of these; it stays. -/
def sees (tokens : List Token) : Grammar Bool :=
  return (← get).head?.any tokens.contains

/-- The next token is taken if it is this one. -/
def takes (token : Token) : Grammar Bool := do
  if ← sees [token] then
    modify List.tail
    return true
  else
    return false

/-- This token must be next, and is taken. -/
def expect (token : Token) : Grammar Unit := do
  unless ← takes token do failure

/-- An anchor, if one is next. -/
def anchor : Grammar (Option Nat) := do
  match ← get with
  | .anchor slot :: rest =>
    set rest
    return some slot
  | _ => return none

/-- A tag, if one is next. Its handle must be known. -/
def tag (handles : TagHandles) : Grammar (Option TagBytes) := do
  match ← get with
  | .tag name :: rest =>
    set rest
    match name.resolve? handles with
    | some bytes => return some bytes
    | none => failure
  | _ => return none

/-- An anchor and a tag, in either order. -/
def properties (handles : TagHandles) : Grammar Properties := do
  match ← anchor with
  | some slot => return { anchor := slot, tag := ← tag handles }
  | none =>
    match ← tag handles with
    | some bytes => return { anchor := ← anchor, tag := some bytes }
    | none => return {}

/-! ## Nodes -/

mutual

/-- A node. A sequence in block layout may be `flush` with the key that it belongs to. Properties
alone are those of a scalar that was left out. -/
def node (handles : TagHandles) (flush : Bool) (fuel : Nat) : Grammar Node :=
  match fuel with
  | 0 => failure
  | fuel + 1 => do
    if let .alias slot :: rest := ← get then
      set rest
      return .alias slot
    let properties ← properties handles
    match ← get with
    | .scalar plain text :: rest =>
      set rest
      return .scalar properties plain text
    | .openSequence :: rest =>
      set rest
      return .sequence properties (← flowItems handles false fuel)
    | .openMapping :: rest =>
      set rest
      return .mapping properties (← flowEntries handles false fuel)
    | .blockSequence :: rest =>
      set rest
      return .sequence properties (← blockItems handles fuel)
    | .blockMapping :: rest =>
      set rest
      return .mapping properties (← blockEntries handles fuel)
    | .dash :: _ =>
      if flush then return .sequence properties (← flushItems handles fuel)
      else if properties.isEmpty then failure
      else return .scalar properties true ""
    | _ =>
      if properties.isEmpty then failure
      else return .scalar properties true ""

/-- A node that is left out if one of the tokens `ends` is next. -/
def optionalNode (handles : TagHandles) (flush : Bool) (ends : List Token) (fuel : Nat) :
    Grammar Node :=
  match fuel with
  | 0 => failure
  | fuel + 1 => do
    if ← sees ends then return .empty
    node handles flush fuel

/-- What follows a colon, if one is next. -/
def valueNode (handles : TagHandles) (flush : Bool) (ends : List Token) (fuel : Nat) :
    Grammar Node :=
  match fuel with
  | 0 => failure
  | fuel + 1 => do
    if ← takes .value then optionalNode handles flush ends fuel
    else return .empty

/-- The items of a sequence in block layout, and its end. -/
def blockItems (handles : TagHandles) (fuel : Nat) : Grammar (List Node) :=
  match fuel with
  | 0 => failure
  | fuel + 1 => do
    if ← takes .blockEnd then return []
    expect .dash
    let item ← optionalNode handles false [.dash, .blockEnd] fuel
    return item :: (← blockItems handles fuel)

/-- The items of a sequence that is flush with its key. It ends where no dash follows. -/
def flushItems (handles : TagHandles) (fuel : Nat) : Grammar (List Node) :=
  match fuel with
  | 0 => failure
  | fuel + 1 => do
    if ← takes .dash then
      let item ← optionalNode handles false [.dash, .key, .value, .blockEnd] fuel
      return item :: (← flushItems handles fuel)
    else return []

/-- The entries of a mapping in block layout, and its end. -/
def blockEntries (handles : TagHandles) (fuel : Nat) : Grammar (List (Node × Node)) :=
  match fuel with
  | 0 => failure
  | fuel + 1 => do
    if ← takes .blockEnd then return []
    expect .key
    let key ← optionalNode handles true [.key, .value, .blockEnd] fuel
    let value ← valueNode handles true [.key, .value, .blockEnd] fuel
    return (key, value) :: (← blockEntries handles fuel)

/-- The items of a sequence between brackets, and its end. Ahead of every item but the first stands
a comma, and one may stand ahead of the end. -/
def flowItems (handles : TagHandles) (comma : Bool) (fuel : Nat) : Grammar (List Node) :=
  match fuel with
  | 0 => failure
  | fuel + 1 => do
    if ← takes .closeSequence then return []
    if comma then
      expect .comma
      if ← takes .closeSequence then return []
    let item ←
      if ← takes .key then pair handles fuel
      else node handles false fuel
    return item :: (← flowItems handles true fuel)

/-- A mapping of one entry, which is an item of a sequence. What ends a key that is left out belongs
to that key. -/
def pair (handles : TagHandles) (fuel : Nat) : Grammar Node :=
  match fuel with
  | 0 => failure
  | fuel + 1 => do
    let key ←
      if ← sees [.value, .comma, .closeSequence] then
        modify List.tail
        pure Node.empty
      else node handles false fuel
    let value ← valueNode handles false [.comma, .closeSequence] fuel
    return .mapping {} [(key, value)]

/-- The entries of a mapping between brackets, and its end. Commas stand as in a sequence. What is
no key has no value. -/
def flowEntries (handles : TagHandles) (comma : Bool) (fuel : Nat) : Grammar (List (Node × Node)) :=
  match fuel with
  | 0 => failure
  | fuel + 1 => do
    if ← takes .closeMapping then return []
    if comma then
      expect .comma
      if ← takes .closeMapping then return []
    let entry ←
      if ← takes .key then
        let key ← optionalNode handles false [.value, .comma, .closeMapping] fuel
        pure (key, ← valueNode handles false [.comma, .closeMapping] fuel)
      else pure (← node handles false fuel, Node.empty)
    return entry :: (← flowEntries handles true fuel)

end

/-! ## Documents -/

/-- The handles that directives declare, besides the default ones. The version may be declared once,
as may each handle. -/
def directives? (versioned : Bool) (handles : TagHandles) :
    List Token → Option (TagHandles × List Token)
  | .version major minor :: rest =>
    if versioned ∨ major ≠ 1 ∨ (minor ≠ 1 ∧ minor ≠ 2) then none
    else directives? true handles rest
  | .handle name bytes :: rest =>
    if (handles.lookup name).isSome then none
    else directives? versioned ((name, bytes) :: handles) rest
  | rest => some (handles ++ defaultHandles, rest)

/-- A directive or a mark of a document. -/
def isBoundary : Token → Bool
  | .version _ _ | .handle _ _ | .documentStart | .documentEnd => true
  | _ => false

/-- The node of a document, which is left out if nothing stands in it. The end of a document cannot
come first. -/
def root (fuel : Nat) : Grammar Node := do
  match ← get with
  | [] => return .empty
  | first :: _ =>
    if isBoundary first then
      let some (handles, rest) := directives? false [] (← get) | failure
      set rest
      expect .documentStart
      if (← get).head?.all isBoundary then return .empty
      node handles false fuel
    else node defaultHandles false fuel

end Grammar

/-- The only node of a text that has one document. No rule tries more than three others before one
of them takes a token. -/
def Node.ofTokens? (tokens : List Token) : Option Node :=
  match Grammar.root (4 * tokens.length + 4) tokens with
  | some (node, rest) => if rest.all (· = .documentEnd) then some node else none
  | none => none

end BorderCss.Yaml
