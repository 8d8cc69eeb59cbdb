import BorderCss.Document.Yaml.Node
import BorderCss.Document.Yaml.Schema

/-!
# Documents of YAML texts

An alias stands for the node that took its slot, and of several such nodes for the last one in the
document, even if it comes after the alias. `Expansion.document` puts the nodes in place of the
aliases. Since a node may mention itself so, or a short text stand for a very long one, collections
are nested to a limited depth and a limited number of aliases is followed. `readYaml?` reads a text.
-/

namespace BorderCss.Yaml

mutual

/-- The node itself and the nodes in it, in the order in which they start. -/
def Node.nodes : Node → List Node
  | .sequence properties items => .sequence properties items :: itemNodes items
  | .mapping properties entries => .mapping properties entries :: entryNodes entries
  | node => [node]

/-- The nodes of items. -/
def itemNodes : List Node → List Node
  | [] => []
  | item :: items => item.nodes ++ itemNodes items

/-- The nodes of entries. -/
def entryNodes : List (Node × Node) → List Node
  | [] => []
  | (key, value) :: entries => key.nodes ++ value.nodes ++ entryNodes entries

end

/-- The slot that a node takes. -/
def Node.slot? : Node → Option Nat
  | .alias _ => none
  | .scalar properties _ _ | .sequence properties _ | .mapping properties _ => properties.anchor

/-- What a node counts for, apart from the nodes in it: one, or two for the start and the end of a
collection. -/
def Node.weight : Node → Nat
  | .alias _ | .scalar _ _ _ => 1
  | .sequence _ _ | .mapping _ _ => 2

/-- The nodes of the slots, the last one to take a slot first. -/
abbrev Slots := List (Nat × Node)

/-- The slots that a node and the nodes in it take. -/
def Node.slots (node : Node) : Slots :=
  (node.nodes.filterMap fun node => node.slot?.map (·, node)).reverse

/-- A computation that may follow as many aliases as its state says. -/
abbrev Expansion := StateT Nat Option

namespace Expansion

/-- The node that an alias stands for; any other node is itself. -/
def target (slots : Slots) : Node → Expansion Node
  | .alias slot => do
    match ← get, slots.lookup slot with
    | left + 1, some node =>
      set left
      return node
    | _, _ => failure
  | node => return node

/-- A collection with a tag. -/
def collection (properties : Properties) (content : Document) : Document :=
  if tagSense properties.tag = .own then .marked content else content

/-- The document of a node in which collections are nested at most `depth` deep. -/
def document (slots : Slots) (depth : Nat) (node : Node) : Expansion Document := do
  match ← target slots node, depth with
  | .scalar properties plain text, _ => return .scalar (scalarValue properties.tag plain text)
  | .sequence properties items, depth + 1 =>
    return collection properties (.sequence (← items.mapM (document slots depth)))
  | .mapping properties entries, depth + 1 =>
    let entries ← entries.mapM fun (key, value) => do
      return (← document slots depth key, ← document slots depth value)
    return collection properties (.mapping entries)
  | _, _ => failure

/-- The document of a root node. If it is a mapping then only the values of the given `fields` are
read; the others are left out of account. -/
def root (slots : Slots) (fields : List String) (depth : Nat) (node : Node) : Expansion Document :=
  match node, depth with
  | .mapping properties entries, depth + 1 => do
    let entries ← entries.mapM fun (key, value) => do
      let name ← document slots depth key
      if name.text?.any fields.contains then return (name, ← document slots depth value)
      else return (name, .atom)
    return collection properties (.mapping entries)
  | node, depth => document slots depth node

end Expansion

/-- How many aliases may be followed for every scalar, alias, start and end of a collection. -/
def aliasLimit : Nat := 100

/-- The document that a YAML text writes. Collections may be nested `depth` deep. If the document is
a mapping then only the values of the given `fields` are read. -/
def readYaml? (fields : List String) (depth : Nat) (text : String) : Option Document := do
  let node ← Node.ofTokens? (← tokens? text)
  let limit := aliasLimit * (node.nodes.map Node.weight).foldl (· + ·) 0
  (Expansion.root node.slots fields depth node).run' limit

end BorderCss.Yaml
