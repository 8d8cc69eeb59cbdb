import BorderCss.Css.Block

/-!
# Stylings

What a token stands for: a `Styling` is a block of declarations together with its preludes, texts
such as property registrations that must stand once ahead of the rules. `Styling.merge` writes the
second block over the first and unites the preludes in the order they were first seen.
-/

namespace BorderCss

/-- `items` with `item` added last unless it is there. -/
def addOnce (items : List String) (item : String) : List String :=
  if item ∈ items then items else items ++ [item]

/-- Adding once keeps a list free of duplicates. -/
theorem nodup_addOnce {items : List String} (item : String) (h : items.Nodup) :
    (addOnce items item).Nodup := by
  unfold addOnce
  split
  · exact h
  · next hn =>
    refine List.nodup_append.2 ⟨h, by simp, ?_⟩
    intro a ha b hb hab
    simp only [List.mem_singleton] at hb
    exact hn (hb ▸ hab ▸ ha)

/-- A block of declarations and the distinct preludes it relies on. -/
structure Styling where
  block : Block
  preludes : List String
  preludes_nodup : preludes.Nodup
deriving DecidableEq, Repr

namespace Styling

/-- A block without preludes. -/
def ofBlock (block : Block) : Styling := ⟨block, [], by simp⟩

/-- The styling of nothing. -/
def empty : Styling := ofBlock .empty

instance : Inhabited Styling := ⟨empty⟩

/-- The declarations in order. -/
def declarations (styling : Styling) : List Declaration :=
  styling.block.declarations

/-- `styling` with one more prelude, unless it has it. -/
def addPrelude (styling : Styling) (prelude : String) : Styling where
  block := styling.block
  preludes := addOnce styling.preludes prelude
  preludes_nodup := nodup_addOnce prelude styling.preludes_nodup

/-- `styling` overwritten and extended by `other`. -/
def merge (styling other : Styling) : Styling :=
  other.preludes.foldl addPrelude { styling with block := styling.block.extend other.block }

/-- The preludes, a line each, and then the rule for `selector`. -/
def toCss (styling : Styling) (selector : String) : String :=
  String.join (styling.preludes.map (· ++ "\n")) ++ selector ++ "\x7b" ++ styling.block.text ++
    "\x7d"

end Styling

end BorderCss
