import BorderCss.Proofs.Css.Lookup

/-!
# Histories of a block

A block is built by writes: one by one, from a list, or from the declarations of a block that was
built in the same way (`BlockHistory`). What it is in the end is told by the writes alone, those to
the blocks it was extended by included (`Block.Tells`): its properties stand in the order of their
first writes, and the last write of a property decides its value. A write, a list of writes and an
extension all keep this (`Block.Tells.setAll`, `Block.Tells.extend`). The main statement is
`BlockHistory.block_tells`.
-/

namespace BorderCss

/-- A way to build a block. A single write may be made in place or on the block that is handed on,
which comes to the same. -/
inductive BlockHistory where
  | fresh
  | ofList (declarations : List Declaration)
  | set (before : BlockHistory) (property value : String)
  | extend (before other : BlockHistory)
deriving Repr

namespace BlockHistory

/-- The block in the end. -/
def block : BlockHistory → Block
  | fresh => .empty
  | ofList declarations => .ofList declarations
  | set before property value => before.block.set property value
  | extend before other => before.block.extend other.block

/-- The writes in the order in which they reach the block. An extension brings along all writes to
the other block, also those that were overwritten there. -/
def writes : BlockHistory → List Declaration
  | fresh => []
  | ofList declarations => declarations
  | set before property value => before.writes ++ [⟨property, value⟩]
  | extend before other => before.writes ++ other.writes

end BlockHistory

variable {property value : String} {ds : List Declaration}

/-! ## Last writes -/

/-- The first declaration of a property is one in front of which the property is not declared. -/
theorem declared?_eq_some_iff_append : declared? property ds = some value ↔
    ∃ before after, ds = before ++ ⟨property, value⟩ :: after ∧
      property ∉ before.map Declaration.property := by
  unfold declared?
  rw [Option.map_eq_some_iff]
  constructor
  · rintro ⟨d, hfind, rfl⟩
    obtain ⟨hd, before, after, rfl, hbefore⟩ := List.find?_eq_some_iff_append.1 hfind
    obtain rfl : d.property = property := by simpa using hd
    refine ⟨before, after, rfl, fun hmem => ?_⟩
    obtain ⟨other, hother, hproperty⟩ := List.mem_map.1 hmem
    simpa [hproperty] using hbefore other hother
  · rintro ⟨before, after, rfl, hbefore⟩
    refine ⟨_, List.find?_eq_some_iff_append.2 ⟨?_, before, after, rfl, fun d hd => ?_⟩, rfl⟩
    · exact beq_self_eq_true property
    · have hne : d.property ≠ property := fun h => hbefore (h ▸ List.mem_map_of_mem hd)
      simpa using hne

/-- The last declaration of a property is one behind which the property is not declared. -/
theorem declared?_reverse_eq_some_iff : declared? property ds.reverse = some value ↔
    ∃ before after, ds = before ++ ⟨property, value⟩ :: after ∧
      property ∉ after.map Declaration.property := by
  rw [declared?_eq_some_iff_append]
  constructor
  · rintro ⟨after, before, h, hafter⟩
    refine ⟨before.reverse, after.reverse, ?_, by simpa using hafter⟩
    rw [← List.reverse_reverse ds, h]
    simp
  · rintro ⟨before, after, rfl, hafter⟩
    exact ⟨after.reverse, before.reverse, by simp, by simpa using hafter⟩

theorem declared?_eq_none_iff : declared? property ds = none ↔
    property ∉ ds.map Declaration.property := by
  refine ⟨fun h hmem => ?_, declared?_eq_none⟩
  obtain ⟨d, hd, rfl⟩ := List.mem_map.1 hmem
  rw [declared?, Option.map_eq_none_iff, List.find?_eq_none] at h
  exact h d hd (beq_self_eq_true _)

/-! ## What the writes tell -/

namespace Block

/-- The block is what the writes tell: its properties are theirs, in the order of the first writes,
and have the values of the last ones. -/
structure Tells (writes : List Declaration) (block : Block) : Prop where
  properties : block.properties = (writes.map Declaration.property).eraseDups
  value : ∀ property, block.get? property = declared? property writes.reverse

variable {block other : Block} {writes others : List Declaration}

theorem tells_empty : Tells [] empty :=
  ⟨rfl, fun _ => rfl⟩

/-- More writes tell what becomes of the block. -/
theorem Tells.setAll (h : Tells writes block) (ds : List Declaration) :
    Tells (writes ++ ds) (block.setAll ds) where
  properties := by
    rw [properties_setAll, h.properties, eraseDups_eraseDups_append, List.map_append]
  value property := by
    rw [get?_setAll, h.value, List.reverse_append, declared?_append]

/-- An extension comes to all writes to the other block, though it makes only those of them that
were left there. -/
theorem Tells.extend (h : Tells writes block) (hother : Tells others other) :
    Tells (writes ++ others) (block.extend other) where
  properties := by
    rw [properties_extend, h.properties, hother.properties, eraseDups_eraseDups_append,
      eraseDups_append_eraseDups, List.map_append]
  value property := by
    rw [get?_extend, h.value, hother.value, List.reverse_append, declared?_append]

end Block

namespace BlockHistory

/-- Whatever a block was built by, it is what the writes tell. -/
theorem tells (history : BlockHistory) : history.block.Tells history.writes := by
  induction history with
  | fresh => exact Block.tells_empty
  | ofList declarations => exact Block.tells_empty.setAll declarations
  | set before property value ih => exact ih.setAll [⟨property, value⟩]
  | extend before other ihbefore ihother => exact ihbefore.extend ihother

/-- A block has the properties that were written to it, each once and in the order of their first
writes. A property has the value of the last write to it, and none if it was never written. -/
theorem block_tells (history : BlockHistory) :
    history.block.properties.Nodup ∧
    (∀ property, property ∈ history.block.properties ↔
      property ∈ history.writes.map Declaration.property) ∧
    (history.block.properties.Pairwise fun earlier later =>
      (history.writes.map Declaration.property).idxOf earlier <
        (history.writes.map Declaration.property).idxOf later) ∧
    (∀ property value, history.block.get? property = some value ↔
      ∃ before after, history.writes = before ++ ⟨property, value⟩ :: after ∧
        property ∉ after.map Declaration.property) ∧
    ∀ property, history.block.get? property = none ↔
      property ∉ history.writes.map Declaration.property := by
  obtain ⟨hproperties, hvalue⟩ := history.tells
  refine ⟨history.block.nodup, fun property => ?_, ?_, fun property value => ?_, fun property => ?_⟩
  · rw [hproperties, List.mem_eraseDups]
  · rw [hproperties]
    exact pairwise_idxOf_eraseDups _
  · rw [hvalue, declared?_reverse_eq_some_iff]
  · rw [hvalue, declared?_eq_none_iff, List.map_reverse, List.mem_reverse]

/-- A property that is written first to a block and last to the one it is extended by. -/
example :
    let block : BlockHistory := .ofList [⟨"width", "1px"⟩, ⟨"color", "red"⟩]
    let other : BlockHistory := .set (.ofList [⟨"style", "solid"⟩, ⟨"width", "2px"⟩]) "style" "none"
    (block.extend other).block.declarations =
      [⟨"width", "2px"⟩, ⟨"color", "red"⟩, ⟨"style", "none"⟩] := by
  decide

end BlockHistory

end BorderCss
