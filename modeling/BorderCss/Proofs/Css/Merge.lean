import BorderCss.Proofs.Css.Lookup
import Mathlib.Data.List.Nodup

/-!
# The laws of merging

A styling is a block to which preludes were added (`Styling.foldl_addPrelude_ofBlock`), and it is
determined by its properties in order, their values and its preludes (`Styling.ext_get?`). A merge
has the distinct properties of both stylings (`properties_merge`), the values of the second one over
those of the first (`get?_merge`), and the distinct preludes of both (`preludes_merge`); all laws
follow from these three. The main statement is `Styling.merge_laws`.
-/

namespace BorderCss

namespace Block

/-- The declarations of a block are its properties with their values. -/
theorem declarations_eq_map (block : Block) : block.declarations =
    block.properties.map fun property => ⟨property, (block.get? property).getD ""⟩ := by
  have hsame : ∀ d ∈ block.declarations,
      (⟨d.property, (block.get? d.property).getD ""⟩ : Declaration) = d := by
    intro d hd
    rw [get?_eq_some_iff.2 hd, Option.getD_some]
  rw [properties, List.map_map]
  exact (List.map_id _).symm.trans (List.map_congr_left fun d hd => (hsame d hd).symm)

/-- A block is determined by its properties in order and their values. -/
theorem ext_get? {a b : Block} (hproperties : a.properties = b.properties)
    (hvalue : ∀ property, a.get? property = b.get? property) : a = b := by
  have hdeclarations : a.declarations = b.declarations := by
    rw [a.declarations_eq_map, b.declarations_eq_map, hproperties]
    simp only [hvalue]
  cases a
  cases b
  cases hdeclarations
  rfl

end Block

namespace Styling

variable {a b : Styling}

theorem ext_get? (hproperties : a.block.properties = b.block.properties)
    (hvalue : ∀ property, a.block.get? property = b.block.get? property)
    (hpreludes : a.preludes = b.preludes) : a = b := by
  have hblock : a.block = b.block := Block.ext_get? hproperties hvalue
  cases a
  cases b
  cases hblock
  cases hpreludes
  rfl

theorem properties_merge (a b : Styling) : (a.merge b).block.properties =
    (a.block.properties ++ b.block.properties).eraseDups := by
  rw [merge, block_foldl_addPrelude]
  exact a.block.properties_extend b.block

theorem properties_nodup (a : Styling) : a.block.properties.Nodup :=
  a.block.nodup

/-- Every styling is made of a block by adding preludes. -/
theorem foldl_addPrelude_ofBlock (a : Styling) :
    a.preludes.foldl addPrelude (ofBlock a.block) = a := by
  have hblock := block_foldl_addPrelude a.preludes (ofBlock a.block)
  refine ext_get? (by rw [hblock, ofBlock]) (fun property => by rw [hblock, ofBlock]) ?_
  rw [preludes_foldl_addPrelude]
  exact (foldl_addOnce_of_nodup List.nodup_nil _).trans (eraseDups_of_nodup a.preludes_nodup)

/-! ## A monoid in which every styling is idempotent -/

/-- The places of properties and preludes come from the first styling that has them, their values
from the last one, in whichever way three stylings are grouped. -/
theorem merge_assoc (a b c : Styling) : a.merge (b.merge c) = (a.merge b).merge c := by
  refine ext_get? ?_ (fun property => ?_) ?_
  · simp only [properties_merge, eraseDups_append_eraseDups, eraseDups_eraseDups_append,
      List.append_assoc]
  · simp only [get?_merge, Option.or_assoc]
  · simp only [preludes_merge, eraseDups_append_eraseDups, eraseDups_eraseDups_append,
      List.append_assoc]

theorem merge_empty (a : Styling) : a.merge empty = a := rfl

theorem empty_merge (a : Styling) : empty.merge a = a := by
  have hblock : Block.empty.extend a.block = a.block := by
    refine Block.ext_get? ?_ fun property => ?_
    · rw [Block.properties_extend]
      exact eraseDups_of_nodup a.properties_nodup
    · rw [Block.get?_extend]
      exact Option.or_none
  calc empty.merge a = a.preludes.foldl addPrelude (ofBlock (Block.empty.extend a.block)) := rfl
    _ = a.preludes.foldl addPrelude (ofBlock a.block) := by rw [hblock]
    _ = a := a.foldl_addPrelude_ofBlock

theorem merge_self (a : Styling) : a.merge a = a := by
  refine ext_get? ?_ (fun property => ?_) ?_
  · rw [properties_merge, eraseDups_append_of_subset (List.Subset.refl _),
      eraseDups_of_nodup a.properties_nodup]
  · rw [get?_merge, Option.or_self]
  · rw [preludes_merge, eraseDups_append_of_subset (List.Subset.refl _),
      eraseDups_of_nodup a.preludes_nodup]

/-! ## What a merge keeps -/

/-- The first properties of a merge are those of the first styling, in their order. -/
theorem properties_prefix_merge (a b : Styling) :
    a.block.properties <+: (a.merge b).block.properties := by
  have hprefix := eraseDups_prefix_append a.block.properties b.block.properties
  rwa [eraseDups_of_nodup a.properties_nodup, ← properties_merge] at hprefix

theorem mem_properties_merge {property : String} :
    property ∈ (a.merge b).block.properties ↔
      property ∈ a.block.properties ∨ property ∈ b.block.properties := by
  rw [properties_merge, List.mem_eraseDups, List.mem_append]

theorem nodup_append_properties (h : a.block.properties.Disjoint b.block.properties) :
    ((a.declarations ++ b.declarations).map Declaration.property).Nodup := by
  rw [List.map_append]
  exact a.properties_nodup.append b.properties_nodup h

/-- Stylings without a common property have the same declarations in whichever order they are
merged. -/
theorem declarations_merge_perm (h : a.block.properties.Disjoint b.block.properties) :
    (a.merge b).declarations.Perm (b.merge a).declarations := by
  have hother : b.block.properties.Disjoint a.block.properties := fun _ hb ha => h ha hb
  rw [declarations_merge (nodup_append_properties h),
    declarations_merge (nodup_append_properties hother)]
  exact List.perm_append_comm

theorem preludes_merge_perm (a b : Styling) :
    (a.merge b).preludes.Perm (b.merge a).preludes := by
  rw [preludes_merge, preludes_merge]
  exact perm_eraseDups List.perm_append_comm

/-- Merging is associative and idempotent, and the styling of nothing leaves any other alone on both
sides. A merge keeps the properties of the first styling at their places, and loses no property of
either. If the two share no property, their merges in both orders have the same declarations and the
same preludes. -/
theorem merge_laws (a b c : Styling) :
    a.merge (b.merge c) = (a.merge b).merge c ∧
    empty.merge a = a ∧ a.merge empty = a ∧ a.merge a = a ∧
    a.block.properties <+: (a.merge b).block.properties ∧
    (∀ property, property ∈ (a.merge b).block.properties ↔
      property ∈ a.block.properties ∨ property ∈ b.block.properties) ∧
    (a.block.properties.Disjoint b.block.properties →
      (a.merge b).declarations.Perm (b.merge a).declarations ∧
      (a.merge b).preludes.Perm (b.merge a).preludes) :=
  ⟨merge_assoc a b c, empty_merge a, merge_empty a, merge_self a, properties_prefix_merge a b,
    fun _ => mem_properties_merge, fun h => ⟨declarations_merge_perm h, preludes_merge_perm a b⟩⟩

/-- Two stylings that share a prelude and no property: their merges differ in order alone. -/
theorem merge_laws_disjoint :
    let a := (ofBlock (.ofList [⟨"color", "red"⟩, ⟨"width", "1px"⟩])).addPrelude "@property --a"
    let b := ((ofBlock (.ofList [⟨"style", "solid"⟩])).addPrelude "@property --b").addPrelude
      "@property --a"
    a.block.properties.Disjoint b.block.properties ∧ a.merge b ≠ b.merge a ∧
      (a.merge b).declarations.Perm (b.merge a).declarations ∧
      (a.merge b).preludes.Perm (b.merge a).preludes := by
  intro a b
  have hdisjoint : a.block.properties.Disjoint b.block.properties := by
    have hnot : ∀ property ∈ a.block.properties, property ∉ b.block.properties := by decide
    exact fun property ha hb => hnot property ha hb
  obtain ⟨-, -, -, -, -, -, hperm⟩ := merge_laws a b empty
  exact ⟨hdisjoint, by decide, hperm hdisjoint⟩

end Styling

end BorderCss
