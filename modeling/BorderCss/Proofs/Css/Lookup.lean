import BorderCss.Css.Styling
import BorderCss.Proofs.Css.Styling

/-!
# Values of properties

The last write of a property decides its value. A block looks a property up among its declarations,
which are the only ones with that property (`Block.get?_eq_some_iff`); one write changes the value
of one property (`Block.get?_set`), of several writes the last one of the property counts
(`Block.get?_setAll`), and a block that another one is written over keeps the values of the
properties that the other one lacks (`Block.get?_extend`, `Styling.get?_merge`).
-/

namespace BorderCss

variable {property other value : String} {ds : List Declaration}

/-- The value that the first declaration of a property gives it. -/
def declared? (property : String) (ds : List Declaration) : Option String :=
  (ds.find? (·.property == property)).map (·.value)

theorem declared?_cons (d : Declaration) (rest : List Declaration) :
    declared? property (d :: rest) =
      if d.property = property then some d.value else declared? property rest := by
  unfold declared?
  rw [List.find?_cons]
  by_cases h : d.property = property
  · rw [beq_iff_eq.2 h, if_pos h]
    rfl
  · rw [beq_false_of_ne h, if_neg h]

theorem declared?_append (ds others : List Declaration) :
    declared? property (ds ++ others) = (declared? property ds).or (declared? property others) := by
  unfold declared?
  rw [List.find?_append, Option.map_or]

theorem declared?_eq_none (h : property ∉ ds.map Declaration.property) :
    declared? property ds = none := by
  induction ds with
  | nil => rfl
  | cons d rest ih =>
    rw [List.map_cons, List.mem_cons, not_or] at h
    rw [declared?_cons, if_neg (Ne.symm h.1), ih h.2]

/-- Of distinct declarations, the one of a property is the first. -/
theorem declared?_eq_some_iff (h : (ds.map Declaration.property).Nodup) :
    declared? property ds = some value ↔ ⟨property, value⟩ ∈ ds := by
  induction ds with
  | nil => exact ⟨nofun, nofun⟩
  | cons d rest ih =>
    rw [List.map_cons, List.nodup_cons] at h
    rw [declared?_cons, List.mem_cons, ← ih h.2]
    by_cases hd : d.property = property
    · obtain rfl := hd
      have hrest : declared? d.property rest = none := declared?_eq_none h.1
      rw [if_pos rfl, hrest]
      cases d
      simp [eq_comm]
    · rw [if_neg hd, or_iff_right]
      rintro rfl
      exact hd rfl

/-- Distinct declarations give a property the same value in the opposite order. -/
theorem declared?_reverse (h : (ds.map Declaration.property).Nodup) :
    declared? property ds.reverse = declared? property ds := by
  have hreverse : (ds.reverse.map Declaration.property).Nodup :=
    (ds.reverse_perm.map _).nodup_iff.2 h
  refine Option.ext fun value => ?_
  rw [declared?_eq_some_iff h, declared?_eq_some_iff hreverse, List.mem_reverse]

/-- A write gives its property the value and leaves the others alone. -/
theorem declared?_writeDeclaration (property value other : String) (ds : List Declaration) :
    declared? other (writeDeclaration property value ds) =
      if property = other then some value else declared? other ds := by
  induction ds with
  | nil => rw [writeDeclaration, declared?_cons]
  | cons d rest ih =>
    unfold writeDeclaration
    by_cases h : d.property = property
    · rw [if_pos h, declared?_cons, declared?_cons, h]
      split <;> rfl
    · rw [if_neg h, declared?_cons, declared?_cons, ih]
      by_cases hother : property = other
      · rw [if_neg (hother ▸ h), if_pos hother, if_pos hother]
      · rw [if_neg hother, if_neg hother]

namespace Block

variable {block : Block}

theorem get?_eq_declared? (block : Block) (property : String) :
    block.get? property = declared? property block.declarations := rfl

/-- A property is looked up to the value it is declared with. -/
theorem get?_eq_some_iff : block.get? property = some value ↔
    ⟨property, value⟩ ∈ block.declarations := by
  rw [get?_eq_declared?]
  exact declared?_eq_some_iff block.nodup

theorem get?_eq_none (h : property ∉ block.properties) : block.get? property = none := by
  rw [get?_eq_declared?]
  exact declared?_eq_none h

theorem get?_set (block : Block) (property value other : String) :
    (block.set property value).get? other =
      if property = other then some value else block.get? other := by
  rw [get?_eq_declared?, get?_eq_declared?]
  exact declared?_writeDeclaration property value other block.declarations

/-- Of several writes, the last one of the property decides its value. -/
theorem get?_setAll (block : Block) (ds : List Declaration) (property : String) :
    (block.setAll ds).get? property =
      (declared? property ds.reverse).or (block.get? property) := by
  induction ds generalizing block with
  | nil => rfl
  | cons d rest ih =>
    rw [setAll, List.foldl_cons, ← setAll, ih, get?_set, List.reverse_cons, declared?_append,
      declared?_cons, Option.or_assoc]
    by_cases h : d.property = property
    · rw [if_pos h, if_pos h, Option.some_or]
    · rw [if_neg h, if_neg h]
      rfl

/-- A property that the second block has is set to its value there. -/
theorem get?_extend (block other : Block) (property : String) :
    (block.extend other).get? property = (other.get? property).or (block.get? property) := by
  rw [extend, get?_setAll, declared?_reverse other.nodup, ← get?_eq_declared?]

end Block

/-- A merge takes the value of a property from the second styling, if that has one. -/
theorem Styling.get?_merge (styling other : Styling) (property : String) :
    (styling.merge other).block.get? property =
      (other.block.get? property).or (styling.block.get? property) := by
  rw [merge, block_foldl_addPrelude]
  exact styling.block.get?_extend other.block property

end BorderCss
