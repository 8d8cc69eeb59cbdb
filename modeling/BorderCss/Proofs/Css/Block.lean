import BorderCss.Proofs.Css.Distinct

/-!
# Writes of new properties

A write of a property that a block does not have adds a declaration at its end
(`writeDeclaration_of_notMem`). So a list of writes with distinct properties, none of them in the
block, is the list of the declarations that it adds (`Block.declarations_setAll`), and a block that
is built from distinct properties declares what was written (`Block.declarations_ofList`). Whatever
is written, the properties are the distinct ones, each at the place of its first write
(`Block.properties_setAll`, `Block.properties_extend`).
-/

namespace BorderCss

theorem writeDeclaration_of_notMem {property value : String} {ds : List Declaration}
    (h : property ∉ ds.map Declaration.property) :
    writeDeclaration property value ds = ds ++ [⟨property, value⟩] := by
  induction ds with
  | nil => rfl
  | cons d rest ih =>
    rw [List.map_cons, List.mem_cons, not_or] at h
    rw [writeDeclaration, if_neg (Ne.symm h.1), ih h.2, List.cons_append]

/-- A write adds no declaration but its own. -/
theorem mem_writeDeclaration {property value : String} {ds : List Declaration} {d : Declaration}
    (h : d ∈ writeDeclaration property value ds) : d ∈ ds ∨ d = ⟨property, value⟩ := by
  induction ds with
  | nil => exact .inr (List.mem_singleton.1 h)
  | cons first rest ih =>
    rw [writeDeclaration] at h
    split at h
    · rcases List.mem_cons.1 h with rfl | h
      · exact .inr rfl
      · exact .inl (List.mem_cons_of_mem _ h)
    · rcases List.mem_cons.1 h with rfl | h
      · exact .inl List.mem_cons_self
      · exact (ih h).imp_left (List.mem_cons_of_mem _)

namespace Block

/-- A new property is declared last. -/
theorem declarations_set {block : Block} {property value : String}
    (h : property ∉ block.properties) :
    (block.set property value).declarations = block.declarations ++ [⟨property, value⟩] :=
  writeDeclaration_of_notMem h

/-- Writes of distinct new properties are declared in their order behind the others. -/
theorem declarations_setAll {block : Block} {ds : List Declaration}
    (h : ((block.declarations ++ ds).map Declaration.property).Nodup) :
    (block.setAll ds).declarations = block.declarations ++ ds := by
  induction ds generalizing block with
  | nil => exact (List.append_nil _).symm
  | cons d rest ih =>
    have hnew : d.property ∉ block.properties := by
      rw [List.map_append, List.nodup_append] at h
      exact fun hmem => h.2.2 _ hmem _ (List.mem_map_of_mem List.mem_cons_self) rfl
    have hset : (block.set d.property d.value).declarations = block.declarations ++ [d] :=
      declarations_set hnew
    rw [setAll, List.foldl_cons, ← setAll, ih, hset, List.append_assoc, List.singleton_append]
    rwa [hset, List.append_assoc, List.singleton_append]

/-- Writes add no declarations but their own. -/
theorem mem_declarations_setAll {block : Block} {ds : List Declaration} {d : Declaration}
    (h : d ∈ (block.setAll ds).declarations) : d ∈ block.declarations ∨ d ∈ ds := by
  induction ds generalizing block with
  | nil => exact .inl h
  | cons first rest ih =>
    rw [setAll, List.foldl_cons, ← setAll] at h
    rcases ih h with h | h
    · refine (mem_writeDeclaration h).imp_right ?_
      rintro rfl
      exact List.mem_cons_self
    · exact .inr (List.mem_cons_of_mem _ h)

/-- A block declares nothing but what was written. -/
theorem mem_declarations_ofList {ds : List Declaration} {d : Declaration}
    (h : d ∈ (ofList ds).declarations) : d ∈ ds :=
  (mem_declarations_setAll h).resolve_left List.not_mem_nil

/-- A block of distinct properties declares what was written. -/
theorem declarations_ofList {ds : List Declaration} (h : (ds.map Declaration.property).Nodup) :
    (ofList ds).declarations = ds := by
  show (empty.setAll ds).declarations = empty.declarations ++ ds
  exact declarations_setAll h

/-- A block that shares no property with another one is followed by its declarations. -/
theorem declarations_extend {block other : Block}
    (h : ((block.declarations ++ other.declarations).map Declaration.property).Nodup) :
    (block.extend other).declarations = block.declarations ++ other.declarations :=
  declarations_setAll h

theorem properties_set (block : Block) (property value : String) :
    (block.set property value).properties = addOnce block.properties property :=
  properties_writeDeclaration property value block.declarations

/-- Writes add their properties one after the other. -/
theorem properties_setAll (block : Block) (ds : List Declaration) :
    (block.setAll ds).properties =
      (block.properties ++ ds.map Declaration.property).eraseDups := by
  have hadd : (block.setAll ds).properties =
      (ds.map Declaration.property).foldl addOnce block.properties := by
    induction ds generalizing block with
    | nil => rfl
    | cons d rest ih =>
      rw [setAll, List.foldl_cons, ← setAll, ih, properties_set, List.map_cons, List.foldl_cons]
  rw [hadd]
  exact foldl_addOnce_of_nodup block.nodup _

theorem properties_extend (block other : Block) :
    (block.extend other).properties = (block.properties ++ other.properties).eraseDups :=
  block.properties_setAll other.declarations

end Block

end BorderCss
