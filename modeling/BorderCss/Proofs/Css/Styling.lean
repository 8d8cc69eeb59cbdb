import BorderCss.Proofs.Css.Block

/-!
# Merging stylings of different properties

Stylings that share no property are merged by putting their declarations one after the other, and a
prelude that all of them rely on stands once. `Styling.declarations_foldl_merge` and
`Styling.preludes_foldl_merge` say so for a whole list of stylings, in the order of the list.
-/

namespace BorderCss

namespace Styling

variable {styling other : Styling}

/-- Preludes leave the block alone. -/
theorem block_foldl_addPrelude (preludes : List String) (styling : Styling) :
    (preludes.foldl addPrelude styling).block = styling.block := by
  induction preludes generalizing styling with
  | nil => rfl
  | cons prelude rest ih => exact ih _

theorem preludes_foldl_addPrelude (preludes : List String) (styling : Styling) :
    (preludes.foldl addPrelude styling).preludes = preludes.foldl addOnce styling.preludes := by
  induction preludes generalizing styling with
  | nil => rfl
  | cons prelude rest ih => exact ih _

theorem declarations_merge
    (h : ((styling.declarations ++ other.declarations).map Declaration.property).Nodup) :
    (styling.merge other).declarations = styling.declarations ++ other.declarations := by
  rw [merge, Styling.declarations, block_foldl_addPrelude]
  exact Block.declarations_extend h

/-- A merge has the distinct preludes of both stylings, in the order in which they are first met. -/
theorem preludes_merge (styling other : Styling) :
    (styling.merge other).preludes = (styling.preludes ++ other.preludes).eraseDups := by
  rw [merge, preludes_foldl_addPrelude]
  exact foldl_addOnce_of_nodup styling.preludes_nodup other.preludes

variable {α : Type}

/-- Stylings without a common property are merged in order. -/
theorem declarations_foldl_merge (part : α → Styling) {rest : List α}
    (h : ((styling.declarations ++ rest.flatMap fun item => (part item).declarations).map
      Declaration.property).Nodup) :
    (rest.foldl (fun styling item => styling.merge (part item)) styling).declarations =
      styling.declarations ++ rest.flatMap fun item => (part item).declarations := by
  induction rest generalizing styling with
  | nil => exact (List.append_nil _).symm
  | cons item rest ih =>
    -- grouped so that the first part is the merge that the rest is folded into
    rw [List.flatMap_cons, ← List.append_assoc] at h
    have hmerge : (styling.merge (part item)).declarations =
        styling.declarations ++ (part item).declarations := by
      rw [List.map_append] at h
      exact declarations_merge (List.nodup_append.1 h).1
    rw [List.foldl_cons, ih (by rwa [hmerge]), hmerge, List.flatMap_cons, List.append_assoc]

/-- Stylings that rely on no further prelude leave the preludes as they are. -/
theorem preludes_foldl_merge (part : α → Styling) {rest : List α}
    (h : ∀ item ∈ rest, (part item).preludes ⊆ styling.preludes) :
    (rest.foldl (fun styling item => styling.merge (part item)) styling).preludes =
      styling.preludes := by
  induction rest generalizing styling with
  | nil => rfl
  | cons item rest ih =>
    have hmerge : (styling.merge (part item)).preludes = styling.preludes := by
      rw [preludes_merge, eraseDups_append_of_subset (h item List.mem_cons_self),
        eraseDups_of_nodup styling.preludes_nodup]
    rw [List.foldl_cons, ih, hmerge]
    intro other hother
    rw [hmerge]
    exact h other (List.mem_cons_of_mem _ hother)

end Styling

end BorderCss
