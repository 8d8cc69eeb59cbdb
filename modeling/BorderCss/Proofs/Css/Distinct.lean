import BorderCss.Css.Styling
import Mathlib.Data.List.Induction

/-!
# Distinct items in the order of their first occurrence

`addOnce` puts an item last unless it is there, so adding items one after the other leaves the
distinct ones, in the order in which they are first met (`foldl_addOnce`,
`pairwise_idxOf_eraseDups`). The properties of a block and the preludes of a styling are such lists,
and what two of them make together is the list of the distinct items of both.
-/

namespace BorderCss

variable {items others : List String} {item : String}

/-- Adding an item that is there changes nothing. -/
theorem addOnce_of_mem (h : item ∈ items) : addOnce items item = items :=
  if_pos h

/-- The distinct items of a longer list: the new item comes last unless it is there. -/
theorem eraseDups_concat (items : List String) (item : String) :
    (items ++ [item]).eraseDups = addOnce items.eraseDups item := by
  rw [List.eraseDups_append, List.cons_removeAll, List.nil_removeAll]
  by_cases h : item ∈ items
  · rw [addOnce_of_mem (List.mem_eraseDups.2 h)]
    simp [h]
  · rw [addOnce, if_neg (mt List.mem_eraseDups.1 h)]
    simp [h, List.eraseDups_cons]

theorem foldl_addOnce (items others : List String) :
    others.foldl addOnce items.eraseDups = (items ++ others).eraseDups := by
  induction others generalizing items with
  | nil => rw [List.foldl_nil, List.append_nil]
  | cons item rest ih =>
    rw [List.foldl_cons, ← eraseDups_concat, ih, List.append_assoc, List.singleton_append]

theorem nodup_eraseDups (items : List String) : items.eraseDups.Nodup := by
  induction items using List.reverseRecOn with
  | nil => exact List.nodup_nil
  | append_singleton items item ih =>
    rw [eraseDups_concat]
    exact nodup_addOnce item ih

/-- The distinct items of a permutation are those of the list, in another order. -/
theorem perm_eraseDups {items others : List String} (h : others.Perm items) :
    others.eraseDups.Perm items.eraseDups := by
  refine (List.perm_ext_iff_of_nodup (nodup_eraseDups _) (nodup_eraseDups _)).2 fun item => ?_
  rw [List.mem_eraseDups, List.mem_eraseDups, h.mem_iff]

/-- A list without duplicates is that of its distinct items. -/
theorem eraseDups_of_nodup (h : items.Nodup) : items.eraseDups = items := by
  induction items using List.reverseRecOn with
  | nil => rfl
  | append_singleton items item ih =>
    rw [List.nodup_append] at h
    have hnew : item ∉ items := fun hmem => h.2.2 item hmem item (List.mem_singleton_self item) rfl
    rw [eraseDups_concat, ih h.1, addOnce, if_neg hnew]

/-- Items are added to a list without duplicates as to the list of its distinct items. -/
theorem foldl_addOnce_of_nodup (h : items.Nodup) (others : List String) :
    others.foldl addOnce items = (items ++ others).eraseDups := by
  rw [← foldl_addOnce, eraseDups_of_nodup h]

theorem eraseDups_eraseDups_append (items others : List String) :
    (items.eraseDups ++ others).eraseDups = (items ++ others).eraseDups := by
  rw [← foldl_addOnce, ← foldl_addOnce, eraseDups_of_nodup (nodup_eraseDups items)]

theorem eraseDups_append_eraseDups (items others : List String) :
    (items ++ others.eraseDups).eraseDups = (items ++ others).eraseDups := by
  induction others using List.reverseRecOn with
  | nil => rfl
  | append_singleton others item ih =>
    rw [eraseDups_concat, ← List.append_assoc, eraseDups_concat, ← ih]
    by_cases h : item ∈ others.eraseDups
    · have hmem : item ∈ (items ++ others.eraseDups).eraseDups :=
        List.mem_eraseDups.2 (List.mem_append_right items h)
      rw [addOnce_of_mem h, addOnce_of_mem hmem]
    · rw [addOnce, if_neg h, ← List.append_assoc, eraseDups_concat]

/-- Items that are there already change nothing. -/
theorem eraseDups_append_of_subset (h : others ⊆ items) :
    (items ++ others).eraseDups = items.eraseDups := by
  have hnone : others.removeAll items = [] := by
    rw [List.removeAll, List.filter_eq_nil_iff]
    intro item hitem
    simpa using h hitem
  rw [List.eraseDups_append, hnone, List.eraseDups_nil, List.append_nil]

/-- The distinct items of a list keep their places when more items follow. -/
theorem eraseDups_prefix_append (items others : List String) :
    items.eraseDups <+: (items ++ others).eraseDups :=
  ⟨_, List.eraseDups_append.symm⟩

/-- Of two distinct items the one whose first occurrence is earlier comes first. -/
theorem pairwise_idxOf_eraseDups (items : List String) :
    items.eraseDups.Pairwise fun a b => items.idxOf a < items.idxOf b := by
  induction items using List.reverseRecOn with
  | nil => exact .nil
  | append_singleton items item ih =>
    have hsame : ∀ a ∈ items.eraseDups, (items ++ [item]).idxOf a = items.idxOf a := by
      intro a ha
      rw [List.idxOf_append, if_pos (List.mem_eraseDups.1 ha)]
    have hbefore : items.eraseDups.Pairwise fun a b =>
        (items ++ [item]).idxOf a < (items ++ [item]).idxOf b := by
      refine ih.imp_of_mem fun ha hb hab => ?_
      rwa [hsame _ ha, hsame _ hb]
    rw [eraseDups_concat, addOnce]
    split
    · exact hbefore
    · next hnew =>
      refine List.pairwise_append.2 ⟨hbefore, List.pairwise_singleton _ _, fun a ha b hb => ?_⟩
      have hfirst : items.idxOf a < items.length :=
        List.idxOf_lt_length_iff.2 (List.mem_eraseDups.1 ha)
      rw [List.mem_singleton.1 hb, hsame a ha, List.idxOf_append,
        if_neg (mt List.mem_eraseDups.2 hnew)]
      exact Nat.lt_of_lt_of_le hfirst (Nat.le_add_left _ _)

end BorderCss
