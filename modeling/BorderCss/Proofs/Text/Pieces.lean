import BorderCss.Text.Cut

/-!
# Names with hyphens

A name with hyphens is what its parts make when they are joined. `hyphenParts` cuts a name at its
hyphens; joining is undone by it (`hyphenParts_intercalate`) as long as the parts have no hyphens of
their own, and undoes it in any case (`intercalate_hyphenParts`).
-/

namespace BorderCss

/-- Cutting at a separator is that of the standard library. -/
theorem pieces_eq_splitOn (separator : Char) (text : List Char) :
    pieces separator text = text.splitOn separator := by
  induction text with
  | nil => rfl
  | cons c rest ih =>
    rw [pieces, ih, List.splitOn_cons_eq_if_modifyHead]
    by_cases h : c = separator
    · simp [h]
    · obtain ⟨piece, others, hsplit⟩ :=
        List.exists_cons_of_ne_nil (List.splitOn_ne_nil separator rest)
      simp [h, hsplit]

/-- No piece has the separator. -/
theorem notMem_of_mem_pieces {separator : Char} {text piece : List Char}
    (h : piece ∈ pieces separator text) : separator ∉ piece := by
  induction text generalizing piece with
  | nil =>
    rw [pieces, List.mem_singleton] at h
    rw [h]
    exact List.not_mem_nil
  | cons c rest ih =>
    rw [pieces] at h
    split at h
    · rcases List.mem_cons.1 h with rfl | h
      · exact List.not_mem_nil
      · exact ih h
    · next hne =>
      split at h
      · next hnil =>
        rw [pieces_eq_splitOn] at hnil
        exact absurd hnil (List.splitOn_ne_nil _ _)
      · next first others hpieces =>
        rcases List.mem_cons.1 h with rfl | h
        · have hfirst : separator ∉ first := ih (by rw [hpieces]; exact List.mem_cons_self)
          exact List.not_mem_cons_of_ne_of_not_mem (Ne.symm hne) hfirst
        · exact ih (by rw [hpieces]; exact List.mem_cons_of_mem _ h)

/-- Texts on both sides of a separator are cut apart from each other. -/
theorem pieces_append (separator : Char) (text rest : List Char) :
    pieces separator (text ++ separator :: rest) =
      pieces separator text ++ pieces separator rest := by
  rw [pieces_eq_splitOn, pieces_eq_splitOn, pieces_eq_splitOn]
  exact List.splitOnP_append_cons text rest BEq.rfl

/-- A text that does not begin with a separator has its first character in the first piece. -/
theorem pieces_cons_of_ne {separator c : Char} (h : c ≠ separator) (text : List Char) :
    ∃ piece others, pieces separator text = piece :: others ∧
      pieces separator (c :: text) = (c :: piece) :: others := by
  obtain ⟨piece, others, hpieces⟩ :=
    List.exists_cons_of_ne_nil (List.splitOn_ne_nil separator text)
  rw [← pieces_eq_splitOn] at hpieces
  exact ⟨piece, others, hpieces, by rw [pieces, if_neg h, hpieces]⟩

/-- The last character of a text is in its last piece, unless it is a separator. -/
theorem mem_getLast?_pieces {separator c : Char} (h : c ≠ separator) (text : List Char) :
    ∃ piece, (pieces separator (text ++ [c])).getLast? = some piece ∧ c ∈ piece := by
  induction text with
  | nil => exact ⟨[c], by rw [List.nil_append, pieces, if_neg h]; rfl, List.mem_singleton_self c⟩
  | cons d text ih =>
    obtain ⟨piece, hlast, hmem⟩ := ih
    rw [List.cons_append]
    by_cases hd : d = separator
    · refine ⟨piece, ?_, hmem⟩
      rw [pieces, if_pos hd, List.getLast?_cons, hlast]
      rfl
    · obtain ⟨first, others, htext, hcons⟩ := pieces_cons_of_ne hd (text ++ [c])
      rw [htext] at hlast
      rw [hcons]
      cases others with
      | nil =>
        cases hlast
        exact ⟨d :: first, rfl, List.mem_cons_of_mem d hmem⟩
      | cons other others => exact ⟨piece, hlast, hmem⟩

/-- No segment of the path has a hyphen. -/
def Hyphenless (path : List String) : Prop :=
  ∀ segment ∈ path, '-' ∉ segment.toList

/-- The parts of a name between its hyphens. -/
def hyphenParts (name : String) : List String :=
  (pieces '-' name.toList).map String.ofList

theorem hyphenParts_ne_nil (name : String) : hyphenParts name ≠ [] := by
  rw [hyphenParts, pieces_eq_splitOn, ne_eq, List.map_eq_nil_iff]
  exact List.splitOn_ne_nil _ _

theorem hyphenless_hyphenParts (name : String) : Hyphenless (hyphenParts name) := by
  intro part hpart
  obtain ⟨piece, hpiece, rfl⟩ := List.mem_map.1 hpart
  rw [String.toList_ofList]
  exact notMem_of_mem_pieces hpiece

/-- A name is its parts, joined. -/
theorem intercalate_hyphenParts (name : String) :
    String.intercalate "-" (hyphenParts name) = name := by
  have hparts : (hyphenParts name).map String.toList = name.toList.splitOn '-' := by
    rw [hyphenParts, List.map_map, pieces_eq_splitOn]
    exact (List.map_congr_left fun piece _ => String.toList_ofList).trans (List.map_id _)
  rw [← String.toList_inj, String.toList_intercalate, hparts]
  exact List.intercalate_splitOn '-'

/-- Segments without hyphens are the parts of what they make when they are joined. -/
theorem hyphenParts_intercalate {path : List String} (hne : path ≠ []) (h : Hyphenless path) :
    hyphenParts (String.intercalate "-" path) = path := by
  have hsplit : (String.intercalate "-" path).toList.splitOn '-' = path.map String.toList := by
    rw [String.toList_intercalate]
    refine List.splitOn_intercalate '-' ?_ (mt List.map_eq_nil_iff.1 hne)
    rintro _ hmem
    obtain ⟨segment, hsegment, rfl⟩ := List.mem_map.1 hmem
    exact h segment hsegment
  rw [hyphenParts, pieces_eq_splitOn, hsplit, List.map_map]
  exact (List.map_congr_left fun segment _ => String.ofList_toList).trans (List.map_id _)

/-- A name without hyphens is its only part. -/
theorem hyphenParts_of_notMem {name : String} (h : '-' ∉ name.toList) : hyphenParts name = [name] :=
  hyphenParts_intercalate (List.cons_ne_nil name []) fun _ hmem => List.mem_singleton.1 hmem ▸ h

end BorderCss
