import BorderCss.Proofs.Text.Uppercase
import BorderCss.Theme.Basic

/-!
# Walks through a colour tree

A walk follows a path one segment at a time (`steppedNode?`) unless, on the way, the rest of the
path joined into one camel-cased name is the name of an entry (`joinedNode?`); the first such entry
ends the walk (`walk?_node`). The keys that a walk reports join into the same names as the path did
(`capitals_keys`), so they lead back to the same entry (`walk?_keys`, and `Theme.color?_keys` for
the look-up in a theme). `Theme.value?_colors` reads a value of the tree off the two.
-/

namespace BorderCss

variable {entries : List (String × ThemeNode)} {path : List String} {hit : ThemeHit}

/-! ## Camel-cased names -/

/-- Segments capitalised and joined. -/
def capitals (segments : List String) : List Char :=
  segments.flatMap fun segment => capitalize segment.toList

@[simp] theorem capitals_cons (segment : String) (rest : List String) :
    capitals (segment :: rest) = capitalize segment.toList ++ capitals rest := rfl

/-- An upper-case form is not empty. -/
theorem upperCase_ne_nil (c : Char) : upperCase c ≠ [] := by
  have hforms : ∀ entry ∈ foldedForms, entry.2 ≠ [] := by decide +kernel
  unfold upperCase
  split
  · exact List.cons_ne_nil _ _
  · split
    · next forms hlookup =>
      obtain ⟨before, after, hentries, -⟩ := List.lookup_eq_some_iff.1 hlookup
      have hentry : (c.toNat, forms) ∈ foldedForms := by
        rw [hentries]
        simp
      exact fun h => hforms _ hentry (List.map_eq_nil_iff.1 h)
    · split <;> exact List.cons_ne_nil _ _

/-- A capitalised text is capitalised already, whatever follows it. -/
theorem capitalize_append_of_ne_nil {text : List Char} (h : text ≠ []) (rest : List Char) :
    capitalize (capitalize text ++ rest) = capitalize text ++ rest := by
  cases text with
  | nil => exact absurd rfl h
  | cons c text =>
    cases hc : upperCase c with
    | nil => exact absurd hc (upperCase_ne_nil c)
    | cons d form =>
      have hd : upperCase d = [d] := upperCase_of_mem_head? (by rw [hc]; rfl)
      simp only [capitalize, hc, List.cons_append, hd, List.nil_append]

theorem capitalize_capitals (segments : List String) :
    capitalize (capitals segments) = capitals segments := by
  induction segments with
  | nil => rfl
  | cons segment rest ih =>
    rw [capitals_cons]
    by_cases h : segment.toList = []
    · rw [h]
      exact ih
    · exact capitalize_append_of_ne_nil h _

theorem toList_camelName_cons (segment : String) (rest : List String) :
    (camelName (segment :: rest)).toList = segment.toList ++ capitals rest := by
  rw [camelName, String.toList_ofList, capitals]

/-- Capitalising a camel-cased name capitalises its first segment too. -/
theorem capitalize_camelName (segments : List String) :
    capitalize (camelName segments).toList = capitals segments := by
  cases segments with
  | nil => rfl
  | cons segment rest =>
    rw [toList_camelName_cons, capitals_cons]
    cases segment.toList with
    | nil => exact capitalize_capitals rest
    | cons c text => exact (List.append_assoc (upperCase c) text _).symm

/-- A camel-cased name depends on the segments after the first by their capitals only. -/
theorem camelName_congr (segment : String) {rest others : List String}
    (h : capitals rest = capitals others) :
    camelName (segment :: rest) = camelName (segment :: others) := by
  rw [← String.toList_inj, toList_camelName_cons, toList_camelName_cons, h]

/-! ## Inversion of a walk -/

/-- A walk along one segment. -/
theorem walk?_singleton {segment : String} :
    walk? entries [segment] = some hit ↔
      ∃ node, entries.lookup segment = some node ∧ hit = ⟨node, [segment]⟩ := by
  rw [walk?, Option.map_eq_some_iff]
  exact exists_congr fun node => and_congr_right fun _ => eq_comm

/-- A walk along several segments ends at the entry of their camel-cased name or, without one, goes
on inside the scale of the first. -/
theorem walk?_cons_cons {segment next : String} {rest : List String} :
    walk? entries (segment :: next :: rest) = some hit ↔
      (∃ node, entries.lookup (camelName (segment :: next :: rest)) = some node ∧
        hit = ⟨node, [camelName (segment :: next :: rest)]⟩) ∨
      (entries.lookup (camelName (segment :: next :: rest)) = none ∧
        ∃ inner found, entries.lookup segment = some (.scale inner) ∧
          walk? inner (next :: rest) = some found ∧
          hit = ⟨found.node, segment :: found.keys⟩) := by
  rw [walk?]
  cases entries.lookup (camelName (segment :: next :: rest)) with
  | some node => simp [eq_comm]
  | none =>
    rcases entries.lookup segment with _ | _ | inner
    · simp
    · simp
    · simp only [reduceCtorEq, false_and, exists_false, true_and, false_or, Option.some.injEq,
        ThemeNode.scale.injEq, Option.map_eq_some_iff, exists_and_left, exists_eq_left']
      exact exists_congr fun found => and_congr_right fun _ => eq_comm

/-- The entry of a camel-cased name is where a walk along its segments ends. -/
theorem walk?_camelName {node : ThemeNode} (hne : path ≠ [])
    (h : entries.lookup (camelName path) = some node) :
    walk? entries path = some ⟨node, [camelName path]⟩ := by
  cases path with
  | nil => exact absurd rfl hne
  | cons segment rest =>
    cases rest with
    | nil =>
      have hname : camelName [segment] = segment := by
        rw [← String.toList_inj, toList_camelName_cons]
        exact List.append_nil _
      rw [hname] at h ⊢
      exact walk?_singleton.2 ⟨node, h, rfl⟩
    | cons next rest => exact walk?_cons_cons.2 (.inl ⟨node, h, rfl⟩)

/-! ## The keys of a walk -/

/-- The keys of a walk join into the same names as its path. -/
theorem capitals_keys (h : walk? entries path = some hit) : capitals hit.keys = capitals path := by
  induction path generalizing entries hit with
  | nil => cases h
  | cons segment rest ih =>
    cases rest with
    | nil =>
      obtain ⟨node, -, rfl⟩ := walk?_singleton.1 h
      rfl
    | cons next rest =>
      obtain ⟨node, -, rfl⟩ | ⟨-, inner, found, -, hfound, rfl⟩ := walk?_cons_cons.1 h
      · rw [capitals_cons, capitalize_camelName]
        exact List.append_nil _
      · rw [capitals_cons, capitals_cons, ih hfound]

theorem keys_ne_nil (h : walk? entries path = some hit) : hit.keys ≠ [] := by
  cases path with
  | nil => cases h
  | cons segment rest =>
    cases rest with
    | nil =>
      obtain ⟨node, -, rfl⟩ := walk?_singleton.1 h
      exact List.cons_ne_nil _ _
    | cons next rest =>
      obtain ⟨node, -, rfl⟩ | ⟨-, inner, found, -, -, rfl⟩ := walk?_cons_cons.1 h
      · exact List.cons_ne_nil _ _
      · exact List.cons_ne_nil _ _

/-- The keys of a walk lead back to where it ended. -/
theorem walk?_keys (h : walk? entries path = some hit) : walk? entries hit.keys = some hit := by
  induction path generalizing entries hit with
  | nil => cases h
  | cons segment rest ih =>
    cases rest with
    | nil =>
      obtain ⟨node, hnode, rfl⟩ := walk?_singleton.1 h
      exact walk?_singleton.2 ⟨node, hnode, rfl⟩
    | cons next rest =>
      obtain ⟨node, hnode, rfl⟩ | ⟨hjoin, inner, found, hscale, hfound, rfl⟩ := walk?_cons_cons.1 h
      · exact walk?_singleton.2 ⟨node, hnode, rfl⟩
      · obtain ⟨key, keys, hkeys⟩ := List.exists_cons_of_ne_nil (keys_ne_nil hfound)
        have hname := camelName_congr segment (capitals_keys hfound)
        have hback := ih hfound
        rw [hkeys] at hname hback ⊢
        refine walk?_cons_cons.2 (.inr ⟨?_, inner, found, hscale, hback, by rw [hkeys]⟩)
        rw [hname]
        exact hjoin

/-- The keys that a look-up reports lead to the entry that it found, by the same keys. -/
theorem Theme.color?_keys {theme : Theme} (h : theme.color? path = some hit) :
    theme.color? hit.keys = some hit :=
  walk?_keys h

/-- An empty segment on the way, and a join with a character that has two in upper case. -/
theorem Theme.color?_keys_joined :
    let theme : Theme :=
      { colors := [("a", .scale [("", .scale [("bSSx", .value "#123")])])] }
    theme.color? ["a", "", "b", "ßx"] = some ⟨.value "#123", ["a", "", "bSSx"]⟩ ∧
      theme.color? ["a", "", "bSSx"] = some ⟨.value "#123", ["a", "", "bSSx"]⟩ := by
  intro theme
  have hjoined : theme.color? ["a", "", "b", "ßx"] = some ⟨.value "#123", ["a", "", "bSSx"]⟩ := rfl
  exact ⟨hjoined, Theme.color?_keys hjoined⟩

/-! ## Joins on the way -/

/-- The first entry, on the way down a path one segment at a time, that the rest of the path names
when it is joined. -/
def joinedNode? (entries : List (String × ThemeNode)) : List String → Option ThemeNode
  | [] => none
  | [_] => none
  | segment :: next :: rest =>
    match entries.lookup (camelName (segment :: next :: rest)), entries.lookup segment with
    | some node, _ => some node
    | none, some (.scale inner) => joinedNode? inner (next :: rest)
    | none, _ => none

/-- The entry that a path leads to one segment at a time. -/
def steppedNode? (entries : List (String × ThemeNode)) : List String → Option ThemeNode
  | [] => none
  | [segment] => entries.lookup segment
  | segment :: next :: rest =>
    match entries.lookup segment with
    | some (.scale inner) => steppedNode? inner (next :: rest)
    | _ => none

/-- A walk ends at the first join on its way or, without one, where its segments lead. -/
theorem walk?_node : (walk? entries path).map (·.node) =
    (joinedNode? entries path).or (steppedNode? entries path) := by
  induction path generalizing entries with
  | nil => rfl
  | cons segment rest ih =>
    cases rest with
    | nil =>
      rw [walk?, joinedNode?, steppedNode?, Option.none_or]
      cases entries.lookup segment <;> rfl
    | cons next rest =>
      rw [walk?, joinedNode?, steppedNode?]
      cases entries.lookup (camelName (segment :: next :: rest)) with
      | some node => rfl
      | none =>
        rcases entries.lookup segment with _ | _ | inner
        · rfl
        · rfl
        · rw [Option.map_map]
          exact ih

/-- No join lies on the way down the keys of a walk, and their segments lead to its end. -/
theorem entries_keys (h : walk? entries path = some hit) :
    joinedNode? entries hit.keys = none ∧ steppedNode? entries hit.keys = some hit.node := by
  induction path generalizing entries hit with
  | nil => cases h
  | cons segment rest ih =>
    cases rest with
    | nil =>
      obtain ⟨node, hnode, rfl⟩ := walk?_singleton.1 h
      exact ⟨rfl, hnode⟩
    | cons next rest =>
      obtain ⟨node, hnode, rfl⟩ | ⟨hjoin, inner, found, hscale, hfound, rfl⟩ := walk?_cons_cons.1 h
      · exact ⟨rfl, hnode⟩
      · obtain ⟨key, keys, hkeys⟩ := List.exists_cons_of_ne_nil (keys_ne_nil hfound)
        have hname := camelName_congr segment (capitals_keys hfound)
        have hinner := ih hfound
        rw [hkeys] at hname hinner ⊢
        rw [joinedNode?, steppedNode?, hname, hjoin, hscale]
        exact hinner

/-- One more segment leads into the scale that the segments before it led to. -/
theorem steppedNode?_concat {node : ThemeNode} (h : steppedNode? entries path = some node)
    (segment : String) : steppedNode? entries (path ++ [segment]) = node.get? segment := by
  induction path generalizing entries with
  | nil => cases h
  | cons first rest ih =>
    cases rest with
    | nil =>
      rw [steppedNode?] at h
      rw [List.singleton_append, steppedNode?, h]
      cases node <;> rfl
    | cons next rest =>
      rw [steppedNode?] at h
      rw [List.cons_append, List.cons_append, steppedNode?]
      rcases hfirst : entries.lookup first with _ | _ | inner
      · rw [hfirst] at h
        cases h
      · rw [hfirst] at h
        cases h
      · rw [hfirst] at h
        exact ih h

/-! ## Values -/

/-- The CSS value that an entry stands for: its own, or that of the default entry of a scale. -/
def ThemeNode.css? : ThemeNode → Option String
  | .value css => some css
  | .scale entries => ((ThemeNode.scale entries).get? defaultKey).bind ThemeNode.value?

/-- A colour path has the value of the first join on its way or, without one, of the entry that its
segments lead to. -/
theorem Theme.value?_colors (theme : Theme) (path : List String) :
    theme.value? "colors" path =
      ((joinedNode? theme.colors path).or (steppedNode? theme.colors path)).bind
        ThemeNode.css? := by
  have hspace : ¬"colors" = "radius" := by decide
  unfold Theme.value?
  rw [← walk?_node, if_neg hspace, if_pos rfl, Theme.color?]
  cases walk? theme.colors path with
  | none => rfl
  | some hit =>
    obtain ⟨node, keys⟩ := hit
    cases node <;> rfl

end BorderCss
