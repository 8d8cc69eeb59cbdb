import BorderCss.Proofs.Theme.Walk

/-!
# Names in a colour tree

`ThemeNode.Names` says that every name in a colour entry has a property, at every depth. The keys
that a walk reports are such names (`walk?_names`): it reports the names of the entries that it
found, whatever segments it was given.
-/

namespace BorderCss

variable {p : String → Prop} {entries : List (String × ThemeNode)} {path : List String}
  {hit : ThemeHit}

mutual

/-- Every name in the entry has the property. -/
def ThemeNode.Names (p : String → Prop) : ThemeNode → Prop
  | .value _ => True
  | .scale entries => EntryNames p entries

/-- Every name in the entries has the property. -/
def EntryNames (p : String → Prop) : List (String × ThemeNode) → Prop
  | [] => True
  | (name, node) :: rest => p name ∧ node.Names p ∧ EntryNames p rest

end

mutual

instance ThemeNode.decidableNames [DecidablePred p] : (node : ThemeNode) → Decidable (node.Names p)
  | .value _ => .isTrue trivial
  | .scale entries => decidableEntryNames entries

instance decidableEntryNames [DecidablePred p] :
    (entries : List (String × ThemeNode)) → Decidable (EntryNames p entries)
  | [] => .isTrue trivial
  | (name, node) :: rest =>
    have := node.decidableNames
    have := decidableEntryNames rest
    inferInstanceAs (Decidable (p name ∧ node.Names p ∧ EntryNames p rest))

end

/-- The names of entries, one entry at a time. -/
theorem entryNames_iff : EntryNames p entries ↔ ∀ entry ∈ entries, p entry.1 ∧ entry.2.Names p := by
  induction entries with
  | nil => exact ⟨fun _ => nofun, fun _ => trivial⟩
  | cons entry rest ih => rw [EntryNames, ih, List.forall_mem_cons, and_assoc]

/-- An entry that is looked up has such a name and such names below. -/
theorem EntryNames.lookup (h : EntryNames p entries) {name : String} {node : ThemeNode}
    (hlookup : entries.lookup name = some node) : p name ∧ node.Names p := by
  obtain ⟨before, after, hentries, -⟩ := List.lookup_eq_some_iff.1 hlookup
  exact entryNames_iff.1 h (name, node) (by simp [hentries])

/-- A walk reports names of entries and ends at an entry with such names below. -/
theorem walk?_names (h : EntryNames p entries) (hwalk : walk? entries path = some hit) :
    (∀ key ∈ hit.keys, p key) ∧ hit.node.Names p := by
  induction path generalizing entries hit with
  | nil => cases hwalk
  | cons segment rest ih =>
    cases rest with
    | nil =>
      obtain ⟨node, hnode, rfl⟩ := walk?_singleton.1 hwalk
      obtain ⟨hname, hnames⟩ := h.lookup hnode
      exact ⟨List.forall_mem_singleton.2 hname, hnames⟩
    | cons next rest =>
      obtain ⟨node, hnode, rfl⟩ | ⟨-, inner, found, hinner, hfound, rfl⟩ := walk?_cons_cons.1 hwalk
      · obtain ⟨hname, hnames⟩ := h.lookup hnode
        exact ⟨List.forall_mem_singleton.2 hname, hnames⟩
      · obtain ⟨hname, hnames⟩ := h.lookup hinner
        obtain ⟨hkeys, hnode⟩ := ih hnames hfound
        exact ⟨List.forall_mem_cons.2 ⟨hname, hkeys⟩, hnode⟩

end BorderCss
