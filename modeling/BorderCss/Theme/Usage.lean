import BorderCss.Theme.Basic

/-!
# Theme usage

A `Usage` is the set of theme keys that resolved tokens refer to, kept in ascending order of
namespace and then of path, so that two usages with the same keys are equal. `record` and `absorb`
add keys, and `rootBlock` defines the custom properties of the keys that a theme can supply.
-/

namespace BorderCss

/-- A theme entry by namespace and path. -/
structure ThemeKey where
  space : String
  path : List String
deriving DecidableEq, Repr

namespace ThemeKey

/-- Keys compare by namespace first and by path segment by segment then. -/
def lt (a b : ThemeKey) : Prop :=
  a.space < b.space ∨ a.space = b.space ∧ a.path < b.path

instance : LT ThemeKey := ⟨lt⟩

instance (a b : ThemeKey) : Decidable (a < b) :=
  inferInstanceAs (Decidable (_ ∨ _))

theorem lt_irrefl (a : ThemeKey) : ¬a < a := by
  rintro (h | ⟨_, h⟩)
  · exact String.lt_irrefl _ h
  · exact List.lt_irrefl _ h

theorem lt_trans {a b c : ThemeKey} : a < b → b < c → a < c := by
  rintro (hab | ⟨eab, hab⟩) (hbc | ⟨ebc, hbc⟩)
  · exact .inl (String.lt_trans hab hbc)
  · exact .inl (ebc ▸ hab)
  · exact .inl (eab ▸ hbc)
  · exact .inr ⟨eab.trans ebc, List.lt_trans hab hbc⟩

/-- Of two different keys one comes first. -/
theorem lt_of_ne_of_not_lt {a b : ThemeKey} (hne : a ≠ b) (hlt : ¬a < b) : b < a := by
  by_cases hs : a.space = b.space
  · refine .inr ⟨hs.symm, ?_⟩
    by_cases hp : b.path < a.path
    · exact hp
    · have hp' : ¬a.path < b.path := fun h => hlt (.inr ⟨hs, h⟩)
      have e : a.path = b.path := List.le_antisymm (List.not_lt.1 hp) (List.not_lt.1 hp')
      cases a; cases b; simp_all
  · refine .inl ?_
    by_cases h : b.space < a.space
    · exact h
    · have h' : ¬a.space < b.space := fun h => hlt (.inl h)
      exact absurd (String.le_antisymm (String.not_lt.1 h) (String.not_lt.1 h')) hs

/-- The segments of the path joined by hyphens. -/
def joined (key : ThemeKey) : String :=
  String.intercalate "-" key.path

end ThemeKey

/-- Keys with one more in its place. -/
def insertKey (key : ThemeKey) : List ThemeKey → List ThemeKey
  | [] => [key]
  | other :: rest =>
    if key = other then other :: rest
    else if key < other then key :: other :: rest
    else other :: insertKey key rest

theorem mem_insertKey {key k : ThemeKey} {keys : List ThemeKey} :
    k ∈ insertKey key keys ↔ k = key ∨ k ∈ keys := by
  induction keys with
  | nil => simp [insertKey]
  | cons other rest ih =>
    unfold insertKey
    split
    · next h => subst h; simp
    · split
      · simp
      · simp only [List.mem_cons, ih]
        exact or_left_comm

/-- Inserting a key keeps the keys in ascending order. -/
theorem pairwise_insertKey (key : ThemeKey) {keys : List ThemeKey} (h : keys.Pairwise (· < ·)) :
    (insertKey key keys).Pairwise (· < ·) := by
  induction keys with
  | nil => simp [insertKey]
  | cons other rest ih =>
    obtain ⟨hother, hrest⟩ := List.pairwise_cons.1 h
    unfold insertKey
    split
    · exact h
    · next hne =>
      split
      · next hlt =>
        refine List.pairwise_cons.2 ⟨?_, h⟩
        intro k hk
        rcases List.mem_cons.1 hk with rfl | hk
        · exact hlt
        · exact ThemeKey.lt_trans hlt (hother k hk)
      · next hlt =>
        refine List.pairwise_cons.2 ⟨?_, ih hrest⟩
        intro k hk
        rcases mem_insertKey.1 hk with rfl | hk
        · exact ThemeKey.lt_of_ne_of_not_lt hne hlt
        · exact hother k hk

/-- A set of theme keys, listed in ascending order. -/
structure Usage where
  keys : List ThemeKey
  sorted : keys.Pairwise (· < ·)
deriving DecidableEq, Repr

namespace Usage

/-- No key is used. -/
def empty : Usage := ⟨[], .nil⟩

instance : Inhabited Usage := ⟨empty⟩

/-- `usage` and one more key. -/
def record (usage : Usage) (key : ThemeKey) : Usage :=
  ⟨insertKey key usage.keys, pairwise_insertKey key usage.sorted⟩

/-- `usage` and every key of a list. -/
def recordAll (usage : Usage) (keys : List ThemeKey) : Usage :=
  keys.foldl record usage

/-- `usage` and every key of `other`. -/
def absorb (usage other : Usage) : Usage :=
  usage.recordAll other.keys

/-- No key is used. -/
def isEmpty (usage : Usage) : Bool :=
  usage.keys.isEmpty

/-- The namespaces with a used key, in order. -/
def spaces (usage : Usage) : List String :=
  (usage.keys.map (·.space)).eraseDups

/-- The used keys of a namespace, their segments joined by hyphens, in the order of their paths. -/
def joinedKeys (usage : Usage) (space : String) : List String :=
  (usage.keys.filter (·.space == space)).map ThemeKey.joined

/-- A key of the namespace reads `joined` when its segments are joined by hyphens. -/
def contains (usage : Usage) (space joined : String) : Bool :=
  usage.keys.any fun key => key.space == space && key.joined == joined

/-- The definition of a key's custom property, if the theme has a value for it. -/
def definition? (theme : Theme) (key : ThemeKey) : Option String :=
  (theme.value? key.space key.path).map fun value =>
    themeVariable key.space key.path ++ ":" ++ value ++ ";"

/-- A root rule that defines the custom properties of all used keys the theme has a value for;
nothing when there are none. -/
def rootBlock (usage : Usage) (theme : Theme) : String :=
  match usage.keys.filterMap (definition? theme) with
  | [] => ""
  | definitions => ":root\x7b" ++ String.join definitions ++ "\x7d"

end Usage

end BorderCss
