import Mathlib.Data.List.Infix

/-!
# Nesting

`nesting` counts how many more brackets a text opens than it closes. A text is `Nested` if it closes
no bracket that was opened in front of it, and `Balanced` if it also closes all of its own. Both are
statements about the prefixes of the text, so that a scan which counts its depth is compared with
them one character at a time (`forall_prefix_cons`, `nesting_cons`).
-/

namespace BorderCss

/-- How many more opening than closing brackets the text has. -/
def nesting (opening closing : Char) (text : List Char) : Int :=
  text.count opening - text.count closing

/-- The text closes no bracket that it has not opened. -/
def Nested (opening closing : Char) (text : List Char) : Prop :=
  ∀ start, start <+: text → 0 ≤ nesting opening closing start

/-- The text closes the brackets that it opens, and no others. -/
structure Balanced (opening closing : Char) (text : List Char) : Prop where
  nested : Nested opening closing text
  level : nesting opening closing text = 0

variable {opening closing : Char} {text : List Char}

@[simp] theorem nesting_nil : nesting opening closing [] = 0 := rfl

@[simp] theorem nesting_append (a b : List Char) :
    nesting opening closing (a ++ b) = nesting opening closing a + nesting opening closing b := by
  rw [nesting, nesting, nesting, List.count_append, List.count_append]
  omega

/-- One character opens a bracket, closes one, or does neither. -/
theorem nesting_cons (hne : opening ≠ closing) (c : Char) (rest : List Char) :
    nesting opening closing (c :: rest) =
      (if c = opening then 1 else if c = closing then -1 else 0) +
        nesting opening closing rest := by
  rw [nesting, nesting, List.count_cons, List.count_cons]
  by_cases hopen : c = opening
  · subst hopen
    simp only [beq_self_eq_true, beq_iff_eq, hne, if_true, if_false]
    omega
  · by_cases hclose : c = closing
    · subst hclose
      simp only [beq_self_eq_true, beq_iff_eq, hopen, if_true, if_false]
      omega
    · simp only [beq_iff_eq, hopen, hclose, if_false]
      omega

/-- The prefixes of a text are the empty one and those that begin with its first character. -/
theorem forall_prefix_cons {p : List Char → Prop} {c : Char} {rest : List Char} :
    (∀ start, start <+: c :: rest → p start) ↔ p [] ∧ ∀ start, start <+: rest → p (c :: start) := by
  simp only [List.prefix_cons_iff]
  constructor
  · intro h
    exact ⟨h [] (.inl rfl), fun start hstart => h (c :: start) (.inr ⟨start, rfl, hstart⟩)⟩
  · rintro ⟨hnil, hcons⟩ start (rfl | ⟨start, rfl, hstart⟩)
    · exact hnil
    · exact hcons start hstart

theorem forall_prefix_iff_inits {p : List Char → Prop} :
    (∀ start, start <+: text → p start) ↔ ∀ start ∈ text.inits, p start := by
  simp only [List.mem_inits]

/-- With `level` brackets open between an opening bracket and the text, the text either stays within
that bracket, or reaches the one that closes it. -/
theorem open_or_closed (hne : opening ≠ closing) (text : List Char) :
    ∀ level : Int, 0 ≤ level →
      (∀ start, start <+: text → 0 ≤ level + nesting opening closing start) ∨
        ∃ body after, text = body ++ closing :: after ∧
          (∀ start, start <+: body → 0 ≤ level + nesting opening closing start) ∧
          level + nesting opening closing body = 0 := by
  induction text with
  | nil =>
    intro level hlevel
    refine .inl fun start hstart => ?_
    rw [List.prefix_nil.mp hstart, nesting_nil, Int.add_zero]
    exact hlevel
  | cons c rest ih =>
    intro level hlevel
    have hempty : 0 ≤ level + nesting opening closing [] := by
      rw [nesting_nil, Int.add_zero]
      exact hlevel
    by_cases hend : c = closing ∧ level = 0
    · obtain ⟨rfl, rfl⟩ := hend
      refine .inr ⟨[], rest, rfl, fun start hstart => ?_, rfl⟩
      rw [List.prefix_nil.mp hstart]
      exact hempty
    · have hstep (start : List Char) := nesting_cons hne c start
      have hnext : 0 ≤ level + if c = opening then 1 else if c = closing then -1 else 0 := by
        split
        · omega
        split
        case isTrue hclose =>
          have hopen : level ≠ 0 := fun hzero => hend ⟨hclose, hzero⟩
          omega
        · omega
      obtain hopen | ⟨body, after, rfl, hopen, hzero⟩ := ih _ hnext
      · refine .inl (forall_prefix_cons.mpr ⟨hempty, fun start hstart => ?_⟩)
        rw [hstep, ← Int.add_assoc]
        exact hopen start hstart
      · refine .inr ⟨c :: body, after, rfl,
          forall_prefix_cons.mpr ⟨hempty, fun start hstart => ?_⟩, ?_⟩
        · rw [hstep, ← Int.add_assoc]
          exact hopen start hstart
        · rw [hstep, ← Int.add_assoc, hzero]

/-- Behind an opening bracket a text either leaves it open, or reaches the bracket that closes
it. -/
theorem nested_or_closed (hne : opening ≠ closing) (text : List Char) :
    Nested opening closing text ∨
      ∃ body after, text = body ++ closing :: after ∧ Balanced opening closing body := by
  have h := open_or_closed hne text 0 (Int.le_refl 0)
  simp only [Int.zero_add] at h
  obtain hnested | ⟨body, after, htext, hnested, hlevel⟩ := h
  · exact .inl hnested
  · exact .inr ⟨body, after, htext, hnested, hlevel⟩

instance : Decidable (Nested opening closing text) :=
  decidable_of_iff _ forall_prefix_iff_inits.symm

instance : Decidable (Balanced opening closing text) :=
  decidable_of_iff (Nested opening closing text ∧ nesting opening closing text = 0)
    ⟨fun h => ⟨h.1, h.2⟩, fun h => ⟨h.nested, h.level⟩⟩

end BorderCss
