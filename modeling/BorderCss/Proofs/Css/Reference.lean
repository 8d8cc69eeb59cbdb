import BorderCss.Proofs.Text.Word

/-!
# Custom properties that a CSS text reads

A CSS text reads a custom property by `var(`, its name and, unless the parenthesis is closed, a
fallback. No reference goes on over a blank, so a text that is joined with a blank reads what its
two parts read (`references_join`).
-/

namespace BorderCss

/-- The opening of a reference. -/
def referenceOpening : List Char := "var(".toList

/-- The character goes on with the name in a reference. -/
def isReferenceName (c : Char) : Bool :=
  c ≠ ')' && c ≠ ',' && c ≠ ' '

/-- The names of the custom properties that a text reads, in the order of the text. -/
def referencesFrom : List Char → List String
  | [] => []
  | c :: rest =>
    match cutStart? referenceOpening (c :: rest) with
    | some inner => String.ofList (inner.takeWhile isReferenceName) :: referencesFrom rest
    | none => referencesFrom rest

/-- The names of the custom properties that a CSS text reads. -/
def references (css : String) : List String :=
  referencesFrom css.toList

/-- What is cut off the start of a text does not reach over a character that it lacks. -/
theorem cutStart?_append_cons {piece : List Char} {c : Char} (h : c ∉ piece)
    (before after : List Char) :
    cutStart? piece (before ++ c :: after) =
      (cutStart? piece before).map (· ++ c :: after) := by
  induction piece generalizing before with
  | nil => rfl
  | cons d piece ih =>
    rw [List.mem_cons, not_or] at h
    cases before with
    | nil =>
      show (if (d == c) = true then _ else none) = none
      rw [if_neg (by simpa using Ne.symm h.1)]
    | cons e before =>
      show (if (d == e) = true then cutStart? piece (before ++ c :: after) else none) =
        (if (d == e) = true then cutStart? piece before else none).map _
      rw [ih h.2]
      split <;> rfl

theorem referencesFrom_append (before after : List Char) :
    referencesFrom (before ++ ' ' :: after) = referencesFrom before ++ referencesFrom after := by
  have hblank : ' ' ∉ referenceOpening := by decide
  induction before with
  | nil => rfl
  | cons c before ih =>
    rw [List.cons_append, referencesFrom, ← List.cons_append, cutStart?_append_cons hblank,
      referencesFrom]
    cases cutStart? referenceOpening (c :: before) with
    | none => exact ih
    | some inner =>
      -- the name ends before the blank, if not earlier
      have hname : (inner ++ ' ' :: after).takeWhile isReferenceName =
          inner.takeWhile isReferenceName := by
        rw [List.takeWhile_append, List.takeWhile_cons_of_neg (by decide)]
        split
        · next hall =>
          rw [List.append_nil]
          exact ((List.takeWhile_prefix _).eq_of_length hall).symm
        · rfl
      simp only [Option.map_some, hname, ih, List.cons_append]

/-- Texts that are joined with a blank read what each of them reads. -/
theorem references_join (before after : String) :
    references (before ++ " " ++ after) = references before ++ references after := by
  have hblank : " ".toList = [' '] := rfl
  rw [references, String.toList_append, String.toList_append, hblank, List.append_assoc,
    List.singleton_append, referencesFrom_append]
  rfl

/-- A text without an opening parenthesis reads nothing. -/
theorem referencesFrom_of_notMem {text : List Char} (h : '(' ∉ text) :
    referencesFrom text = [] := by
  induction text with
  | nil => rfl
  | cons c rest ih =>
    have hcut : cutStart? referenceOpening (c :: rest) = none := by
      rw [Option.eq_none_iff_forall_ne_some]
      intro inner hinner
      refine h ?_
      rw [cutStart?_eq_some_iff.1 hinner]
      exact List.mem_append_left _ (by decide)
    rw [referencesFrom, hcut]
    exact ih fun hmem => h (List.mem_cons_of_mem c hmem)

/-- A reference reads its name. -/
theorem referencesFrom_opening {name rest : List Char}
    (hname : ∀ c ∈ name, isReferenceName c = true) (hopen : '(' ∉ name) (hrest : '(' ∉ rest) :
    referencesFrom (referenceOpening ++ (name ++ ')' :: rest)) = [String.ofList name] := by
  have hcut : cutStart? referenceOpening ('v' :: 'a' :: 'r' :: '(' :: (name ++ ')' :: rest)) =
      some (name ++ ')' :: rest) := rfl
  have htake : (name ++ ')' :: rest).takeWhile isReferenceName = name := by
    rw [List.takeWhile_append_of_pos hname, List.takeWhile_cons_of_neg (by decide),
      List.append_nil]
  have hnone : referencesFrom (name ++ ')' :: rest) = [] :=
    referencesFrom_of_notMem (by simp [hopen, hrest])
  show referencesFrom ('v' :: 'a' :: 'r' :: '(' :: (name ++ ')' :: rest)) = _
  rw [referencesFrom, hcut]
  simp only [htake]
  -- no reference begins within the opening
  show String.ofList name :: referencesFrom (name ++ ')' :: rest) = _
  rw [hnone]

end BorderCss
