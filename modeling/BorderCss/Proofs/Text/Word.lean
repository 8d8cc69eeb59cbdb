import BorderCss.Text.Cut
import Mathlib.Data.List.TakeWhile

/-!
# The first word of a text

A token is made of words with hyphens between them. `firstWord` is a text up to its first hyphen,
and `afterWord` the rest from that hyphen on. A list of words without hyphens, each cut off a text
to look at what follows it, comes to looking up the first word of the text (`findSome?_cutStart?`),
provided that only a hyphen or the end of the text may follow.
-/

namespace BorderCss

/-- The text up to its first hyphen. -/
def firstWord (text : List Char) : List Char :=
  text.takeWhile (· ≠ '-')

/-- The text from its first hyphen on. -/
def afterWord (text : List Char) : List Char :=
  text.dropWhile (· ≠ '-')

variable {word rest text : List Char} {c : Char}

theorem firstWord_append_afterWord (text : List Char) : firstWord text ++ afterWord text = text :=
  List.takeWhile_append_dropWhile

@[simp] theorem firstWord_hyphen (rest : List Char) : firstWord ('-' :: rest) = [] := rfl

@[simp] theorem afterWord_hyphen (rest : List Char) : afterWord ('-' :: rest) = '-' :: rest := rfl

@[simp] theorem firstWord_nil : firstWord [] = [] := rfl

@[simp] theorem afterWord_nil : afterWord [] = [] := rfl

theorem firstWord_cons (h : c ≠ '-') (rest : List Char) :
    firstWord (c :: rest) = c :: firstWord rest :=
  List.takeWhile_cons_of_pos (by simpa using h)

/-- A text without hyphens is one word. -/
theorem firstWord_eq_self (h : '-' ∉ text) : firstWord text = text := by
  refine List.takeWhile_eq_self_iff.2 fun c hc => ?_
  have hne : c ≠ '-' := fun heq => h (heq ▸ hc)
  simpa using hne

/-- A word without hyphens in front of a text makes its first word longer. -/
theorem firstWord_append (h : '-' ∉ word) (rest : List Char) :
    firstWord (word ++ rest) = word ++ firstWord rest := by
  refine List.takeWhile_append_of_pos fun c hc => ?_
  have hne : c ≠ '-' := fun heq => h (heq ▸ hc)
  simpa using hne

theorem afterWord_append (h : '-' ∉ word) (rest : List Char) :
    afterWord (word ++ rest) = afterWord rest := by
  refine List.dropWhile_append_of_pos fun c hc => ?_
  have hne : c ≠ '-' := fun heq => h (heq ▸ hc)
  simpa using hne

/-- A text that begins with a hyphen has nothing in front of it. -/
theorem afterWord_of_firstWord (h : firstWord text = []) : afterWord text = text := by
  have happend := firstWord_append_afterWord text
  rwa [h, List.nil_append] at happend

/-- What follows the first word begins with a hyphen. -/
theorem eq_hyphen_of_afterWord (h : afterWord text = c :: rest) : c = '-' := by
  have hhead := List.head?_dropWhile_not (· ≠ '-') text
  rw [← afterWord, h] at hhead
  simpa using hhead

/-- A text without a first word is empty or begins with a hyphen. -/
theorem eq_nil_or_hyphen_of_firstWord (h : firstWord text = []) :
    text = [] ∨ ∃ rest, text = '-' :: rest := by
  have hafter := afterWord_of_firstWord h
  cases text with
  | nil => exact .inl rfl
  | cons c rest => exact .inr ⟨rest, by rw [eq_hyphen_of_afterWord hafter]⟩

/-- A word without hyphens is the first one of a text where a hyphen or nothing follows it. -/
theorem ofList_firstWord {word : String} (h : '-' ∉ word.toList) (hrest : firstWord rest = []) :
    String.ofList (firstWord (word.toList ++ rest)) = word := by
  rw [firstWord_append h, hrest, List.append_nil, String.ofList_toList]

/-! ## Cutting words -/

theorem cutStart?_nil (text : List Char) : cutStart? [] text = some text := rfl

theorem cutStart?_cons_cons (c d : Char) (word text : List Char) :
    cutStart? (c :: word) (d :: text) = if c = d then cutStart? word text else none := by
  show (if (c == d) = true then cutStart? word text else none) = _
  simp only [beq_iff_eq]

theorem cutStart?_eq_some_iff : cutStart? word text = some rest ↔ text = word ++ rest := by
  induction word generalizing text with
  | nil => rw [cutStart?_nil, Option.some.injEq, List.nil_append]
  | cons c word ih =>
    cases text with
    | nil => exact ⟨nofun, nofun⟩
    | cons d text =>
      rw [cutStart?_cons_cons, List.cons_append, List.cons.injEq, ← ih]
      by_cases h : c = d
      · simp [h]
      · simp [h, Ne.symm h]

theorem cutEnd?_eq_some_iff : cutEnd? word text = some rest ↔ text = rest ++ word := by
  have hreverse : cutEnd? word text = (cutStart? word.reverse text.reverse).map List.reverse := rfl
  rw [hreverse, Option.map_eq_some_iff]
  constructor
  · rintro ⟨after, hafter, rfl⟩
    have htext := congrArg List.reverse (cutStart?_eq_some_iff.1 hafter)
    rwa [List.reverse_reverse, List.reverse_append, List.reverse_reverse] at htext
  · rintro rfl
    exact ⟨rest.reverse, cutStart?_eq_some_iff.2 (List.reverse_append), List.reverse_reverse rest⟩

variable {β : Type}

/-- To cut off a word and go on from a hyphen or the end of the text is to ask for the first word.
-/
theorem cutStart?_bind (hword : '-' ∉ word) {next : List Char → Option β}
    (hnext : ∀ c rest, c ≠ '-' → next (c :: rest) = none) (text : List Char) :
    (cutStart? word text).bind next =
      if firstWord text = word then next (afterWord text) else none := by
  cases hcut : cutStart? word text with
  | none =>
    have hne : firstWord text ≠ word := by
      rintro rfl
      rw [cutStart?_eq_some_iff.2 (firstWord_append_afterWord text).symm] at hcut
      cases hcut
    rw [if_neg hne, Option.bind_none]
  | some rest =>
    obtain rfl := cutStart?_eq_some_iff.1 hcut
    rw [Option.bind_some, firstWord_append hword, afterWord_append hword]
    rcases rest with _ | ⟨c, rest⟩
    · rw [firstWord_nil, List.append_nil, if_pos rfl, afterWord_nil]
    · by_cases hc : c = '-'
      · rw [hc, firstWord_hyphen, List.append_nil, if_pos rfl, afterWord_hyphen]
      · rw [hnext c rest hc, firstWord_cons hc, if_neg (by simp)]

/-- The first of several words that is cut off a text, with a hyphen or the end of the text behind
it, is the first word of the text. -/
theorem findSome?_cutStart? {words : List String} {cut : String → Option (List Char)}
    (hcut : ∀ word ∈ words, '-' ∉ word.toList ∧ cut word = cutStart? word.toList text)
    {next : String → List Char → Option β}
    (hnext : ∀ word c rest, c ≠ '-' → next word (c :: rest) = none) :
    (words.findSome? fun word => (cut word).bind (next word)) =
      if String.ofList (firstWord text) ∈ words then
        next (String.ofList (firstWord text)) (afterWord text)
      else none := by
  induction words with
  | nil => rfl
  | cons word rest ih =>
    obtain ⟨⟨hword, hcutword⟩, hrest⟩ := List.forall_mem_cons.1 hcut
    rw [List.findSome?_cons, hcutword, cutStart?_bind hword (hnext word), ih hrest]
    by_cases h : firstWord text = word.toList
    · rw [if_pos h, h, String.ofList_toList, if_pos List.mem_cons_self]
      cases next word (afterWord text) with
      | some found => rfl
      | none => exact ite_self none
    · have hne : String.ofList (firstWord text) ≠ word := by
        rintro rfl
        exact h String.toList_ofList.symm
      simp only [if_neg h, List.mem_cons, hne, false_or]

end BorderCss
