import BorderCss.Proofs.Text.Nesting

/-!
# Calls that are open

A text ends inside a call of a function if the name of the function stands somewhere in it in front
of a parenthesis that is not closed any more (`OpenSince`, `InCall`). Where a text goes on, it stays
inside up to the closing parenthesis (`OpenSince.append`), and where it opens no parenthesis, it was
inside before (`OpenSince.of_append`). A call that is closed again does not matter for what follows
it (`inCall_balanced_append_iff`).
-/

namespace BorderCss

variable {name : String} {head text body rest : List Char} {c : Char}

/-- The parenthesis at the end of the head is still open at the end of the text. -/
def OpenSince (head text : List Char) : Prop :=
  ∃ inside, text = head ++ inside ∧ Nested '(' ')' inside

/-- A call of the function that begins in the text is still open at its end. -/
def InCall (name : String) (text : List Char) : Prop :=
  ∃ start, OpenSince (start ++ (name ++ "(").toList) text

/-! ## Nested texts -/

/-- A prefix of two texts ends in the first one, or goes on into the second. -/
theorem prefix_append_cases {start : List Char} (h : start <+: text ++ rest) :
    start <+: text ∨ ∃ after, start = text ++ after ∧ after <+: rest := by
  obtain ⟨left, hleft⟩ := h
  obtain ⟨after, rfl, -⟩ | ⟨after, rfl, hafter⟩ := List.append_eq_append_iff.1 hleft
  · exact .inl (List.prefix_append start after)
  · exact .inr ⟨after, rfl, hafter ▸ List.prefix_append after left⟩

theorem Nested.of_prefix (h : Nested '(' ')' text) (hbody : body <+: text) : Nested '(' ')' body :=
  fun start hstart => h start (hstart.trans hbody)

theorem Nested.append (h : Nested '(' ')' text) (hbody : Nested '(' ')' body) :
    Nested '(' ')' (text ++ body) := by
  intro start hstart
  obtain hstart | ⟨after, rfl, hafter⟩ := prefix_append_cases hstart
  · exact h start hstart
  · rw [nesting_append]
    exact Int.add_nonneg (h text List.prefix_rfl) (hbody after hafter)

/-- A text without closing parentheses closes none. -/
theorem nested_of_notMem (h : ')' ∉ text) : Nested '(' ')' text := by
  intro start hstart
  have hnone : start.count ')' = 0 := List.count_eq_zero.2 fun hmem => h (hstart.subset hmem)
  rw [nesting, hnone]
  omega

/-! ## Inside a parenthesis -/

/-- A text that closes no other parentheses than its own goes on inside the parenthesis. -/
theorem OpenSince.append (h : OpenSince head text) (hbody : Nested '(' ')' body) :
    OpenSince head (text ++ body) := by
  obtain ⟨inside, rfl, hinside⟩ := h
  exact ⟨inside ++ body, List.append_assoc .., hinside.append hbody⟩

/-- No parenthesis is entered where none is opened. -/
theorem OpenSince.of_append (h : OpenSince head (text ++ body)) (hhead : head.getLast? = some '(')
    (hopen : '(' ∉ body) : OpenSince head text := by
  obtain ⟨inside, htext, hinside⟩ := h
  obtain ⟨after, rfl, rfl⟩ | ⟨after, rfl, rfl⟩ := List.append_eq_append_iff.1 htext
  · obtain rfl | ⟨after, c, rfl⟩ := after.eq_nil_or_concat'
    · exact ⟨[], by simp, nested_of_notMem List.not_mem_nil⟩
    · rw [← List.append_assoc, List.getLast?_concat] at hhead
      obtain rfl := Option.some.inj hhead
      simp at hopen
  · exact ⟨after, rfl, hinside.of_prefix (List.prefix_append after body)⟩

/-- The opening of a call ends with a parenthesis. -/
theorem getLast?_opening (start : List Char) (name : String) :
    (start ++ (name ++ "(").toList).getLast? = some '(' := by
  rw [String.toList_append, ← List.append_assoc]
  exact List.getLast?_concat

/-! ## Inside a call -/

theorem not_inCall_nil : ¬InCall name [] := by
  rintro ⟨start, inside, htext, -⟩
  simp at htext

theorem InCall.prepend (h : InCall name rest) (text : List Char) : InCall name (text ++ rest) := by
  obtain ⟨start, inside, rfl, hinside⟩ := h
  exact ⟨text ++ start, inside, by simp only [List.append_assoc], hinside⟩

theorem inCall_append_iff (hopen : '(' ∉ body) (hclose : ')' ∉ body) :
    InCall name (text ++ body) ↔ InCall name text :=
  exists_congr fun start =>
    ⟨fun h => h.of_append (getLast?_opening start name) hopen,
      fun h => h.append (nested_of_notMem hclose)⟩

/-- A character that begins no call is not part of one's opening. -/
theorem inCall_cons_iff (h : ¬(name ++ "(").toList <+: c :: text) :
    InCall name (c :: text) ↔ InCall name text := by
  refine ⟨?_, fun hcall => hcall.prepend [c]⟩
  rintro ⟨start, inside, htext, hinside⟩
  cases start with
  | nil =>
    rw [List.nil_append] at htext
    exact absurd (htext ▸ List.prefix_append _ inside) h
  | cons d start =>
    obtain ⟨-, rfl⟩ := List.cons.inj htext
    exact ⟨start, inside, rfl, hinside⟩

/-- A name without parentheses opens one parenthesis. -/
theorem nesting_opening (hopen : '(' ∉ name.toList) (hclose : ')' ∉ name.toList) :
    nesting '(' ')' (name ++ "(").toList = 1 := by
  rw [String.toList_append, nesting_append, nesting, List.count_eq_zero.2 hopen,
    List.count_eq_zero.2 hclose]
  rfl

/-- A closed call with balanced arguments is balanced. -/
theorem balanced_call (hopen : '(' ∉ name.toList) (hclose : ')' ∉ name.toList)
    (hbody : Balanced '(' ')' body) : Balanced '(' ')' ((name ++ "(").toList ++ body ++ [')']) := by
  have hopening := nesting_opening hopen hclose
  have hlevel : nesting '(' ')' ((name ++ "(").toList ++ body ++ [')']) = 0 := by
    rw [nesting_append, nesting_append, hopening, hbody.level]
    rfl
  have hname : ')' ∉ (name ++ "(").toList := by
    rw [String.toList_append, List.mem_append, not_or]
    exact ⟨hclose, by decide⟩
  refine ⟨fun start hstart => ?_, hlevel⟩
  obtain rfl | hstart := List.prefix_concat_iff.1 hstart
  · exact Int.le_of_eq hlevel.symm
  · exact (nested_of_notMem hname).append hbody.nested start hstart

/-- A text that closes all its parentheses, the last one at its end, is no part of an open call. -/
theorem inCall_balanced_append_iff (hopen : '(' ∉ name.toList) (hclose : ')' ∉ name.toList)
    (hbody : Balanced '(' ')' (body ++ [')'])) :
    InCall name (body ++ [')'] ++ text) ↔ InCall name text := by
  refine ⟨?_, fun hcall => hcall.prepend _⟩
  rintro ⟨start, inside, htext, hinside⟩
  obtain ⟨after, hstart, rfl⟩ | ⟨after, hfirst, rfl⟩ := List.append_eq_append_iff.1 htext
  · obtain ⟨within, hwithin, hopening⟩ | ⟨within, rfl, rfl⟩ := List.append_eq_append_iff.1 hstart
    · -- the parenthesis at the end of the balanced text is not in the opening of a call
      obtain rfl | ⟨within, d, rfl⟩ := within.eq_nil_or_concat'
      · exact ⟨[], inside, by rw [List.nil_append, hopening, List.nil_append], hinside⟩
      · rw [← List.append_assoc] at hwithin
        obtain ⟨-, hd⟩ := List.append_inj' hwithin rfl
        have hmem : ')' ∈ (name ++ "(").toList := by
          rw [hopening, List.singleton_inj.1 hd]
          simp
        rw [String.toList_append, List.mem_append] at hmem
        exact hmem.elim (fun hname => absurd hname hclose) fun hend => absurd hend (by decide)
    · exact ⟨within, inside, rfl, hinside⟩
  · -- a call within the balanced text would stay open at the end of it
    have hlevel := hbody.level
    have hbefore := hbody.nested start (hfirst ▸ (List.prefix_append start _).trans
      (List.prefix_append _ after))
    have hafter := hinside after (List.prefix_append after text)
    rw [hfirst, nesting_append, nesting_append, nesting_opening hopen hclose] at hlevel
    omega

/-! ## Deciding -/

instance (head text : List Char) : Decidable (OpenSince head text) :=
  decidable_of_iff (head <+: text ∧ Nested '(' ')' (text.drop head.length)) <| by
    constructor
    · rintro ⟨⟨inside, rfl⟩, hinside⟩
      rw [List.drop_left] at hinside
      exact ⟨inside, rfl, hinside⟩
    · rintro ⟨inside, rfl, hinside⟩
      rw [List.drop_left]
      exact ⟨List.prefix_append head inside, hinside⟩

/-- What stands in front of an opening is an initial part of the text. -/
theorem OpenSince.start_prefix {start opening : List Char} (h : OpenSince (start ++ opening) text) :
    start <+: text := by
  obtain ⟨inside, rfl, -⟩ := h
  rw [List.append_assoc]
  exact List.prefix_append start _

instance (name : String) (text : List Char) : Decidable (InCall name text) :=
  decidable_of_iff (∃ start ∈ text.inits, OpenSince (start ++ (name ++ "(").toList) text)
    ⟨fun ⟨start, _, hopen⟩ => ⟨start, hopen⟩,
      fun ⟨start, hopen⟩ => ⟨start, (List.mem_inits _ _).2 hopen.start_prefix, hopen⟩⟩

end BorderCss
