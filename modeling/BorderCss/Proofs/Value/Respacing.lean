import BorderCss.Proofs.Value.MathSpacing

/-!
# Spacing operators again

A text whose operators are spaced is left as it is (`spaceMath_spaceMath`). The scan of the spaced
text is compared with the scan of the text itself: both know the same in front of each character of
the text. An operator that was spaced has a space in front of it now, so it follows neither a number
nor a closing parenthesis any more, and is copied with its spaces (`spaceOperators_spaced`). All
that the scan looks ahead for is `var(`, and calls of math functions are all that the text is
searched for; spaces around operators neither make nor break one (`Padded.infix_iff`).
-/

namespace BorderCss

variable {scan : MathScan} {c d : Char} {piece rest text out : List Char}

/-! ## Pieces without operators -/

/-- The text has no operators and no spaces. -/
def Unspaceable (piece : List Char) : Prop :=
  ∀ c ∈ piece, c ≠ ' ' ∧ isOperator c = false

instance (piece : List Char) : Decidable (Unspaceable piece) :=
  List.decidableBAll (fun c => c ≠ ' ' ∧ isOperator c = false) piece

/-- Such a text begins with neither of what spacing writes. -/
theorem Unspaceable.head_ne (h : Unspaceable (d :: piece)) (hop : isOperator c = true) :
    d ≠ ' ' ∧ d ≠ c := by
  obtain ⟨hspace, hplain⟩ := h d List.mem_cons_self
  refine ⟨hspace, ?_⟩
  rintro rfl
  rw [hop] at hplain
  cases hplain

namespace Padded

theorem prefix_iff (h : Padded text out) (hpiece : Unspaceable piece) :
    piece <+: out ↔ piece <+: text := by
  induction h generalizing piece with
  | nil => rfl
  | keep c _ ih =>
    cases piece with
    | nil => simp
    | cons d piece =>
      rw [List.cons_prefix_cons, List.cons_prefix_cons,
        ih fun c hc => hpiece c (List.mem_cons_of_mem d hc)]
  | pad hop _ _ =>
    cases piece with
    | nil => simp
    | cons d piece =>
      obtain ⟨hspace, hne⟩ := hpiece.head_ne hop
      rw [List.cons_prefix_cons, List.cons_prefix_cons]
      exact iff_of_false (fun hout => hspace hout.1) fun htext => hne htext.1

/-- Spaces around operators neither make nor break a piece that has none of either. -/
theorem infix_iff (h : Padded text out) (hpiece : Unspaceable piece) :
    piece <:+: out ↔ piece <:+: text := by
  induction h with
  | nil => rfl
  | keep c h ih => rw [List.infix_cons_iff, List.infix_cons_iff, (h.keep c).prefix_iff hpiece, ih]
  | @pad c text out hop h ih =>
    cases piece with
    | nil => simp
    | cons d piece =>
      obtain ⟨hspace, hne⟩ := hpiece.head_ne hop
      simp only [List.infix_cons_iff, List.cons_prefix_cons, hspace, hne, false_and, false_or, ih]

end Padded

/-! ## The run over a spaced text -/

/-- The spaces of the text that follows do not change what is read. -/
theorem MathScan.read_padded (h : Padded rest out) (scan : MathScan) (c : Char) :
    scan.read c out = scan.read c rest := by
  have hahead : "var(".toList <+: c :: out ↔ "var(".toList <+: c :: rest :=
    (h.keep c).prefix_iff (by decide)
  unfold MathScan.read
  simp only [List.isPrefixOf_iff_prefix, hahead]

/-- An operator between spaces is copied with them, and behind it the same is known as behind the
operator alone. -/
theorem spaceOperators_spaced (hop : isOperator c) (scan : MathScan) (rest out : List Char) :
    spaceOperators scan (' ' :: c :: ' ' :: out) =
      ' ' :: c :: ' ' :: spaceOperators (scan.read c rest).2 out := by
  simp only [spaceOperators_cons, MathScan.read_space, MathScan.read_operator hop]
  simp

theorem spaceOperators_spaceOperators (text : List Char) : ∀ scan : MathScan,
    spaceOperators scan (spaceOperators scan text) = spaceOperators scan text := by
  induction text with
  | nil => exact fun _ => rfl
  | cons c rest ih =>
    intro scan
    have hpadded := padded_spaceOperators rest (scan.read c rest).2
    rw [spaceOperators_cons]
    obtain hkept | ⟨hspaced, hop, -⟩ := scan.read_fst c rest
    · rw [hkept, List.singleton_append, spaceOperators_cons, MathScan.read_padded hpadded, hkept,
        ih, List.singleton_append]
    · rw [hspaced]
      show spaceOperators scan (' ' :: c :: ' ' :: spaceOperators (scan.read c rest).2 rest) = _
      rw [spaceOperators_spaced hop scan rest, ih]
      rfl

/-! ## The whole -/

theorem mathFunctions_unspaceable : ∀ name ∈ mathFunctions, Unspaceable (name ++ "(").toList := by
  decide

/-- A spaced text calls the functions that the text calls. -/
theorem callsMath_spaceMath : callsMath (spaceMath text) = true ↔ callsMath text = true := by
  rw [callsMath_iff, callsMath_iff]
  refine exists_congr fun name => and_congr_right fun hname => ?_
  exact (padded_spaceMath text).infix_iff (mathFunctions_unspaceable name hname)

/-- Spacing the operators of a text whose operators are spaced changes nothing. -/
theorem spaceMath_spaceMath (text : List Char) : spaceMath (spaceMath text) = spaceMath text := by
  by_cases hcalls : callsMath text = true
  · rw [spaceMath, if_pos (callsMath_spaceMath.2 hcalls), spaceMath, if_pos hcalls,
      spaceOperators_spaceOperators]
  · rw [spaceMath_of_not_callsMath hcalls, spaceMath_of_not_callsMath hcalls]

end BorderCss
