import BorderCss.Proofs.Text.Nesting
import BorderCss.Value.MathSpacing

/-!
# What the spacing of operators leaves alone

`MathScan.read` writes the character that it reads, and around an operator outside `var(…)` it may
write a space on either side; `Padded` is the relation between a text and what such steps make of
it. A reference `var(…)` is read in three parts: `spaceOperators_opening` enters it,
`spaceOperators_within` runs through its text at a depth that never falls below that of the
reference, and the closing parenthesis leaves it. Together they copy the reference
(`spaceOperators_reference`), and the scan goes on outside of one.

Which parts of a text are references is said without the scan: `ReferenceAt` passes over the text
from the left and jumps over every reference that it meets, and `exists_referenceAt` says that no
`var(` is left out.
-/

namespace BorderCss

variable {scan : MathScan} {c : Char} {rest text out span before after : List Char}

/-! ## Spaces around operators -/

/-- The second text is the first with spaces around some of its operators. -/
inductive Padded : List Char → List Char → Prop
  | nil : Padded [] []
  | keep (c : Char) {text out : List Char} : Padded text out → Padded (c :: text) (c :: out)
  | pad {c : Char} {text out : List Char} :
      isOperator c → Padded text out → Padded (c :: text) (' ' :: c :: ' ' :: out)

namespace Padded

variable {text' out' : List Char}

theorem refl : ∀ text, Padded text text
  | [] => .nil
  | c :: text => .keep c (refl text)

theorem append (h : Padded text out) (h' : Padded text' out') :
    Padded (text ++ text') (out ++ out') := by
  induction h with
  | nil => exact h'
  | keep c _ ih => exact ih.keep c
  | pad hop _ ih => exact ih.pad hop

/-- Without their spaces, the two texts are the same. -/
theorem filter_ne_space (h : Padded text out) :
    out.filter (· ≠ ' ') = text.filter (· ≠ ' ') := by
  induction h with
  | nil => rfl
  | keep c _ ih => rw [List.filter_cons, List.filter_cons, ih]
  | pad _ _ ih =>
    rw [List.filter_cons_of_neg (by decide), List.filter_cons, List.filter_cons_of_neg (by decide),
      ih, List.filter_cons]

end Padded

/-! ## What one step writes -/

namespace MathScan

/-- A step writes its character, and spaces around it only if it is an operator outside `var(…)`. -/
theorem read_fst (scan : MathScan) (c : Char) (rest : List Char) :
    (scan.read c rest).1 = [c] ∨
      (scan.read c rest).1 = [' ', c, ' '] ∧ isOperator c ∧ scan.variableDepth = 0 := by
  unfold read
  dsimp only
  split
  · exact .inl rfl
  split
  · exact .inl rfl
  split
  · exact .inl rfl
  split
  case isTrue hop =>
    simp only [Bool.and_eq_true, decide_eq_true_eq] at hop
    exact .inr ⟨rfl, hop.1⟩
  split
  · exact .inl rfl
  split
  · exact .inl rfl
  · exact .inl rfl

theorem padded_read (h : Padded rest out) (scan : MathScan) (c : Char) (next : List Char) :
    Padded (c :: rest) ((scan.read c next).1 ++ out) := by
  obtain hwritten | ⟨hwritten, hop, -⟩ := scan.read_fst c next
  · rw [hwritten]
    exact h.keep c
  · rw [hwritten]
    exact h.pad hop

/-- Parentheses are counted, and no more are closed than were opened. -/
theorem read_depth (scan : MathScan) (c : Char) (rest : List Char) :
    (scan.read c rest).2.depth =
      if c = '(' then scan.depth + 1 else if c = ')' then scan.depth - 1 else scan.depth := by
  unfold read
  dsimp only
  split
  case isTrue hreference =>
    have hbegin : "var(".toList <+: c :: rest := List.isPrefixOf_iff_prefix.mp hreference.2
    have hc : 'v' = c := (List.cons_prefix_cons.mp hbegin).1
    rw [← hc, if_neg (by decide), if_neg (by decide)]
    rfl
  split
  · rfl
  split
  · rfl
  repeat' split
  all_goals rfl

/-- `var(` opens a reference outside of one, and the parenthesis at the depth of the reference
closes it. -/
theorem read_variableDepth (scan : MathScan) (c : Char) (rest : List Char) :
    (scan.read c rest).2.variableDepth =
      if scan.variableDepth = 0 ∧ "var(".toList <+: c :: rest then scan.depth + 1
      else if c = ')' ∧ scan.variableDepth = scan.depth then 0 else scan.variableDepth := by
  unfold read
  dsimp only
  simp only [List.isPrefixOf_iff_prefix]
  split
  · rfl
  split
  case isTrue hc =>
    rw [hc, if_neg fun h => absurd h.1 (by decide)]
    rfl
  split
  case isTrue hc =>
    simp only [hc, true_and]
  case isFalse hc =>
    have hother : ¬(c = ')' ∧ scan.variableDepth = scan.depth) := fun h => hc h.1
    rw [if_neg hother]
    repeat' split
    all_goals rfl

/-- Whether an operator is spaced is the only thing that what is known in front of it decides:
behind it, a number may start. -/
theorem read_operator (hop : isOperator c) (scan : MathScan) (rest : List Char) :
    scan.read c rest =
      (if scan.variableDepth = 0 ∧ (scan.numeric = true ∨ scan.closed = true) then [' ', c, ' ']
        else [c],
      { scan with numeric := false, closed := false, fresh := true }) := by
  simp only [isOperator, Bool.or_eq_true, decide_eq_true_eq] at hop
  obtain ((rfl | rfl) | rfl) | rfl := hop <;>
    by_cases hbinary : scan.variableDepth = 0 ∧ (scan.numeric = true ∨ scan.closed = true) <;>
    simp [read, wrote, isOperator, hbinary]

/-- A space ends a number, and behind it another one may start. -/
theorem read_space (scan : MathScan) (rest : List Char) :
    scan.read ' ' rest =
      ([' '], { scan with numeric := false, closed := false, fresh := true }) := by
  simp [read, wrote, isOperator]

/-- Inside `var(…)` every character is copied. -/
theorem read_fst_within (hwithin : scan.variableDepth ≠ 0) : (scan.read c rest).1 = [c] := by
  obtain hwritten | ⟨-, -, houtside⟩ := scan.read_fst c rest
  · exact hwritten
  · exact absurd houtside hwithin

/-- One character further into a `var(…)`, at or above its depth. -/
theorem read_within (hwithin : scan.variableDepth ≠ 0)
    (hdeep : (scan.variableDepth : Int) ≤ scan.depth + nesting '(' ')' [c]) (rest : List Char) :
    (scan.read c rest).2.variableDepth = scan.variableDepth ∧
      ((scan.read c rest).2.depth : Int) = scan.depth + nesting '(' ')' [c] := by
  have hstep : nesting '(' ')' [c] = if c = '(' then 1 else if c = ')' then -1 else 0 := by
    rw [nesting_cons (by decide), nesting_nil, Int.add_zero]
  rw [hstep] at hdeep ⊢
  rw [read_variableDepth, if_neg fun h => hwithin h.1, read_depth]
  by_cases hopen : c = '('
  · subst hopen
    rw [if_neg fun h => absurd h.1 (by decide), if_pos rfl, if_pos rfl]
    exact ⟨rfl, Int.natCast_succ _⟩
  · rw [if_neg hopen] at hdeep
    rw [if_neg hopen, if_neg hopen]
    by_cases hclose : c = ')'
    · rw [if_pos hclose] at hdeep
      -- the parenthesis cannot be the one at the depth of the reference
      have hbelow : scan.variableDepth < scan.depth := by omega
      rw [if_neg fun h => absurd h.2 hbelow.ne, if_pos hclose, if_pos hclose]
      exact ⟨rfl, by omega⟩
    · rw [if_neg fun h => hclose h.1, if_neg hclose, if_neg hclose]
      exact ⟨rfl, (Int.add_zero _).symm⟩

/-- The parenthesis that closes a `var(…)` leaves it. -/
theorem read_closing (hwithin : scan.variableDepth ≠ 0) (hlevel : scan.depth = scan.variableDepth)
    (rest : List Char) :
    (scan.read ')' rest).1 = [')'] ∧ (scan.read ')' rest).2.variableDepth = 0 := by
  refine ⟨read_fst_within hwithin, ?_⟩
  rw [read_variableDepth, if_neg fun h => hwithin h.1, if_pos ⟨rfl, hlevel.symm⟩]

/-- Outside of `var(…)` the scan stays outside until the next one begins. -/
theorem read_outside (houtside : scan.variableDepth = 0)
    (hnone : ¬"var(".toList <+: c :: rest) : (scan.read c rest).2.variableDepth = 0 := by
  rw [read_variableDepth, if_neg fun h => hnone h.2, houtside, ite_self]

end MathScan

/-! ## The run over a text -/

theorem spaceOperators_cons (scan : MathScan) (c : Char) (rest : List Char) :
    spaceOperators scan (c :: rest) =
      (scan.read c rest).1 ++ spaceOperators (scan.read c rest).2 rest := rfl

/-- Whatever is known before the text, only spaces around operators are added to it. -/
theorem padded_spaceOperators : ∀ (text : List Char) (scan : MathScan),
    Padded text (spaceOperators scan text)
  | [], _ => .nil
  | c :: rest, scan => MathScan.padded_read (padded_spaceOperators rest _) scan c rest

/-- What is known behind a text, when `rest` follows it. -/
def MathScan.run (scan : MathScan) : List Char → List Char → MathScan
  | [], _ => scan
  | c :: text, rest => (scan.read c (text ++ rest)).2.run text rest

@[simp] theorem MathScan.run_nil (scan : MathScan) (rest : List Char) : scan.run [] rest = scan :=
  rfl

theorem MathScan.run_cons (scan : MathScan) (c : Char) (text rest : List Char) :
    scan.run (c :: text) rest = (scan.read c (text ++ rest)).2.run text rest := rfl

theorem MathScan.run_append (text text' rest : List Char) : ∀ scan : MathScan,
    scan.run (text ++ text') rest = (scan.run text (text' ++ rest)).run text' rest := by
  induction text with
  | nil => exact fun _ => rfl
  | cons c text ih =>
    intro scan
    rw [List.cons_append, run_cons, run_cons, ih, List.append_assoc]

/-- A text is written in two parts, the second one from what is known behind the first. -/
theorem spaceOperators_append (text rest : List Char) : ∀ scan : MathScan,
    ∃ out, Padded text out ∧
      spaceOperators scan (text ++ rest) = out ++ spaceOperators (scan.run text rest) rest := by
  induction text with
  | nil => exact fun scan => ⟨[], .nil, rfl⟩
  | cons c text ih =>
    intro scan
    obtain ⟨out, hout, hrun⟩ := ih (scan.read c (text ++ rest)).2
    refine ⟨(scan.read c (text ++ rest)).1 ++ out, MathScan.padded_read hout _ _ _, ?_⟩
    rw [List.cons_append, spaceOperators_cons, hrun, List.append_assoc]
    rfl

/-- Through a text that never falls below the depth of the `var(…)` around it, the scan copies and
stays in that `var(…)`. -/
theorem spaceOperators_within (body rest : List Char) :
    ∀ scan : MathScan, scan.variableDepth ≠ 0 →
      (∀ start, start <+: body →
        (scan.variableDepth : Int) ≤ scan.depth + nesting '(' ')' start) →
      spaceOperators scan (body ++ rest) = body ++ spaceOperators (scan.run body rest) rest ∧
        (scan.run body rest).variableDepth = scan.variableDepth ∧
        ((scan.run body rest).depth : Int) = scan.depth + nesting '(' ')' body := by
  induction body with
  | nil =>
    intro scan _ _
    exact ⟨rfl, rfl, (Int.add_zero _).symm⟩
  | cons c body ih =>
    intro scan hwithin hdeep
    rw [forall_prefix_cons] at hdeep
    obtain ⟨-, hdeep⟩ := hdeep
    obtain ⟨hvariable, hdepth⟩ :=
      MathScan.read_within hwithin (hdeep [] body.nil_prefix) (body ++ rest)
    obtain ⟨hrun, hvariable', hdepth'⟩ := ih (scan.read c (body ++ rest)).2
      (hvariable ▸ hwithin) fun start hstart => by
        rw [hvariable, hdepth, Int.add_assoc, ← nesting_append]
        exact hdeep start hstart
    rw [MathScan.run_cons]
    refine ⟨?_, hvariable'.trans hvariable, ?_⟩
    · rw [List.cons_append, spaceOperators_cons, MathScan.read_fst_within hwithin, hrun]
      rfl
    · rw [hdepth', hdepth, Int.add_assoc, ← nesting_append]
      rfl

/-- `var(` is copied, and the scan goes on at the depth of the parenthesis that it opens. -/
theorem spaceOperators_opening (houtside : scan.variableDepth = 0) (rest : List Char) :
    scan.run "var(".toList rest =
        { variableDepth := scan.depth + 1, depth := scan.depth + 1 } ∧
      spaceOperators scan ("var(".toList ++ rest) =
        "var(".toList ++
          spaceOperators { variableDepth := scan.depth + 1, depth := scan.depth + 1 } rest := by
  have hreference : scan.read 'v' ('a' :: 'r' :: '(' :: rest) =
      (['v'], { variableDepth := scan.depth + 1, depth := scan.depth, fresh := false }) :=
    if_pos ⟨houtside, rfl⟩
  constructor
  · show (scan.read 'v' ('a' :: 'r' :: '(' :: rest)).2.run ['a', 'r', '('] rest = _
    rw [hreference]
    simp [MathScan.run, MathScan.read, MathScan.wrote, isOperator]
  · show spaceOperators scan ('v' :: 'a' :: 'r' :: '(' :: rest) = _
    rw [spaceOperators_cons, hreference]
    simp [spaceOperators_cons, MathScan.read, MathScan.wrote, isOperator]

/-! ## References -/

/-- The first text is a reference that begins with `var(` and ends at its closing parenthesis, or
is left open up to the end, when the second text follows it. -/
inductive Reference : List Char → List Char → Prop
  | closed {body after : List Char} :
      Balanced '(' ')' body → Reference ("var(".toList ++ (body ++ [')'])) after
  | unclosed {body : List Char} : Nested '(' ')' body → Reference ("var(".toList ++ body) []

/-- The second text is a reference that stands between the first and the third, and not within
another reference. -/
inductive ReferenceAt : List Char → List Char → List Char → Prop
  | here {span after : List Char} : Reference span after → ReferenceAt [] span after
  | skip {c : Char} {before span after : List Char} :
      ¬"var(".toList <+: c :: (before ++ span ++ after) →
        ReferenceAt before span after → ReferenceAt (c :: before) span after
  | past {first before span after : List Char} :
      Reference first (before ++ span ++ after) →
        ReferenceAt before span after → ReferenceAt (first ++ before) span after

/-- Every `var(` begins a reference. -/
theorem exists_reference (rest : List Char) :
    ∃ span after, "var(".toList ++ rest = span ++ after ∧ Reference span after := by
  obtain hopen | ⟨body, after, rfl, hclosed⟩ := nested_or_closed (by decide : '(' ≠ ')') rest
  · exact ⟨"var(".toList ++ rest, [], (List.append_nil _).symm, .unclosed hopen⟩
  · refine ⟨"var(".toList ++ (body ++ [')']), after, ?_, .closed hclosed⟩
    rw [List.append_assoc, List.append_assoc]
    rfl

theorem Reference.ne_nil (h : Reference span after) : span ≠ [] := by
  cases h with
  | closed _ => exact List.cons_ne_nil _ _
  | unclosed _ => exact List.cons_ne_nil _ _

/-- Every `var(` begins a reference of the text, or stands within one. -/
theorem exists_referenceAt (rest : List Char) : ∀ before : List Char,
    ∃ start span after, before ++ ("var(".toList ++ rest) = start ++ span ++ after ∧
      ReferenceAt start span after ∧
      start.length ≤ before.length ∧ before.length < (start ++ span).length
  | [] => by
    obtain ⟨span, after, hsplit, hspan⟩ := exists_reference rest
    exact ⟨[], span, after, hsplit, .here hspan, Nat.le_refl 0,
      List.length_pos_iff.mpr hspan.ne_nil⟩
  | c :: before => by
    by_cases hvariable : "var(".toList <+: c :: (before ++ ("var(".toList ++ rest))
    · obtain ⟨within, hwithin⟩ := hvariable
      obtain ⟨first, later, hsplit, hfirst⟩ := exists_reference within
      have htext : c :: before ++ ("var(".toList ++ rest) = first ++ later :=
        hwithin.symm.trans hsplit
      by_cases hlength : (c :: before).length < first.length
      · exact ⟨[], first, later, htext, .here hfirst, Nat.zero_le _, hlength⟩
      · -- the reference in front ends before the `var(`
        obtain ⟨before', hbefore⟩ : first <+: c :: before :=
          List.prefix_of_prefix_length_le (List.prefix_append first later)
            (htext ▸ List.prefix_append (c :: before) _) (Nat.le_of_not_lt hlength)
        have hshorter : before'.length < (c :: before).length := by
          have hpos := List.length_pos_iff.mpr hfirst.ne_nil
          rw [← hbefore, List.length_append]
          omega
        obtain ⟨start, span, after, hrest, hspan, hle, hlt⟩ := exists_referenceAt rest before'
        have hlater : later = start ++ span ++ after := by
          rw [← hrest]
          rw [← hbefore, List.append_assoc] at htext
          exact (List.append_cancel_left htext).symm
        refine ⟨first ++ start, span, after, ?_, .past (hlater ▸ hfirst) hspan, ?_, ?_⟩
        · rw [htext, hlater, List.append_assoc, List.append_assoc, List.append_assoc]
        · rw [← hbefore, List.length_append, List.length_append]
          omega
        · rw [← hbefore, List.append_assoc, List.length_append, List.length_append]
          omega
    · obtain ⟨start, span, after, hrest, hspan, hle, hlt⟩ := exists_referenceAt rest before
      rw [hrest] at hvariable
      refine ⟨c :: start, span, after, ?_, .skip hvariable hspan, Nat.succ_le_succ hle,
        Nat.succ_lt_succ hlt⟩
      rw [List.cons_append, hrest]
      rfl
termination_by before => before.length
decreasing_by
  · exact hshorter
  · exact Nat.lt_succ_self before.length

theorem ReferenceAt.ne_nil (h : ReferenceAt before span after) : span ≠ [] := by
  induction h with
  | here hreference => exact hreference.ne_nil
  | skip _ _ ih => exact ih
  | past _ _ ih => exact ih

/-- The text of a reference is copied, and the scan stays at or above the depth of the reference. -/
theorem spaceOperators_reference_body {body : List Char} (houtside : scan.variableDepth = 0)
    (hnested : Nested '(' ')' body) (rest : List Char) :
    spaceOperators scan ("var(".toList ++ body ++ rest) =
        "var(".toList ++ body ++
          spaceOperators (scan.run ("var(".toList ++ body) rest) rest ∧
      (scan.run ("var(".toList ++ body) rest).variableDepth ≠ 0 ∧
      ((scan.run ("var(".toList ++ body) rest).depth : Int) =
        (scan.run ("var(".toList ++ body) rest).variableDepth + nesting '(' ')' body := by
  obtain ⟨hopening, hwritten⟩ := spaceOperators_opening houtside (body ++ rest)
  obtain ⟨hrun, hvariable, hdepth⟩ := spaceOperators_within body rest
    { variableDepth := scan.depth + 1, depth := scan.depth + 1 } (Nat.succ_ne_zero _)
    fun start hstart => Int.le_add_of_nonneg_right (hnested start hstart)
  rw [MathScan.run_append, hopening]
  refine ⟨?_, ?_, ?_⟩
  · rw [List.append_assoc, hwritten, hrun, List.append_assoc]
  · rw [hvariable]
    exact Nat.succ_ne_zero _
  · rw [hdepth, hvariable]

/-- **A reference is copied**, and behind it, unless the text is at its end, the scan is outside of
references again. -/
theorem spaceOperators_reference (houtside : scan.variableDepth = 0)
    (h : Reference span after) :
    spaceOperators scan (span ++ after) = span ++ spaceOperators (scan.run span after) after ∧
      (after ≠ [] → (scan.run span after).variableDepth = 0) := by
  cases h with
  | @closed body _ hbody =>
    obtain ⟨hrun, hwithin, hdepth⟩ :=
      spaceOperators_reference_body houtside hbody.nested (')' :: after)
    rw [hbody.level, Int.add_zero] at hdepth
    obtain ⟨hwritten, hleft⟩ := MathScan.read_closing hwithin (Int.natCast_inj.mp hdepth) after
    rw [← List.append_assoc, MathScan.run_append, MathScan.run_cons, MathScan.run_nil,
      List.singleton_append, List.nil_append]
    refine ⟨?_, fun _ => hleft⟩
    rw [spaceOperators_cons, hwritten] at hrun
    simpa only [List.append_assoc, List.singleton_append] using hrun
  | @unclosed body hbody =>
    refine ⟨?_, fun hne => absurd rfl hne⟩
    simpa only [List.append_nil] using (spaceOperators_reference_body houtside hbody []).1

/-- References outside of each other are copied, wherever they stand. -/
theorem spaceOperators_referenceAt (h : ReferenceAt before span after) :
    ∀ scan : MathScan, scan.variableDepth = 0 →
      ∃ before' after', spaceOperators scan (before ++ span ++ after) = before' ++ span ++ after' ∧
        Padded before before' ∧ Padded after after' := by
  induction h with
  | @here span after hreference =>
    intro scan houtside
    obtain ⟨hrun, -⟩ := spaceOperators_reference houtside hreference
    exact ⟨[], _, hrun, .nil, padded_spaceOperators _ _⟩
  | @skip c before span after hnone _ ih =>
    intro scan houtside
    obtain ⟨before', after', hrun, hbefore, hafter⟩ :=
      ih _ (MathScan.read_outside houtside hnone)
    refine ⟨(scan.read c (before ++ span ++ after)).1 ++ before', after', ?_,
      MathScan.padded_read hbefore _ _ _, hafter⟩
    rw [List.cons_append, List.cons_append, spaceOperators_cons, hrun]
    simp only [List.append_assoc]
  | @past first before span after hfirst hspan ih =>
    intro scan houtside
    obtain ⟨hrun, hleft⟩ := spaceOperators_reference houtside hfirst
    have hnext : before ++ span ++ after ≠ [] := by
      simp [hspan.ne_nil]
    obtain ⟨before', after', hrun', hbefore, hafter⟩ := ih _ (hleft hnext)
    refine ⟨first ++ before', after', ?_, (Padded.refl first).append hbefore, hafter⟩
    rw [hrun'] at hrun
    simpa only [List.append_assoc] using hrun

/-! ## The operators of a text -/

theorem occursIn_iff_infix {piece : List Char} : occursIn piece text = true ↔ piece <:+: text := by
  induction text with
  | nil => rw [occursIn, List.isEmpty_iff, List.infix_nil]
  | cons c rest ih =>
    rw [occursIn, Bool.or_eq_true, List.isPrefixOf_iff_prefix, ih, List.infix_cons_iff]

/-- A text calls a math function if its name stands somewhere in front of a parenthesis. -/
theorem callsMath_iff :
    callsMath text = true ↔ ∃ name ∈ mathFunctions, (name ++ "(").toList <:+: text := by
  simp only [callsMath, List.any_eq_true, occursIn_iff_infix, String.toList_append]
  rfl

theorem spaceMath_of_not_callsMath (h : ¬callsMath text = true) : spaceMath text = text :=
  if_neg h

theorem padded_spaceMath (text : List Char) : Padded text (spaceMath text) := by
  unfold spaceMath
  split
  · exact padded_spaceOperators text {}
  · exact .refl text

/-- **The spacing of operators is conservative.** The text gets nothing but spaces around its
operators, so that without spaces it is what it was; and every reference that does not stand within
another one, closed or open, is in the result as it was. -/
theorem spaceMath_conservative (text : List Char) :
    Padded text (spaceMath text) ∧
      (spaceMath text).filter (· ≠ ' ') = text.filter (· ≠ ' ') ∧
      ∀ before span after, text = before ++ span ++ after → ReferenceAt before span after →
        ∃ before' after', spaceMath text = before' ++ span ++ after' ∧
          Padded before before' ∧ Padded after after' := by
  refine ⟨padded_spaceMath text, (padded_spaceMath text).filter_ne_space, ?_⟩
  rintro before span after rfl hspan
  unfold spaceMath
  split
  · exact spaceOperators_referenceAt hspan {} rfl
  · exact ⟨before, after, rfl, .refl before, .refl after⟩

example : spaceMath "calc(2*var(--a-b)-1px)".toList = "calc(2 * var(--a-b) - 1px)".toList := by
  decide +kernel

/-- The hyphen of a reference is not spaced, the operators on both sides of it may be. -/
theorem spaceMath_conservative_reference :
    "calc(2*var(--a-b)-1px)".toList =
        "calc(2*".toList ++ "var(--a-b)".toList ++ "-1px)".toList ∧
      ReferenceAt "calc(2*".toList "var(--a-b)".toList "-1px)".toList ∧
      ∃ before' after',
        spaceMath "calc(2*var(--a-b)-1px)".toList = before' ++ "var(--a-b)".toList ++ after' ∧
          Padded "calc(2*".toList before' ∧ Padded "-1px)".toList after' := by
  have hreference : Reference "var(--a-b)".toList "-1px)".toList :=
    .closed (show Balanced '(' ')' "--a-b".toList by decide)
  have hspan : ReferenceAt "calc(2*".toList "var(--a-b)".toList "-1px)".toList :=
    .skip (by decide) (.skip (by decide) (.skip (by decide) (.skip (by decide) (.skip (by decide)
      (.skip (by decide) (.skip (by decide) (.here hreference)))))))
  exact ⟨rfl, hspan, (spaceMath_conservative _).2.2 _ _ _ rfl hspan⟩

end BorderCss
