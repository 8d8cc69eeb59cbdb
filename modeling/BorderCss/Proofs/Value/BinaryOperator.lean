import BorderCss.Proofs.Text.Call
import BorderCss.Proofs.Value.MathSpacing

/-!
# Which operators are spaced

Whether an operator is spaced is decided by the text in front of it (`IsBinary`): it directly
follows a closing parenthesis or a numeric token with its unit, and no `var(…)` is open. What a
`MathScan` knows at any place is what this text says (`MathScan.Knows`, which every step preserves,
and `MathScan.run_outside_iff`), so the operators that are spaced are the binary ones
(`MathScan.read_fst_eq_iff`), and a piece of a text is written as it stands just if none of its
characters is one (`keeps_spaceMath_iff`).
-/

namespace BorderCss

variable {scan : MathScan} {c : Char} {before span after rest text out : List Char}

/-! ## What stands in front of an operator -/

/-- A numeric token may begin behind the character. -/
def opensToken (c : Char) : Bool :=
  c = '(' || c = ',' || c = ' ' || isOperator c

/-- The character may begin a numeric token. -/
def beginsToken (c : Char) : Bool :=
  c.isDigit || c = '.'

/-- The character may go on with a numeric token, or with its unit. -/
def continuesToken (c : Char) : Bool :=
  beginsToken c || c.isAlpha || c = '%'

/-- A numeric token may begin at the end of the text. -/
def Fresh (before : List Char) : Prop :=
  ∀ c ∈ before.getLast?, opensToken c = true

/-- The text ends with a numeric token, possibly with a unit. -/
def EndsNumeric (before : List Char) : Prop :=
  ∃ lead token, before = lead ++ token ∧ Fresh lead ∧ (∃ c ∈ token.head?, beginsToken c = true) ∧
    ∀ c ∈ token, continuesToken c = true

/-- An operator behind the text is a binary one, outside of every `var(…)`. -/
structure IsBinary (before : List Char) (c : Char) : Prop where
  operator : isOperator c = true
  follows : before.getLast? = some ')' ∨ EndsNumeric before
  outside : ¬InCall "var" before

@[simp] theorem fresh_nil : Fresh [] := nofun

@[simp] theorem fresh_concat : Fresh (before ++ [c]) ↔ opensToken c = true := by
  simp [Fresh]

theorem continuesToken_of_isOperator (h : isOperator c = true) : continuesToken c = false := by
  simp only [isOperator, Bool.or_eq_true, decide_eq_true_eq] at h
  obtain ((rfl | rfl) | rfl) | rfl := h <;> rfl

theorem not_endsNumeric_nil : ¬EndsNumeric [] := by
  rintro ⟨lead, token, htext, -, ⟨c, hc, -⟩, -⟩
  obtain ⟨-, rfl⟩ := List.append_eq_nil_iff.1 htext.symm
  cases hc

/-- A numeric token goes on, or begins where it may. -/
theorem endsNumeric_concat : EndsNumeric (before ++ [c]) ↔
    continuesToken c = true ∧ (EndsNumeric before ∨ Fresh before ∧ beginsToken c = true) := by
  constructor
  · rintro ⟨lead, token, htext, hlead, ⟨d, hd, hbegins⟩, htoken⟩
    obtain rfl | ⟨token, e, rfl⟩ := token.eq_nil_or_concat'
    · cases hd
    rw [← List.append_assoc] at htext
    obtain ⟨rfl, he⟩ := List.append_inj' htext rfl
    obtain rfl := List.singleton_inj.1 he
    refine ⟨htoken c (by simp), ?_⟩
    cases token with
    | nil =>
      obtain rfl := Option.some.inj hd
      rw [List.append_nil]
      exact .inr ⟨hlead, hbegins⟩
    | cons f token =>
      exact .inl ⟨lead, f :: token, rfl, hlead, ⟨d, hd, hbegins⟩,
        fun g hg => htoken g (List.mem_append_left _ hg)⟩
  · rintro ⟨hc, ⟨lead, token, rfl, hlead, ⟨d, hd, hbegins⟩, htoken⟩ | ⟨hfresh, hbegins⟩⟩
    · refine ⟨lead, token ++ [c], List.append_assoc .., hlead, ⟨d, ?_, hbegins⟩, ?_⟩
      · rw [List.head?_append, Option.mem_def.1 hd]
        rfl
      · simp only [List.mem_append, List.mem_singleton]
        rintro e (he | rfl)
        · exact htoken e he
        · exact hc
    · exact ⟨before, [c], rfl, hfresh, ⟨c, rfl, hbegins⟩, by simpa using hc⟩

/-! ## What the scan knows -/

/-- Except inside a `var(…)`, the scan knows how the text in front of it ends. -/
structure MathScan.Knows (scan : MathScan) (before : List Char) : Prop where
  fresh : scan.fresh = true ↔ Fresh before
  closed : scan.closed = true ↔ before.getLast? = some ')' ∧ scan.variableDepth = 0
  numeric : scan.variableDepth = 0 → (scan.numeric = true ↔ EndsNumeric before)

namespace MathScan

theorem knows_start : ({} : MathScan).Knows [] where
  fresh := by simp
  closed := by simp
  numeric _ := by simp [not_endsNumeric_nil]

theorem read_fresh (scan : MathScan) (c : Char) (rest : List Char) :
    (scan.read c rest).2.fresh = opensToken c := by
  unfold read
  dsimp only
  split
  · rfl
  split
  · rfl
  split
  · rfl
  split
  case isTrue hop =>
    simp only [Bool.and_eq_true] at hop
    simp [opensToken, hop.1.1]
  repeat' split
  all_goals rfl

theorem read_closed (scan : MathScan) (c : Char) (rest : List Char) :
    (scan.read c rest).2.closed = true ↔
      c = ')' ∧ (scan.read c rest).2.variableDepth = 0 := by
  unfold read
  dsimp only
  split
  case isTrue hreference => simp [wrote]
  split
  case isTrue hopen => simp [wrote, hopen]
  split
  case isTrue hclose =>
    simp only [hclose, true_and, decide_eq_true_eq]
  case isFalse hclose =>
    repeat' split
    all_goals simp [wrote, hclose]

/-- Behind a character that is not copied as a part of `var(…)`, a numeric token is at its end if it
has gone on with the character, or begun with it. -/
theorem read_numeric (houtside : (scan.read c rest).2.variableDepth = 0) :
    (scan.read c rest).2.numeric = true ↔
      continuesToken c = true ∧
        (scan.numeric = true ∨ scan.fresh = true ∧ beginsToken c = true) := by
  have hreference : ¬(scan.variableDepth = 0 ∧ "var(".toList.isPrefixOf (c :: rest) = true) := by
    intro h
    rw [read_variableDepth, if_pos (by rwa [← List.isPrefixOf_iff_prefix])] at houtside
    cases houtside
  by_cases hclose : c = ')'
  · subst hclose
    simp [read, continuesToken, beginsToken]
  have hbefore : scan.variableDepth = 0 := by
    rwa [read_variableDepth, if_neg (by rwa [← List.isPrefixOf_iff_prefix]),
      if_neg fun h => hclose h.1] at houtside
  unfold read
  dsimp only
  rw [if_neg hreference]
  split
  case isTrue hopen => simp [hopen, continuesToken, beginsToken]
  split
  case isTrue hop =>
    simp only [Bool.and_eq_true] at hop
    simp [continuesToken_of_isOperator hop.1.1]
  split
  case isTrue hbegins =>
    have hbegins : beginsToken c = true := hbegins
    simp [continuesToken, hbegins, hbefore]
  case isFalse hbegins =>
    have hbegins : beginsToken c = false := Bool.eq_false_iff.2 hbegins
    split
    case isTrue hunit =>
      have hcontinues : continuesToken c = true := by
        rw [continuesToken, hbegins]
        exact hunit
      simp [hcontinues, hbegins, wrote]
    case isFalse hunit =>
      have hcontinues : continuesToken c = false := by
        rw [continuesToken, hbegins]
        exact Bool.eq_false_iff.2 hunit
      simp [hcontinues]

theorem Knows.read (h : scan.Knows before) (c : Char) (rest : List Char) :
    (scan.read c rest).2.Knows (before ++ [c]) where
  fresh := by rw [read_fresh, fresh_concat]
  closed := by rw [read_closed, List.getLast?_concat, Option.some.injEq]
  numeric houtside := by
    rw [read_numeric houtside, endsNumeric_concat, h.fresh]
    refine and_congr_right fun hc => ?_
    have hbefore : scan.variableDepth = 0 := by
      have hclose : c ≠ ')' := by
        rintro rfl
        cases hc
      rw [read_variableDepth] at houtside
      split at houtside
      · cases houtside
      · rwa [if_neg fun hend => hclose hend.1] at houtside
    rw [h.numeric hbefore]

/-- What the scan knows is preserved by a run. -/
theorem Knows.run (text rest : List Char) : ∀ {scan : MathScan} {before : List Char},
    scan.Knows before → (scan.run text rest).Knows (before ++ text) := by
  induction text with
  | nil =>
    intro scan before h
    rwa [List.append_nil]
  | cons c text ih =>
    intro scan before h
    have hrest := ih (h.read c (text ++ rest))
    rwa [List.append_assoc] at hrest

theorem varName_open : '(' ∉ "var".toList := by
  decide

theorem varName_close : ')' ∉ "var".toList := by
  decide

/-- A character that is not in the middle of `var(` does not stand in one. -/
theorem exists_body_of_opening {b : Char} (hc : c ∉ "ar(".toList)
    (h : "var(".toList <+: b :: (before ++ c :: after)) :
    ∃ body, b :: before = "var(".toList ++ body := by
  obtain ⟨body, hbody⟩ | ⟨left, hstart, hleft⟩ :=
    prefix_append_cases (show "var(".toList <+: (b :: before) ++ c :: after from h)
  · exact ⟨body, hbody.symm⟩
  · cases left with
    | nil => exact ⟨[], by rw [List.append_nil, hstart, List.append_nil]⟩
    | cons d left =>
      obtain ⟨rfl, -⟩ := List.cons_prefix_cons.1 hleft
      have hrest : "ar(".toList = before ++ d :: left := (List.cons.inj hstart).2
      exact absurd (hrest ▸ by simp) hc

/-- In front of a character that is not in the middle of `var(`, the scan is outside of references
just if no `var(…)` is open. -/
theorem run_outside_iff (hc : c ∉ "ar(".toList) (after : List Char) :
    ∀ (before : List Char) (scan : MathScan), scan.variableDepth = 0 →
      ((scan.run before (c :: after)).variableDepth = 0 ↔ ¬InCall "var" before)
  | [], scan, houtside => iff_of_true houtside not_inCall_nil
  | b :: before, scan, houtside => by
    by_cases hvariable : "var(".toList <+: b :: (before ++ c :: after)
    · obtain ⟨body, hbody⟩ := exists_body_of_opening hc hvariable
      obtain hopen | ⟨inner, before', rfl, hinner⟩ :=
        nested_or_closed (by decide : '(' ≠ ')') body
      · rw [hbody]
        obtain ⟨-, hwithin, -⟩ := spaceOperators_reference_body houtside hopen (c :: after)
        exact iff_of_false hwithin fun hnot => hnot ⟨[], body, rfl, hopen⟩
      · -- the reference is left again, and what follows it is shorter
        have hclosed : b :: before = "var(".toList ++ inner ++ [')'] ++ before' := by
          rw [hbody]
          simp
        have hshorter : before'.length < (b :: before).length := by
          rw [hclosed, List.length_append, List.length_append, List.length_singleton]
          omega
        have hcall : InCall "var" (b :: before) ↔ InCall "var" before' := by
          rw [hclosed]
          exact inCall_balanced_append_iff varName_open varName_close
            (balanced_call varName_open varName_close hinner)
        have hleft : (scan.run ("var(".toList ++ inner ++ [')'])
            (before' ++ c :: after)).variableDepth = 0 := by
          have hreference : Reference ("var(".toList ++ (inner ++ [')'])) (before' ++ c :: after) :=
            .closed hinner
          rw [List.append_assoc]
          exact (spaceOperators_reference houtside hreference).2 (by simp)
        rw [hcall, hclosed, run_append]
        exact run_outside_iff hc after before' _ hleft
    · have hnone : ¬("var" ++ "(").toList <+: b :: before := fun hstart =>
        hvariable (hstart.trans (List.prefix_append (b :: before) (c :: after)))
      rw [inCall_cons_iff hnone]
      exact run_outside_iff hc after before _ (read_outside houtside hvariable)
termination_by before => before.length
decreasing_by
  · exact hshorter
  · exact Nat.lt_succ_self before.length

theorem notMem_opening_of_isOperator (hop : isOperator c = true) : c ∉ "ar(".toList := by
  simp only [isOperator, Bool.or_eq_true, decide_eq_true_eq] at hop
  obtain ((rfl | rfl) | rfl) | rfl := hop <;> decide

/-- **The operators that are spaced are the binary ones.** Every other character is copied. -/
theorem read_fst_eq_iff (before : List Char) (c : Char) (after : List Char) :
    ((({} : MathScan).run before (c :: after)).read c after).1 = [c] ↔ ¬IsBinary before c := by
  by_cases hop : isOperator c = true
  · have hknows := knows_start.run before (c :: after)
    rw [List.nil_append] at hknows
    have houtside := run_outside_iff (notMem_opening_of_isOperator hop) after before {} rfl
    rw [read_operator hop]
    generalize ({} : MathScan).run before (c :: after) = scan at hknows houtside
    have hbinary : scan.variableDepth = 0 ∧ (scan.numeric = true ∨ scan.closed = true) ↔
        IsBinary before c := by
      constructor
      · rintro ⟨hzero, hfollows⟩
        refine ⟨hop, hfollows.symm.imp (fun hclosed => ?_) (hknows.numeric hzero).1,
          houtside.1 hzero⟩
        exact (hknows.closed.1 hclosed).1
      · rintro ⟨-, hfollows, hnocall⟩
        have hzero := houtside.2 hnocall
        exact ⟨hzero, hfollows.symm.imp (hknows.numeric hzero).2 fun hclosed =>
          hknows.closed.2 ⟨hclosed, hzero⟩⟩
    rw [← hbinary]
    split
    · next hspaced => simp [hspaced]
    · next hkept => simp [hkept]
  · refine iff_of_true ?_ fun hbinary => hop hbinary.operator
    obtain hkept | ⟨-, hspaced, -⟩ := (({} : MathScan).run before (c :: after)).read_fst c after
    · exact hkept
    · exact absurd hspaced hop

end MathScan

/-- Whether an operator is a binary one is seen from how it is written at the end of a text. -/
instance (before : List Char) (c : Char) : Decidable (IsBinary before c) :=
  decidable_of_iff (¬((({} : MathScan).run before [c]).read c []).1 = [c])
    ((not_congr (MathScan.read_fst_eq_iff before c [])).trans Classical.not_not)

/-! ## What is copied -/

/-- The span between two texts is in the output as it is, at its place. -/
def Keeps (before span after out : List Char) : Prop :=
  ∃ before' after', out = before' ++ span ++ after' ∧ Padded before before' ∧ Padded after after'

/-- What is made of a text can be told from what follows it. -/
theorem Padded.append_inj {out' rest' : List Char} (h : Padded text out) (h' : Padded text out')
    (happend : out ++ rest = out' ++ rest') : out = out' ∧ rest = rest' := by
  induction h generalizing out' with
  | nil =>
    cases h'
    exact ⟨rfl, happend⟩
  | keep c _ ih =>
    cases h' with
    | keep _ h' =>
      obtain ⟨-, happend⟩ := List.cons.inj happend
      obtain ⟨rfl, rfl⟩ := ih h' happend
      exact ⟨rfl, rfl⟩
    | pad hop h' =>
      obtain ⟨rfl, -⟩ := List.cons.inj happend
      cases hop
  | @pad c _ _ hop _ ih =>
    cases h' with
    | keep _ h' =>
      obtain ⟨rfl, -⟩ := List.cons.inj happend
      cases hop
    | pad _ h' =>
      obtain ⟨-, happend⟩ := List.cons.inj happend
      obtain ⟨-, happend⟩ := List.cons.inj happend
      obtain ⟨-, happend⟩ := List.cons.inj happend
      obtain ⟨rfl, rfl⟩ := ih h' happend
      exact ⟨rfl, rfl⟩

/-- A span without binary operators is copied. -/
theorem spaceOperators_span (span : List Char) : ∀ before : List Char,
    (∀ start c rest, span = start ++ c :: rest → ¬IsBinary (before ++ start) c) →
      spaceOperators (({} : MathScan).run before (span ++ after)) (span ++ after) =
        span ++ spaceOperators (({} : MathScan).run (before ++ span) after) after := by
  induction span with
  | nil =>
    intro before _
    rw [List.append_nil]
    rfl
  | cons c span ih =>
    intro before hnone
    have hkept := (MathScan.read_fst_eq_iff before c (span ++ after)).2 (by
      simpa using hnone [] c span rfl)
    have hrest := ih (before ++ [c]) fun start d rest hspan => by
      rw [List.append_assoc]
      exact hnone (c :: start) d rest (congrArg (c :: ·) hspan)
    rw [MathScan.run_append, List.append_assoc] at hrest
    rw [List.cons_append, spaceOperators_cons, hkept, List.singleton_append]
    exact congrArg (c :: ·) hrest

/-- A span is copied just if it has no binary operators. -/
theorem keeps_spaceOperators_iff :
    Keeps before span after (spaceOperators {} (before ++ span ++ after)) ↔
      ∀ start c rest, span = start ++ c :: rest → ¬IsBinary (before ++ start) c := by
  constructor
  · rintro ⟨before', after', hout, hbefore, -⟩ start c rest rfl hbinary
    obtain ⟨out, hpadded, hrun⟩ := spaceOperators_append (before ++ start) (c :: (rest ++ after)) {}
    have hchanged := (MathScan.read_fst_eq_iff (before ++ start) c (rest ++ after)).not.2
      (not_not_intro hbinary)
    have hspaced := (MathScan.read_fst _ c (rest ++ after)).resolve_left hchanged
    rw [spaceOperators_cons, hspaced.1] at hrun
    have htext : before ++ (start ++ c :: rest) ++ after =
        before ++ start ++ c :: (rest ++ after) := by
      simp only [List.append_assoc, List.cons_append]
    rw [htext, hrun, List.append_assoc before', List.append_assoc start,
      ← List.append_assoc before'] at hout
    -- the output goes on with a space, not with the operator
    obtain ⟨-, hnext⟩ := hpadded.append_inj (hbefore.append (.refl start)) hout
    obtain rfl : ' ' = c := (List.cons.inj hnext).1
    cases hbinary.operator
  · intro hnone
    obtain ⟨before', hbefore, hrun⟩ := spaceOperators_append before (span ++ after) {}
    rw [spaceOperators_span span before hnone] at hrun
    refine ⟨before', spaceOperators (({} : MathScan).run (before ++ span) after) after, ?_, hbefore,
      padded_spaceOperators after _⟩
    rw [List.append_assoc, hrun, List.append_assoc]

/-- A span of a text is written as it stands just if the text calls no math function or none of the
characters of the span is a binary operator. -/
theorem keeps_spaceMath_iff :
    Keeps before span after (spaceMath (before ++ span ++ after)) ↔
      (callsMath (before ++ span ++ after) = true →
        ∀ start c rest, span = start ++ c :: rest → ¬IsBinary (before ++ start) c) := by
  by_cases hcalls : callsMath (before ++ span ++ after) = true
  · rw [spaceMath, if_pos hcalls, keeps_spaceOperators_iff]
    exact ⟨fun hnone _ => hnone, fun hnone => hnone hcalls⟩
  · rw [spaceMath_of_not_callsMath hcalls]
    exact iff_of_true ⟨before, after, rfl, .refl before, .refl after⟩ fun h => absurd h hcalls

end BorderCss
