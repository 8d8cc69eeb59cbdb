import BorderCss.Proofs.Rule.Gathering

/-!
# The order of joined keys

A usage lists its keys in the order of their paths, which is not always the order of the texts that
the paths make when they are joined. Two paths stand the other way round, or make one text, exactly
if one of them has a segment that more follows and the other a longer segment at the same place, and
what makes it longer does not come behind a hyphen and what follows there (`Misplaced`). The main
statement is `Usage.joinedKeys_ascending_iff`.
-/

namespace BorderCss

/-! ## Order of lists and texts -/

section
variable {α : Type} [LT α]

/-- Of two lists the smaller one is a beginning of the other, or has a smaller item at the place
where they part. -/
theorem exists_of_list_lt {first second : List α} (h : first < second) :
    (∃ item rest, second = first ++ item :: rest) ∨
      ∃ shared a b rest others, first = shared ++ a :: rest ∧ second = shared ++ b :: others ∧
        a < b := by
  induction first generalizing second with
  | nil =>
    cases second with
    | nil => exact absurd h (List.not_lt_nil _)
    | cons item rest => exact .inl ⟨item, rest, rfl⟩
  | cons a first ih =>
    cases second with
    | nil => exact absurd h (List.not_lt_nil _)
    | cons b second =>
      rcases List.cons_lt_cons_iff.1 h with hab | ⟨rfl, hrest⟩
      · exact .inr ⟨[], a, b, first, second, rfl, rfl, hab⟩
      · rcases ih hrest with ⟨item, rest, rfl⟩ | ⟨shared, c, d, rest, others, rfl, rfl, hcd⟩
        · exact .inl ⟨item, rest, rfl⟩
        · exact .inr ⟨a :: shared, c, d, rest, others, rfl, rfl, hcd⟩

end

/-- Of two texts the smaller one is a beginning of the other, or has a smaller character where they
part. -/
theorem exists_of_lt {a b : String} (h : a < b) :
    (∃ c tail, b = a ++ String.singleton c ++ tail) ∨
      ∃ shared c d tail tail', a = shared ++ String.singleton c ++ tail ∧
        b = shared ++ String.singleton d ++ tail' ∧ c < d := by
  have hchars : a.toList < b.toList := h
  rcases exists_of_list_lt hchars with ⟨c, tail, hb⟩ | ⟨shared, c, d, tail, tail', ha, hb, hcd⟩
  · refine .inl ⟨c, String.ofList tail, ?_⟩
    rw [← String.toList_inj, hb]
    simp
  · refine .inr ⟨String.ofList shared, c, d, String.ofList tail, String.ofList tail', ?_, ?_, hcd⟩
    · rw [← String.toList_inj, ha]
      simp
    · rw [← String.toList_inj, hb]
      simp

/-- A text comes before any longer one that it begins. -/
theorem lt_append_of_ne {tail : String} (h : tail ≠ "") (text : String) : text < text ++ tail := by
  show text.toList < (text ++ tail).toList
  rw [String.toList_append]
  cases htail : tail.toList with
  | nil => exact absurd (String.toList_inj.1 htail) h
  | cons c rest =>
    have hlt : text.toList ++ [] < text.toList ++ c :: rest :=
      List.append_left_lt (List.nil_lt_cons c rest)
    rwa [List.append_nil] at hlt

/-- Texts that begin alike compare by what follows. -/
theorem append_lt_append_iff (start a b : String) : start ++ a < start ++ b ↔ a < b := by
  show (start ++ a).toList < (start ++ b).toList ↔ a.toList < b.toList
  rw [String.toList_append, String.toList_append]
  induction start.toList with
  | nil => exact Iff.rfl
  | cons c rest ih =>
    rw [List.cons_append, List.cons_append, List.cons_lt_cons_iff, ih]
    exact (or_iff_right (Char.lt_irrefl c)).trans (and_iff_right rfl)

/-- Texts compare by the first characters that differ. -/
theorem append_lt_append_of_lt {c d : Char} (h : c < d) (start a b : String) :
    start ++ String.singleton c ++ a < start ++ String.singleton d ++ b := by
  rw [String.append_assoc, String.append_assoc, append_lt_append_iff]
  show (String.singleton c ++ a).toList < (String.singleton d ++ b).toList
  simpa using List.cons_lt_cons_iff.2 (.inl h)

/-! ## Joined paths -/

variable {path : List String}

/-- Paths that begin alike make texts that begin alike. -/
theorem exists_joined_start (shared : List String) : ∃ start, ∀ path ≠ [],
    String.intercalate "-" (shared ++ path) = start ++ String.intercalate "-" path := by
  cases shared with
  | nil => exact ⟨"", fun path _ => by rw [List.nil_append, String.empty_append]⟩
  | cons segment rest =>
    exact ⟨String.intercalate "-" (segment :: rest) ++ "-", fun path h =>
      String.intercalate_append_of_ne_nil (List.cons_ne_nil _ _) h⟩

theorem joined_eq_empty_iff : String.intercalate "-" path = "" ↔ path = [] ∨ path = [""] := by
  constructor
  · intro h
    cases path with
    | nil => exact .inl rfl
    | cons segment rest =>
      cases rest with
      | nil =>
        rw [String.intercalate_singleton] at h
        exact .inr (by rw [h])
      | cons next rest =>
        rw [String.intercalate_cons_cons] at h
        simp at h
  · rintro (rfl | rfl)
    · rfl
    · exact String.intercalate_singleton

/-! ## Paths out of order -/

/-- The first path comes before the second one, but its text does not come before the other text.
Either the two part where the first one ends a segment and goes on, and the second one has a longer
segment, or they are the two paths that make no text. -/
inductive Misplaced : List String → List String → Prop
  /-- The longer segment goes on with a character from before the hyphen. -/
  | early {shared rest others : List String} {segment tail : String} {c : Char} (more : rest ≠ [])
      (before : c < '-') :
      Misplaced (shared ++ segment :: rest)
        (shared ++ (segment ++ String.singleton c ++ tail) :: others)
  /-- The longer segment goes on with a hyphen too, and what is left of the second path makes a text
  that is not behind that of the rest of the first one. -/
  | hyphen {shared rest others : List String} {segment tail : String} (more : rest ≠ [])
      (notBehind : String.intercalate "-" (tail :: others) ≤ String.intercalate "-" rest) :
      Misplaced (shared ++ segment :: rest) (shared ++ (segment ++ "-" ++ tail) :: others)
  | blank : Misplaced [] [""]

variable {first second : List String}

/-- A path with a longer segment at some place is greater. -/
theorem lt_of_longer (shared rest others : List String) (segment tail : String) (c : Char) :
    shared ++ segment :: rest < shared ++ (segment ++ String.singleton c ++ tail) :: others := by
  refine List.append_left_lt (List.cons_lt_cons_iff.2 (.inl ?_))
  rw [String.append_assoc]
  exact lt_append_of_ne (by simp) segment

theorem Misplaced.lt (h : Misplaced first second) : first < second := by
  cases h with
  | early => exact lt_of_longer _ _ _ _ _ _
  | hyphen => exact lt_of_longer _ _ _ _ _ '-'
  | blank => exact List.nil_lt_cons _ _

theorem Misplaced.joined_le (h : Misplaced first second) :
    String.intercalate "-" second ≤ String.intercalate "-" first := by
  cases h with
  | @early shared rest others segment tail c more before =>
    obtain ⟨start, hstart⟩ := exists_joined_start shared
    rw [hstart _ (List.cons_ne_nil _ _), hstart _ (List.cons_ne_nil _ _),
      String.intercalate_cons_append, String.intercalate_cons_of_ne_nil more]
    have hlt : segment ++ String.singleton c ++ String.intercalate "-" (tail :: others) <
        segment ++ "-" ++ String.intercalate "-" rest :=
      append_lt_append_of_lt before segment _ _
    refine String.not_lt.1 fun h => String.lt_irrefl _ (String.lt_trans hlt ?_)
    exact (append_lt_append_iff _ _ _).1 h
  | @hyphen shared rest others segment tail more notBehind =>
    obtain ⟨start, hstart⟩ := exists_joined_start shared
    rw [hstart _ (List.cons_ne_nil _ _), hstart _ (List.cons_ne_nil _ _),
      String.intercalate_cons_append, String.intercalate_cons_of_ne_nil more, ← String.not_lt,
      append_lt_append_iff, append_lt_append_iff]
    exact String.not_lt.2 notBehind
  | blank => exact String.le_refl _

/-- A longer segment that does not make the text of its path come later is out of order. -/
theorem misplaced_of_longer {shared rest others : List String} {segment tail : String} {c : Char}
    (h : ¬String.intercalate "-" (segment :: rest) <
      String.intercalate "-" ((segment ++ String.singleton c ++ tail) :: others)) :
    Misplaced (shared ++ segment :: rest)
      (shared ++ (segment ++ String.singleton c ++ tail) :: others) := by
  rw [String.intercalate_cons_append] at h
  by_cases hrest : rest = []
  · obtain rfl := hrest
    rw [String.intercalate_singleton, String.append_assoc] at h
    exact absurd (lt_append_of_ne (by simp) segment) h
  · rw [String.intercalate_cons_of_ne_nil hrest] at h
    rcases Nat.lt_trichotomy c.toNat '-'.toNat with hc | hc | hc
    · exact .early hrest hc
    · obtain rfl : c = '-' := Char.toNat_inj.1 hc
      refine .hyphen hrest (String.not_lt.1 fun hlt => h ?_)
      exact (append_lt_append_iff (segment ++ "-") _ _).2 hlt
    · exact absurd (append_lt_append_of_lt hc segment _ _) h

/-- Paths whose first segments differ at a character make texts that differ there. -/
theorem joined_lt_of_lt {start a b : String} {c d : Char} (h : c < d) (rest others : List String) :
    String.intercalate "-" ((start ++ String.singleton c ++ a) :: rest) <
      String.intercalate "-" ((start ++ String.singleton d ++ b) :: others) := by
  rw [String.intercalate_cons_append, String.intercalate_cons_append]
  exact append_lt_append_of_lt h start _ _

/-- Two paths whose texts stand the other way round, or are one text, are out of order in one of
these ways. -/
theorem misplaced_of_not_joined_lt (hlt : first < second)
    (h : ¬String.intercalate "-" first < String.intercalate "-" second) :
    Misplaced first second := by
  rcases exists_of_list_lt hlt with ⟨segment, rest, rfl⟩ |
      ⟨shared, segment, longer, rest, others, rfl, rfl, hsegment⟩
  · by_cases hfirst : first = []
    · obtain rfl := hfirst
      have hnone : String.intercalate "-" (segment :: rest) = "" :=
        Decidable.byContradiction fun hne => h (lt_append_of_ne hne "")
      rcases joined_eq_empty_iff.1 hnone with hpath | hpath
      · cases hpath
      · rw [List.nil_append, hpath]
        exact .blank
    · rw [String.intercalate_append_of_ne_nil hfirst (List.cons_ne_nil _ _),
        String.append_assoc] at h
      exact absurd (lt_append_of_ne (by simp) _) h
  · obtain ⟨start, hstart⟩ := exists_joined_start shared
    rw [hstart _ (List.cons_ne_nil _ _), hstart _ (List.cons_ne_nil _ _),
      append_lt_append_iff] at h
    rcases exists_of_lt hsegment with ⟨c, tail, rfl⟩ | ⟨common, c, d, tail, tail', rfl, rfl, hcd⟩
    · exact misplaced_of_longer h
    · exact absurd (joined_lt_of_lt hcd rest others) h

/-- Of two paths the first one makes the first text exactly if they are not out of order. -/
theorem joined_lt_joined_iff (h : first < second) :
    String.intercalate "-" first < String.intercalate "-" second ↔ ¬Misplaced first second := by
  constructor
  · exact fun hlt hmisplaced => String.not_lt.2 hmisplaced.joined_le hlt
  · exact fun hnot => Decidable.byContradiction fun hge => hnot (misplaced_of_not_joined_lt h hge)

/-- Paths of segments whose characters all come behind the hyphen are never out of order. -/
theorem not_misplaced (hfirst : first ≠ [])
    (hsecond : ∀ segment ∈ second, ∀ c ∈ segment.toList, '-' < c) : ¬Misplaced first second := by
  intro h
  cases h with
  | @early shared rest others segment tail c more before =>
    have hbehind : '-' < c := hsecond _ (List.mem_append_right _ List.mem_cons_self) c (by simp)
    exact Char.lt_asymm before hbehind
  | @hyphen shared rest others segment tail more notBehind =>
    have hbehind : '-' < '-' := hsecond _ (List.mem_append_right _ List.mem_cons_self) '-' (by simp)
    exact Char.lt_irrefl _ hbehind
  | blank => exact hfirst rfl

/-! ## Keys of a usage -/

/-- What holds between the keys of an ascending list in their order holds between each key and every
greater one. -/
theorem pairwise_iff_of_ascending {keys : List ThemeKey} (h : keys.Pairwise (· < ·))
    {R : ThemeKey → ThemeKey → Prop} :
    keys.Pairwise R ↔ ∀ a ∈ keys, ∀ b ∈ keys, a < b → R a b := by
  constructor
  · intro hR
    induction keys with
    | nil => exact fun _ ha => absurd ha List.not_mem_nil
    | cons key rest ih =>
      obtain ⟨hkey, hrest⟩ := List.pairwise_cons.1 h
      obtain ⟨hRkey, hRrest⟩ := List.pairwise_cons.1 hR
      intro a ha b hb hab
      rcases List.mem_cons.1 ha with rfl | hrestA
      · rcases List.mem_cons.1 hb with rfl | hrestB
        · exact absurd hab (ThemeKey.lt_irrefl _)
        · exact hRkey b hrestB
      · rcases List.mem_cons.1 hb with rfl | hrestB
        · exact absurd (ThemeKey.lt_trans hab (hkey a hrestA)) (ThemeKey.lt_irrefl _)
        · exact ih hrest hRrest a hrestA b hrestB hab
  · exact fun hall => h.imp_of_mem fun ha hb hab => hall _ ha _ hb hab

namespace Usage

variable {usage : Usage} {space : String}

theorem mem_joinedKeys {text : String} : text ∈ usage.joinedKeys space ↔
    ∃ path, ⟨space, path⟩ ∈ usage.keys ∧ String.intercalate "-" path = text := by
  rw [joinedKeys, List.mem_map]
  constructor
  · rintro ⟨⟨_, path⟩, hkey, rfl⟩
    obtain ⟨hmem, hspace⟩ := List.mem_filter.1 hkey
    obtain rfl := beq_iff_eq.1 hspace
    exact ⟨path, hmem, rfl⟩
  · rintro ⟨path, hmem, rfl⟩
    exact ⟨⟨space, path⟩, List.mem_filter.2 ⟨hmem, beq_self_eq_true space⟩, rfl⟩

/-- The joined keys of a namespace ascend exactly if no two of its paths are out of order. -/
theorem pairwise_joinedKeys_iff : (usage.joinedKeys space).Pairwise (· < ·) ↔
    ¬∃ first second, ⟨space, first⟩ ∈ usage.keys ∧ ⟨space, second⟩ ∈ usage.keys ∧
      Misplaced first second := by
  rw [joinedKeys, List.pairwise_map, pairwise_iff_of_ascending (usage.sorted.filter _)]
  constructor
  · rintro h ⟨first, second, hfirst, hsecond, hmisplaced⟩
    have hmem : ∀ path, ⟨space, path⟩ ∈ usage.keys →
        ⟨space, path⟩ ∈ usage.keys.filter (·.space == space) :=
      fun path hpath => List.mem_filter.2 ⟨hpath, beq_self_eq_true space⟩
    have hlt := h _ (hmem first hfirst) _ (hmem second hsecond) (.inr ⟨rfl, hmisplaced.lt⟩)
    exact (joined_lt_joined_iff hmisplaced.lt).1 hlt hmisplaced
  · rintro h ⟨firstSpace, first⟩ hfirst ⟨secondSpace, second⟩ hsecond hlt
    rw [List.mem_filter, beq_iff_eq] at hfirst hsecond
    obtain ⟨hfirst, rfl⟩ := hfirst
    obtain ⟨hsecond, rfl⟩ := hsecond
    rcases hlt with hlt | ⟨-, hlt⟩
    · exact absurd hlt (String.lt_irrefl _)
    · exact (joined_lt_joined_iff hlt).2 fun hmisplaced =>
        h ⟨first, second, hfirst, hsecond, hmisplaced⟩

/-- Keys without characters up to the hyphen are listed in the order of their texts. -/
theorem pairwise_joinedKeys (h : ∀ path, ⟨space, path⟩ ∈ usage.keys →
    path ≠ [] ∧ ∀ segment ∈ path, ∀ c ∈ segment.toList, '-' < c) :
    (usage.joinedKeys space).Pairwise (· < ·) := by
  rw [pairwise_joinedKeys_iff]
  rintro ⟨first, second, hfirst, hsecond, hmisplaced⟩
  exact not_misplaced (h first hfirst).1 (h second hsecond).2 hmisplaced

/-- After any history of record, absorb, resolve and clear, a usage lists the texts of the paths
that were recorded in a namespace since the last clear. They are in ascending order, none of them
twice, exactly if no two of the paths are out of order. -/
theorem joinedKeys_ascending_iff (rules : List Rule) (theme : Theme) (steps : List UsageStep)
    (space : String) :
    let usage := steps.foldl (UsageStep.run rules theme) .empty
    let Recorded : List String → Prop := fun path =>
      ∃ step ∈ sinceClear steps, ⟨space, path⟩ ∈ step.keys rules theme
    (∀ text, text ∈ usage.joinedKeys space ↔
      ∃ path, Recorded path ∧ String.intercalate "-" path = text) ∧
    ((usage.joinedKeys space).Pairwise (· < ·) ↔
      ¬∃ first second, Recorded first ∧ Recorded second ∧ Misplaced first second) := by
  intro usage Recorded
  have hrecorded : ∀ path, ⟨space, path⟩ ∈ usage.keys ↔ Recorded path :=
    fun path => mem_runSteps steps
  constructor
  · intro text
    simp only [mem_joinedKeys, hrecorded]
  · simp only [pairwise_joinedKeys_iff, hrecorded]

/-- A shade and a colour with a hyphen in its name, which is listed behind the shade though its text
comes first, and another one whose text is that of the shade. -/
theorem joinedKeys_not_ascending :
    let shade : ThemeKey := ⟨"colors", ["red", "500"]⟩
    let early := (empty.record shade).record ⟨"colors", ["red-400"]⟩
    let same := (empty.record shade).record ⟨"colors", ["red-500"]⟩
    early.joinedKeys "colors" = ["red-500", "red-400"] ∧
      same.joinedKeys "colors" = ["red-500", "red-500"] ∧
      ¬(early.joinedKeys "colors").Pairwise (· < ·) ∧
      ¬(same.joinedKeys "colors").Pairwise (· < ·) := by
  decide +kernel

end Usage

end BorderCss
