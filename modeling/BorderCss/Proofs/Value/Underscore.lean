import BorderCss.Value.Underscore
import Mathlib.Data.List.Infix

/-!
# Underscores read back

`underscored` writes a text in the notation of bracket escapes and `spaced` reads it back
(`spaced_underscored`), unless the text has a backslash in front of a space, which would take the
underscore for its own. What the notation writes has no piece that the text lacks, apart from
underscores and backslashes (`infix_of_infix_underscored`), so a text that opens no `url(…)` is read
as a whole (`spacedOutsideUrls_eq_spaced`). Where a text opens one, it is cut there: the address is
copied, and what stands on both sides of it is read on its own (`spacedOutsideUrls_url`).
-/

namespace BorderCss

variable {piece text rest : List Char} {c : Char}

/-- Only a backslash and the underscore behind it are read together. -/
theorem spaced_cons (h : ¬(c = '\\' ∧ rest.head? = some '_')) :
    spaced (c :: rest) = (if c = '_' then ' ' else c) :: spaced rest := by
  rw [spaced]
  rintro after rfl rfl
  exact h ⟨rfl, rfl⟩

/-- The notation begins with an underscore just where the text begins with a space. -/
theorem head?_underscored : (underscored text).head? = some '_' ↔ text.head? = some ' ' := by
  cases text with
  | nil => simp [underscored]
  | cons c rest =>
    rw [underscored]
    split
    · next hspace => simp [hspace]
    · next hspace =>
      split
      · simp [*]
      · next hunderscore => simp [hspace, hunderscore]

/-- The notation is read back as the text. -/
theorem spaced_underscored (h : ¬['\\', ' '] <:+: text) : spaced (underscored text) = text := by
  induction text with
  | nil => rfl
  | cons c rest ih =>
    rw [List.infix_cons_iff, not_or] at h
    have hrest := ih h.2
    rw [underscored]
    split
    · next hspace =>
      rw [spaced_cons (fun hslash => absurd hslash.1 (by decide)), hrest, hspace]
      rfl
    · next hspace =>
      split
      · next hunderscore => rw [spaced, hrest, hunderscore]
      · next hunderscore =>
        rw [spaced_cons, if_neg hunderscore, hrest]
        rintro ⟨rfl, hhead⟩
        obtain ⟨after, rfl⟩ := List.head?_eq_some_iff.1 (head?_underscored.1 hhead)
        exact h.1 (List.prefix_append ['\\', ' '] after)

/-! ## Pieces of the notation -/

/-- The characters that the notation adds. -/
def isNotation (c : Char) : Bool :=
  c = '_' || c = '\\'

/-- A character is written as it is, or as a mark of the notation. -/
theorem underscored_cons (c : Char) (rest : List Char) :
    underscored (c :: rest) = c :: underscored rest ∨
      ∃ mark, mark ≠ [] ∧ mark.all isNotation = true ∧
        underscored (c :: rest) = mark ++ underscored rest := by
  rw [underscored]
  split
  · exact .inr ⟨['_'], List.cons_ne_nil _ _, rfl, rfl⟩
  · split
    · exact .inr ⟨['\\', '_'], List.cons_ne_nil _ _, rfl, rfl⟩
    · exact .inl rfl

/-- A piece that shares no character with the start of a text stands behind it. -/
theorem infix_of_infix_append {mark : List Char} (hpiece : ∀ c ∈ piece, c ∉ mark)
    (h : piece <:+: mark ++ rest) : piece <:+: rest := by
  induction mark with
  | nil => exact h
  | cons d mark ih =>
    rcases List.infix_cons_iff.1 h with hstart | hinside
    · cases piece with
      | nil => exact List.nil_infix
      | cons c piece =>
        obtain ⟨rfl, -⟩ := List.cons_prefix_cons.1 hstart
        exact absurd List.mem_cons_self (hpiece c List.mem_cons_self)
    · exact ih (fun c hc hmem => hpiece c hc (List.mem_cons_of_mem d hmem)) hinside

/-- A start of the notation that is free of its marks is a start of the text. -/
theorem prefix_of_prefix_underscored (hpiece : piece.any isNotation = false)
    (h : piece <+: underscored text) : piece <+: text := by
  induction text generalizing piece with
  | nil => exact h
  | cons c rest ih =>
    cases piece with
    | nil => exact List.nil_prefix
    | cons d piece =>
      rw [List.any_cons, Bool.or_eq_false_iff] at hpiece
      obtain hplain | ⟨mark, hne, hmark, hmarked⟩ := underscored_cons c rest
      · rw [hplain] at h
        obtain ⟨rfl, hrest⟩ := List.cons_prefix_cons.1 h
        exact List.cons_prefix_cons.2 ⟨rfl, ih hpiece.2 hrest⟩
      · obtain ⟨m, mark, rfl⟩ := List.exists_cons_of_ne_nil hne
        rw [hmarked] at h
        obtain ⟨rfl, -⟩ := List.cons_prefix_cons.1 h
        rw [List.all_eq_true.1 hmark d List.mem_cons_self] at hpiece
        cases hpiece.1

/-- A piece of the notation that is free of its marks is a piece of the text. -/
theorem infix_of_infix_underscored (hpiece : piece.any isNotation = false)
    (h : piece <:+: underscored text) : piece <:+: text := by
  induction text with
  | nil => exact h
  | cons c rest ih =>
    have hrest : piece <:+: underscored rest → piece <:+: c :: rest :=
      fun h => (ih h).trans (List.suffix_cons c rest).isInfix
    obtain hplain | ⟨mark, -, hmark, hmarked⟩ := underscored_cons c rest
    · have hstart : piece <+: underscored (c :: rest) → piece <+: c :: rest :=
        prefix_of_prefix_underscored hpiece
      rw [hplain] at h hstart
      rcases List.infix_cons_iff.1 h with h | h
      · exact (hstart h).isInfix
      · exact hrest h
    · rw [hmarked] at h
      refine hrest (infix_of_infix_append (fun d hd hmem => ?_) h)
      exact List.any_eq_false.1 hpiece d hd (List.all_eq_true.1 hmark d hmem)

/-! ## Texts without a `url(…)` -/

theorem spacedFrom_notated (h : ¬"url(".toList <:+: text) :
    spacedFrom .notated text = spaced text := by
  induction text using spaced.induct with
  | case1 rest ih =>
    rw [List.infix_cons_iff, List.infix_cons_iff, not_or, not_or] at h
    have hurl : ¬"url(".toList.isPrefixOf ('\\' :: '_' :: rest) = true :=
      fun hstart => h.1 (List.isPrefixOf_iff_prefix.1 hstart)
    rw [spacedFrom, if_neg hurl, if_pos ⟨rfl, rfl⟩, spacedFrom, spaced, ih h.2.2]
  | case2 c rest hpair ih =>
    rw [List.infix_cons_iff, not_or] at h
    have hurl : ¬"url(".toList.isPrefixOf (c :: rest) = true :=
      fun hstart => h.1 (List.isPrefixOf_iff_prefix.1 hstart)
    have hescape : ¬(c = '\\' ∧ rest.head? = some '_') := by
      rintro ⟨rfl, hhead⟩
      obtain ⟨after, rfl⟩ := List.head?_eq_some_iff.1 hhead
      exact hpair after rfl rfl
    rw [spacedFrom, if_neg hurl, if_neg hescape, spaced_cons hescape, ih h.2]
  | case3 => rfl

theorem spacedOutsideUrls_eq_spaced (h : ¬"url(".toList <:+: text) :
    spacedOutsideUrls text = spaced text :=
  spacedFrom_notated h

/-! ## Addresses -/

/-- The first text is an address `url(…)` up to its first closing parenthesis, or up to the end if
it has none, when the second text follows it. -/
inductive Url : List Char → List Char → Prop
  | closed {body after : List Char} : ')' ∉ body → Url ("url(".toList ++ body ++ [')']) after
  | unclosed {body : List Char} : ')' ∉ body → Url ("url(".toList ++ body) []

/-- Every address that begins in the text is closed in it. -/
def UrlsClosed (text : List Char) : Prop :=
  ∀ start inside, text = start ++ "url(".toList ++ inside → ')' ∈ inside

theorem UrlsClosed.tail (h : UrlsClosed (c :: text)) : UrlsClosed text := by
  rintro start inside rfl
  exact h (c :: start) inside rfl

/-- An address that follows a text does not begin in it. -/
theorem url_prefix_append_iff :
    "url(".toList <+: c :: (text ++ 'u' :: rest) ↔ "url(".toList <+: c :: text := by
  refine ⟨fun h => ?_, fun h => h.trans (List.prefix_append (c :: text) ('u' :: rest))⟩
  obtain ⟨left, hleft⟩ : "url(".toList <+: (c :: text) ++ 'u' :: rest := h
  obtain ⟨after, hafter, -⟩ | ⟨after, hafter, hrest⟩ := List.append_eq_append_iff.1 hleft
  · exact ⟨after, hafter.symm⟩
  · cases after with
    | nil => exact ⟨[], by rw [List.append_nil, hafter, List.append_nil]⟩
    | cons d after =>
      obtain ⟨rfl, -⟩ := List.cons.inj hrest
      have htail : "rl(".toList = text ++ 'u' :: after := (List.cons.inj hafter).2
      have hmem : 'u' ∈ "rl(".toList := by simp [htail]
      exact absurd hmem (by decide)

/-- A text whose addresses are closed is read on its own, when an address follows it. -/
theorem spacedFrom_append (rest : List Char) : ∀ (text : List Char) (scan : UnderscoreScan),
    (scan = .escaped → text ≠ []) → (scan = .url → ')' ∈ text) → UrlsClosed text →
      spacedFrom scan (text ++ 'u' :: rest) =
        spacedFrom scan text ++ spacedFrom .notated ('u' :: rest) := by
  intro text
  induction text with
  | nil =>
    intro scan hescaped hurl _
    cases scan with
    | notated => rfl
    | escaped => exact absurd rfl (hescaped rfl)
    | url => cases hurl rfl
  | cons c text ih =>
    intro scan _ hurl hclosed
    have hnext : spacedFrom .notated (text ++ 'u' :: rest) =
        spacedFrom .notated text ++ spacedFrom .notated ('u' :: rest) :=
      ih .notated nofun nofun hclosed.tail
    cases scan with
    | escaped =>
      rw [List.cons_append, spacedFrom, spacedFrom, hnext, List.cons_append]
    | url =>
      rw [List.cons_append, spacedFrom, spacedFrom]
      split
      · rw [hnext, List.cons_append]
      · next hc =>
        have hmem : ')' ∈ text := (List.mem_cons.1 (hurl rfl)).resolve_left (Ne.symm hc)
        rw [ih .url nofun (fun _ => hmem) hclosed.tail, List.cons_append]
    | notated =>
      have hescape : (c = '\\' ∧ (text ++ 'u' :: rest).head? = some '_') ↔
          (c = '\\' ∧ text.head? = some '_') := by
        cases text <;> simp
      rw [List.cons_append, spacedFrom, spacedFrom]
      simp only [List.isPrefixOf_iff_prefix, url_prefix_append_iff, hescape]
      split
      · next hstart =>
        have hmem : ')' ∈ text := by
          obtain ⟨inside, hinside⟩ := hstart
          have hend := hclosed [] inside hinside.symm
          have hsuffix : inside <:+ text := ⟨"rl(".toList, (List.cons.inj hinside).2⟩
          exact hsuffix.subset hend
        rw [ih .url nofun (fun _ => hmem) hclosed.tail, List.cons_append]
      · split
        · next hmark =>
          refine ih .escaped (fun _ hnil => ?_) nofun hclosed.tail
          rw [hnil] at hmark
          cases hmark.2
        · rw [hnext, List.cons_append]

/-- An address is copied up to its closing parenthesis. -/
theorem spacedFrom_url_append {body : List Char} (hbody : ')' ∉ body) (after : List Char) :
    spacedFrom .url (body ++ ')' :: after) = body ++ ')' :: spacedFrom .notated after := by
  induction body with
  | nil => rfl
  | cons c body ih =>
    obtain ⟨hc, hbody⟩ := not_or.1 (List.mem_cons.not.1 hbody)
    rw [List.cons_append, spacedFrom, if_neg (Ne.symm hc), ih hbody]
    rfl

/-- An address that is left open is copied up to the end. -/
theorem spacedFrom_url {body : List Char} (hbody : ')' ∉ body) : spacedFrom .url body = body := by
  induction body with
  | nil => rfl
  | cons c body ih =>
    obtain ⟨hc, hbody⟩ := not_or.1 (List.mem_cons.not.1 hbody)
    rw [spacedFrom, if_neg (Ne.symm hc), ih hbody]

/-- Every address is read as it is, and what stands on both sides of it on its own. -/
theorem spacedOutsideUrls_url {before span after : List Char} (hclosed : UrlsClosed before)
    (hspan : Url span after) :
    spacedOutsideUrls (before ++ span ++ after) =
      spacedOutsideUrls before ++ span ++ spacedOutsideUrls after := by
  have hopening (body : List Char) : spacedFrom .notated ("url(".toList ++ body) =
      "url(".toList ++ spacedFrom .url body := rfl
  have hlead (body : List Char) : spacedOutsideUrls (before ++ ("url(".toList ++ body)) =
      spacedOutsideUrls before ++ ("url(".toList ++ spacedFrom .url body) :=
    spacedFrom_append ("rl(".toList ++ body) before .notated nofun nofun hclosed
  cases hspan with
  | @closed body _ hbody =>
    have hwhole := hlead (body ++ ')' :: after)
    have hafter : spacedFrom .notated after = spacedOutsideUrls after := rfl
    rw [spacedFrom_url_append hbody, hafter] at hwhole
    simpa only [List.append_assoc, List.singleton_append] using hwhole
  | @unclosed body hbody =>
    have hwhole := hlead body
    rw [spacedFrom_url hbody] at hwhole
    rw [List.append_nil, hwhole]
    exact (List.append_nil _).symm

end BorderCss
