import BorderCss.Color.Reading
import BorderCss.Proofs.Text.Pieces
import BorderCss.Proofs.Theme.Walk
import BorderCss.Proofs.Value.Word
import Mathlib.Data.List.DropRight

/-!
# The segments of a colour name

A colour name is cut at its hyphens and in front of every digit that a lower-case letter precedes,
so words with a number behind them have the same segments with a hyphen in front of the number and
without (`DigitWord.segments_append`). A name without hyphens is what its segments make in camel
case, since all of them but the first begin with a digit (`camelName_segments`). Its last segment is
a number just if its last character is a digit (`MixedWord.exists_number`, `getLast?_segments`).
-/

namespace BorderCss

variable {text rest : List Char} {c : Char} {a b name word digits : String}

/-! ## Words and numbers -/

/-- A word of lower-case letters. -/
structure LowerWord (word : String) : Prop where
  nonempty : word ≠ ""
  lower : ∀ c ∈ word.toList, c.isLower = true

/-- A number in digits. -/
structure DigitWord (digits : String) : Prop where
  nonempty : digits ≠ ""
  digit : ∀ c ∈ digits.toList, c.isDigit = true

/-- A word of lower-case letters and digits that begins with a letter. -/
structure MixedWord (name : String) : Prop where
  head : ∃ c rest, name.toList = c :: rest ∧ c.isLower = true
  plain : ∀ c ∈ name.toList, c.isLower = true ∨ c.isDigit = true

theorem LowerWord.hyphen_notMem (h : LowerWord word) : '-' ∉ word.toList :=
  fun hmem => absurd (h.lower '-' hmem) (by decide)

theorem LowerWord.isDigit (h : LowerWord word) : ∀ c ∈ word.toList, c.isDigit = false :=
  fun c hc => isDigit_of_isLower (h.lower c hc)

theorem DigitWord.hyphen_notMem (h : DigitWord digits) : '-' ∉ digits.toList :=
  fun hmem => absurd (h.digit '-' hmem) (by decide)

theorem DigitWord.head (h : DigitWord digits) :
    ∃ c rest, digits.toList = c :: rest ∧ c.isDigit = true := by
  obtain ⟨c, rest, hhead⟩ := List.exists_cons_of_ne_nil (mt String.toList_eq_nil_iff.1 h.nonempty)
  exact ⟨c, rest, hhead, h.digit c (by rw [hhead]; exact List.mem_cons_self)⟩

theorem LowerWord.mixed (h : LowerWord word) : MixedWord word := by
  obtain ⟨c, rest, hhead⟩ := List.exists_cons_of_ne_nil (mt String.toList_eq_nil_iff.1 h.nonempty)
  refine ⟨⟨c, rest, hhead, h.lower c ?_⟩, fun c hc => .inl (h.lower c hc)⟩
  rw [hhead]
  exact List.mem_cons_self

theorem MixedWord.hyphen_notMem (h : MixedWord name) : '-' ∉ name.toList :=
  fun hmem => absurd (h.plain '-' hmem) (by decide)

theorem isLower_of_isDigit (h : c.isDigit = true) : c.isLower = false := by
  rw [← Bool.not_eq_true]
  intro hlower
  rw [isDigit_of_isLower hlower] at h
  cases h

/-! ## Hyphens in front of digits -/

/-- The character in front of what follows the text is a lower-case letter. `afterLower` says so of
the text itself. -/
def endsLower (afterLower : Bool) (text : List Char) : Bool :=
  (text.getLast?.map Char.isLower).getD afterLower

theorem endsLower_append (afterLower : Bool) (text rest : List Char) :
    endsLower afterLower (text ++ rest) = endsLower (endsLower afterLower text) rest := by
  rw [endsLower, endsLower, endsLower, List.getLast?_append]
  cases rest.getLast? <;> rfl

theorem LowerWord.endsLower_eq (h : LowerWord word) (afterLower : Bool) :
    endsLower afterLower word.toList = true := by
  have hne := mt String.toList_eq_nil_iff.1 h.nonempty
  rw [endsLower, List.getLast?_eq_some_getLast hne]
  exact h.lower _ (List.getLast_mem hne)

theorem hyphenated_append (afterLower : Bool) (text rest : List Char) :
    hyphenated afterLower (text ++ rest) =
      hyphenated afterLower text ++ hyphenated (endsLower afterLower text) rest := by
  induction text generalizing afterLower with
  | nil => rfl
  | cons c text ih =>
    have hends : endsLower afterLower (c :: text) = endsLower c.isLower text := by
      rw [endsLower, endsLower, List.getLast?_cons]
      cases text.getLast? <;> rfl
    rw [List.cons_append, hyphenated, hyphenated, ih, hends]
    split <;> rfl

/-- A text without digits stays as it is. -/
theorem hyphenated_of_forall_not_isDigit (h : ∀ c ∈ text, c.isDigit = false) (afterLower : Bool) :
    hyphenated afterLower text = text := by
  induction text generalizing afterLower with
  | nil => rfl
  | cons c text ih =>
    obtain ⟨hc, htext⟩ := List.forall_mem_cons.1 h
    rw [hyphenated, ih htext, hc, Bool.and_false]
    rfl

/-- A text of digits stays as it is, unless a letter precedes it. -/
theorem hyphenated_of_forall_isDigit (h : ∀ c ∈ text, c.isDigit = true) :
    hyphenated false text = text := by
  induction text with
  | nil => rfl
  | cons c text ih =>
    obtain ⟨hc, htext⟩ := List.forall_mem_cons.1 h
    rw [hyphenated, isLower_of_isDigit hc, ih htext]
    rfl

/-! ## Segments of composed names -/

/-- Names with a hyphen between them are cut there. -/
theorem segments_hyphen (a b : String) : segments (a ++ "-" ++ b) = segments a ++ segments b := by
  have htext : (a ++ "-" ++ b).toList = a.toList ++ '-' :: b.toList := by
    rw [String.append_assoc, String.toList_append, String.toList_append]
    rfl
  have hcut : ∀ afterLower, hyphenated afterLower ('-' :: b.toList) =
      '-' :: hyphenated false b.toList := by
    intro afterLower
    cases afterLower <;> rfl
  rw [segments, segments, segments, htext, hyphenated_append, hcut, pieces_append, List.map_append]

/-- A name is also cut where a lower-case letter meets a digit. -/
theorem segments_append_of_isDigit (ha : endsLower false a.toList = true)
    (hb : b.toList = c :: rest) (hc : c.isDigit = true) :
    segments (a ++ b) = segments (a ++ "-" ++ b) := by
  have hcut : hyphenated true b.toList = '-' :: hyphenated false b.toList := by
    rw [hb, hyphenated, hyphenated, hc]
    rfl
  rw [segments_hyphen, segments, segments, segments, String.toList_append, hyphenated_append, ha,
    hcut, pieces_append, List.map_append]

/-- A name without digits is cut at its hyphens only. -/
theorem segments_of_forall_not_isDigit (h : ∀ c ∈ name.toList, c.isDigit = false) :
    segments name = hyphenParts name := by
  rw [segments, hyphenated_of_forall_not_isDigit h, hyphenParts]

/-- A number is not cut. -/
theorem DigitWord.segments_eq (h : DigitWord digits) : segments digits = [digits] := by
  rw [← hyphenParts_of_notMem h.hyphen_notMem, segments, hyphenated_of_forall_isDigit h.digit,
    hyphenParts]

/-- A number behind a name is a segment of its own, with a hyphen in front of it or, behind a
lower-case letter, without. -/
theorem DigitWord.segments_append (h : DigitWord digits) (name : String) :
    segments (name ++ "-" ++ digits) = segments name ++ [digits] ∧
      (endsLower false name.toList = true →
        segments (name ++ digits) = segments name ++ [digits]) := by
  have hdashed : segments (name ++ "-" ++ digits) = segments name ++ [digits] := by
    rw [segments_hyphen, h.segments_eq]
  refine ⟨hdashed, fun hends => ?_⟩
  obtain ⟨c, rest, hhead, hc⟩ := h.head
  exact (segments_append_of_isDigit hends hhead hc).trans hdashed

/-! ## Segments of a name without hyphens -/

/-- The cuts lose nothing, and a piece behind a cut begins with a digit. -/
theorem pieces_hyphenated (h : '-' ∉ text) (afterLower : Bool) :
    (pieces '-' (hyphenated afterLower text)).flatten = text ∧
      ∀ piece ∈ (pieces '-' (hyphenated afterLower text)).tail,
        ∃ c rest, piece = c :: rest ∧ c.isDigit = true := by
  induction text generalizing afterLower with
  | nil => exact ⟨rfl, List.forall_mem_nil _⟩
  | cons c text ih =>
    rw [List.mem_cons, not_or] at h
    obtain ⟨hflatten, htail⟩ := ih h.2 c.isLower
    obtain ⟨piece, others, hpieces, hcons⟩ :=
      pieces_cons_of_ne (Ne.symm h.1) (hyphenated c.isLower text)
    rw [hpieces] at hflatten htail
    have hwhole : ((c :: piece) :: others).flatten = c :: text := congrArg (c :: ·) hflatten
    -- A cut in front of `c` leaves an empty piece there; without one, `c` joins the first piece.
    rw [hyphenated]
    split
    · next hcut =>
      have hdigit : c.isDigit = true := (Bool.and_eq_true_iff.1 hcut).2
      rw [pieces, if_pos rfl, hcons]
      exact ⟨hwhole, List.forall_mem_cons.2 ⟨⟨c, piece, rfl, hdigit⟩, htail⟩⟩
    · rw [hcons]
      exact ⟨hwhole, htail⟩

theorem capitalize_of_isDigit (h : c.isDigit = true) (rest : List Char) :
    capitalize (c :: rest) = c :: rest := by
  obtain ⟨hlow, hhigh⟩ := Char.isDigit_iff_toNat.1 h
  have hascii : c.toNat < 128 := Nat.lt_of_le_of_lt hhigh (by decide)
  have hupper : c.toUpper = c := by
    refine dif_neg ?_
    rintro ⟨hfirst, -⟩
    have hletter : 97 ≤ c.toNat := hfirst
    have hnine : '9'.toNat = 57 := rfl
    omega
  rw [capitalize, upperCase, if_pos hascii, hupper]
  rfl

/-- The segments of a name without hyphens make the name again. -/
theorem camelName_segments (h : '-' ∉ name.toList) : camelName (segments name) = name := by
  obtain ⟨hflatten, htail⟩ := pieces_hyphenated h false
  obtain ⟨piece, others, hpieces⟩ := List.exists_cons_of_ne_nil
    (List.splitOn_ne_nil '-' (hyphenated false name.toList))
  rw [← pieces_eq_splitOn] at hpieces
  rw [hpieces] at hflatten htail
  have hcapitals : capitals (others.map String.ofList) = others.flatten := by
    rw [capitals, List.flatMap_map, List.flatMap_def]
    refine congrArg List.flatten ((List.map_congr_left ?_).trans (List.map_id others))
    intro other hother
    obtain ⟨c, rest, rfl, hdigit⟩ := htail other hother
    rw [String.toList_ofList]
    exact capitalize_of_isDigit hdigit rest
  rw [segments, hpieces, List.map_cons, ← String.toList_inj, toList_camelName_cons,
    String.toList_ofList, hcapitals]
  exact hflatten

/-- The last segment of a name that does not end in a digit is no number. -/
theorem getLast?_segments (hhyphen : '-' ∉ name.toList) (hc : c ∈ name.toList.getLast?)
    (hdigit : c.isDigit = false) :
    ∃ last, (segments name).getLast? = some last ∧ last.toList.all Char.isDigit = false := by
  obtain ⟨text, htext⟩ := List.getLast?_eq_some_iff.1 hc
  have hne : c ≠ '-' := by
    rintro rfl
    exact hhyphen (List.mem_of_getLast? hc)
  obtain ⟨piece, hlast, hmem⟩ := mem_getLast?_pieces hne (hyphenated false text)
  refine ⟨String.ofList piece, ?_, ?_⟩
  · have hstays : ∀ afterLower, hyphenated afterLower [c] = [c] :=
      hyphenated_of_forall_not_isDigit (List.forall_mem_singleton.2 hdigit)
    rw [segments, htext, hyphenated_append, hstays, List.getLast?_map, hlast]
    rfl
  · rw [String.toList_ofList, List.all_eq_false]
    exact ⟨c, hmem, by rw [hdigit]; exact Bool.false_ne_true⟩

/-- A name that begins with a letter and ends in a digit is a name that ends in a letter with a
number behind it. -/
theorem MixedWord.exists_number (h : MixedWord name) (hc : c ∈ name.toList.getLast?)
    (hdigit : c.isDigit = true) :
    ∃ start digits : String, name = start ++ digits ∧ endsLower false start.toList = true ∧
      DigitWord digits := by
  -- The number is the longest one at the end, so what is in front of it does not end in a digit.
  let start := name.toList.rdropWhile Char.isDigit
  let digits := name.toList.rtakeWhile Char.isDigit
  have happend : start ++ digits = name.toList := List.rdropWhile_append_rtakeWhile
  have hstart : start ≠ [] := by
    obtain ⟨d, rest, hhead, hd⟩ := h.head
    intro hnil
    have hfirst := List.rdropWhile_eq_nil_iff.1 hnil d (by rw [hhead]; exact List.mem_cons_self)
    rw [isDigit_of_isLower hd] at hfirst
    cases hfirst
  have hdigits : digits ≠ [] := by
    intro hnil
    obtain ⟨text, htext⟩ := List.getLast?_eq_some_iff.1 hc
    refine List.rtakeWhile_eq_nil_iff.1 hnil (List.ne_nil_of_mem (List.mem_of_getLast? hc)) ?_
    simp only [htext, List.getLast_append_singleton, hdigit]
  refine ⟨String.ofList start, String.ofList digits, ?_, ?_, ?_, ?_⟩
  · rw [← String.ofList_append, happend, String.ofList_toList]
  · have hlast := List.rdropWhile_last_not Char.isDigit name.toList hstart
    have hmem : start.getLast hstart ∈ name.toList :=
      (List.rdropWhile_prefix _ _).mem (List.getLast_mem hstart)
    rw [String.toList_ofList, endsLower, List.getLast?_eq_some_getLast hstart]
    exact (h.plain _ hmem).resolve_right hlast
  · rw [ne_eq, String.ofList_eq_empty_iff]
    exact hdigits
  · rw [String.toList_ofList]
    exact fun d hd => List.mem_rtakeWhile_imp hd

end BorderCss
