import BorderCss.Css.Selector
import BorderCss.Text.Cut
import BorderCss.Text.Hexadecimal

/-!
# Identifiers in CSS

How CSS reads the name of a class: `readName` takes letters, digits, hyphens and underscores as they
stand and undoes escapes, and `readIdentifier?` also asks for the beginning of an identifier.
Reading undoes the spelling of a name as a class name, whatever follows the name, just if the name
has none of the four characters that no escape spells (`readName_escapeName_iff`).
-/

namespace BorderCss

/-! ## Escapes -/

/-- The characters that end a line in CSS. -/
def isLineEnd (c : Char) : Bool :=
  c = '\n' || c = '\r' || c = '\x0c'

/-- The number that hexadecimal digits write. -/
def hexNumber (digits : List Char) : Nat :=
  digits.foldl (fun n c => 16 * n + (hexDigit? c).getD 0) 0

/-- The character of a code point. The null character and a code point without a character are
replaced. -/
def codePoint (n : Nat) : Char :=
  if n ≠ 0 ∧ n.isValidChar then Char.ofNat n else '\uFFFD'

/-- The hexadecimal digits that an escape takes from a text, six at most. -/
def escapeDigits (text : List Char) : List Char :=
  (text.take 6).takeWhile fun c => (hexDigit? c).isSome

/-- The character that the text behind a backslash stands for, and what is left of the text. One
space behind hexadecimal digits belongs to them. Any other character stands for itself, unless it
ends the line. -/
def readEscape? (text : List Char) : Option (Char × List Char) :=
  let digits := escapeDigits text
  if digits = [] then
    match text with
    | [] => none
    | c :: rest => if isLineEnd c then none else some (codePoint c.toNat, rest)
  else
    let rest := text.drop digits.length
    some (codePoint (hexNumber digits), (cutStart? [' '] rest).getD rest)

/-! ## Names -/

/-- The first character of the name that a text begins with, and what is left of the text. -/
def readNameChar? : List Char → Option (Char × List Char)
  | [] => none
  | c :: rest =>
    if c = '\\' then readEscape? rest
    else if c.isAlphanum ∨ c = '-' ∨ c = '_' then some (c, rest)
    else none

variable {text rest name : List Char} {c : Char}

theorem length_cutSpace (text : List Char) :
    ((cutStart? [' '] text).getD text).length ≤ text.length := by
  cases text with
  | nil => exact Nat.le_refl _
  | cons c rest =>
    by_cases h : ' ' = c
    · subst h
      exact Nat.le_succ _
    · have hcut : cutStart? [' '] (c :: rest) = none := by
        show (if (' ' == c) = true then _ else none) = none
        rw [if_neg (by simpa using h)]
      rw [hcut]
      exact Nat.le_refl _

/-- An escape takes at least one character from the text. -/
theorem length_readEscape? (h : readEscape? text = some (c, rest)) : rest.length < text.length := by
  unfold readEscape? at h
  dsimp only at h
  split at h
  · split at h
    · cases h
    · split at h
      · cases h
      · cases h
        exact Nat.lt_succ_self _
  · next hdigits =>
    cases h
    have hne : text ≠ [] := by
      rintro rfl
      exact hdigits rfl
    have htext := List.length_pos_iff.2 hne
    have hpos := List.length_pos_iff.2 hdigits
    have hdrop := List.length_drop (l := text) (i := (escapeDigits text).length)
    have hspace := length_cutSpace (text.drop (escapeDigits text).length)
    omega

theorem length_readNameChar? (h : readNameChar? text = some (c, rest)) :
    rest.length < text.length := by
  unfold readNameChar? at h
  split at h
  · cases h
  · split at h
    · exact Nat.lt_succ_of_lt (length_readEscape? h)
    · split at h
      · cases h
        exact Nat.lt_succ_self _
      · cases h

/-- The characters of the name that a text begins with, and the text behind the name. -/
def readName (text : List Char) : List Char × List Char :=
  match _h : readNameChar? text with
  | none => ([], text)
  | some (c, rest) =>
    let (name, left) := readName rest
    (c :: name, left)
termination_by text.length
decreasing_by exact length_readNameChar? _h

/-- The text begins with a letter, an underscore or an escape. -/
def startsName : List Char → Bool
  | [] => false
  | c :: rest => c.isAlpha || c = '_' || (c = '\\' && (readEscape? rest).isSome)

/-- The text begins with an identifier: a name whose first character, or whose second behind a
hyphen, is no digit. Two hyphens begin an identifier too. -/
def startsIdentifier : List Char → Bool
  | '-' :: rest => rest.head? = some '-' || startsName rest
  | text => startsName text

/-- The identifier that a text begins with, and the text behind it. -/
def readIdentifier? (text : List Char) : Option (List Char × List Char) :=
  if startsIdentifier text then some (readName text) else none

/-! ## Reading names, one character at a time -/

theorem readName_of_none (h : readNameChar? text = none) : readName text = ([], text) := by
  rw [readName]
  split
  · rfl
  · next heq =>
    rw [h] at heq
    cases heq

theorem readName_of_some (h : readNameChar? text = some (c, rest)) :
    readName text = (c :: (readName rest).1, (readName rest).2) := by
  rw [readName]
  split
  · next heq =>
    rw [h] at heq
    cases heq
  · next heq =>
    rw [h] at heq
    cases heq
    rfl

/-! ## Spelled names -/

/-- Only the null character is replaced among those that are read by their code point. -/
theorem codePoint_toNat_eq_iff (c : Char) : codePoint c.toNat = c ↔ c ≠ '\x00' := by
  have hchar : c.toNat.isValidChar := c.valid
  unfold codePoint
  constructor
  · rintro hself rfl
    exact absurd hself (by decide)
  · intro hne
    have hzero : c.toNat ≠ 0 := by
      intro heq
      exact hne (Char.toNat_inj.1 heq)
    rw [if_pos ⟨hzero, hchar⟩, Char.ofNat_toNat]

theorem ne_of_isNameChar {d : Char} (h : isNameChar c = true) (hd : isNameChar d = false) :
    c ≠ d := by
  rintro rfl
  rw [hd] at h
  cases h

/-- A name character ends no line. -/
theorem isLineEnd_of_isNameChar (h : isNameChar c = true) : isLineEnd c = false := by
  have hnewline : c ≠ '\n' := ne_of_isNameChar h (by decide)
  have hreturn : c ≠ '\r' := ne_of_isNameChar h (by decide)
  have hfeed : c ≠ '\x0c' := ne_of_isNameChar h (by decide)
  simp [isLineEnd, hnewline, hreturn, hfeed]

/-- A hexadecimal digit is a name character, so it is not escaped by a backslash alone. -/
theorem hexDigit?_eq_none (h : isNameChar c = false) : hexDigit? c = none := by
  have halphanum : ((c.isUpper || c.isLower) || c.isDigit) = false := by
    rw [isNameChar, Bool.or_assoc, Bool.or_eq_false_iff] at h
    exact h.1
  rw [Bool.or_eq_false_iff, Bool.or_eq_false_iff] at halphanum
  obtain ⟨⟨hupper, hlower⟩, hdigit⟩ := halphanum
  have hsmall : ¬('a' ≤ c ∧ c ≤ 'f') := by
    rintro ⟨hfirst, hlast⟩
    have hrange : c.isLower = true :=
      Bool.and_eq_true_iff.2 ⟨decide_eq_true hfirst,
        decide_eq_true (Char.le_trans hlast (by decide : 'f' ≤ 'z'))⟩
    rw [hlower] at hrange
    cases hrange
  have hcapital : ¬('A' ≤ c ∧ c ≤ 'F') := by
    rintro ⟨hfirst, hlast⟩
    have hrange : c.isUpper = true :=
      decide_eq_true ⟨hfirst, Char.le_trans hlast (by decide : 'F' ≤ 'Z')⟩
    rw [hupper] at hrange
    cases hrange
  rw [hexDigit?, if_neg (by rw [hdigit]; exact Bool.false_ne_true), if_neg hsmall,
    if_neg hcapital]

/-- A character of an escaped name is read back as the character of its code point, and one that
ends a line is not read at all. -/
theorem readNameChar?_escapeChar (c : Char) (rest : List Char) :
    readNameChar? (escapeChar c ++ rest) =
      if isLineEnd c then none else some (codePoint c.toNat, rest) := by
  unfold escapeChar
  split
  · next hname =>
    have hslash : c ≠ '\\' := ne_of_isNameChar hname (by decide)
    have hself : codePoint c.toNat = c :=
      (codePoint_toNat_eq_iff c).2 (ne_of_isNameChar hname (by decide))
    have hplain : c.isAlphanum ∨ c = '-' ∨ c = '_' := by
      simpa [isNameChar, or_assoc] using hname
    rw [List.singleton_append, readNameChar?, if_neg hslash, if_pos hplain,
      isLineEnd_of_isNameChar hname, hself]
    rfl
  · next hname =>
    have hdigits : escapeDigits (c :: rest) = [] := by
      rw [escapeDigits, List.take_succ_cons, List.takeWhile_cons_of_neg]
      rw [hexDigit?_eq_none (Bool.not_eq_true _ ▸ hname)]
      exact Bool.false_ne_true
    rw [List.cons_append, List.singleton_append, readNameChar?, if_pos rfl, readEscape?]
    dsimp only
    rw [if_pos hdigits]

theorem hexDigit?_of_isDigit (h : c.isDigit = true) : hexDigit? c = some (c.toNat - 48) := by
  rw [hexDigit?, if_pos h]
  rfl

/-- A leading digit is read back from its code point, which the space behind it ends. -/
theorem readNameChar?_digit (h : c.isDigit = true) (rest : List Char) :
    readNameChar? ('\\' :: '3' :: c :: ' ' :: rest) = some (codePoint c.toNat, rest) := by
  have hvalue := hexDigit?_of_isDigit h
  -- Behind the space, `rest` may begin with hexadecimal digits.
  have hdigits : escapeDigits ('3' :: c :: ' ' :: rest) = ['3', c] := by
    have hthree : (hexDigit? '3').isSome = true := rfl
    have hspace : (hexDigit? ' ').isSome = false := rfl
    simp [escapeDigits, hthree, hspace, hvalue]
  have hnumber : hexNumber ['3', c] = c.toNat := by
    have hthree : hexDigit? '3' = some 3 := rfl
    have hrange := Char.isDigit_iff_toNat.1 h
    have hzero : '0'.toNat = 48 := rfl
    simp only [hexNumber, List.foldl_cons, List.foldl_nil, hthree, hvalue, Option.getD_some]
    omega
  rw [readNameChar?, if_pos rfl, readEscape?, hdigits]
  dsimp only
  rw [if_neg (List.cons_ne_nil _ _), hnumber]
  rfl

/-- The first character of a name is read back in the same way, also when it is a digit. -/
theorem readNameChar?_escapeName (c : Char) (name rest : List Char) :
    readNameChar? (escapeName (c :: name) ++ rest) =
      if isLineEnd c then none
      else some (codePoint c.toNat, name.flatMap escapeChar ++ rest) := by
  rw [escapeName, List.append_assoc]
  split
  · next hdigit =>
    have hname : isNameChar c = true := by simp [isNameChar, Char.isAlphanum, hdigit]
    rw [isLineEnd_of_isNameChar hname]
    exact readNameChar?_digit hdigit _
  · exact readNameChar?_escapeChar c _

/-! ## Reading spelled names back -/

/-- A name that escapes can spell: CSS replaces the null character, and a backslash in front of the
end of a line escapes nothing. -/
def Escapable (name : List Char) : Prop :=
  ∀ c ∈ name, c ≠ '\x00' ∧ isLineEnd c = false

instance (name : List Char) : Decidable (Escapable name) :=
  List.decidableBAll _ name

/-- One step of reading: a character that escapes can spell is read, and reading goes on behind it.
-/
theorem readName_eq_cons_iff {left : List Char}
    (h : readNameChar? text = if isLineEnd c then none else some (codePoint c.toNat, rest)) :
    readName text = (c :: name, left) ↔
      (c ≠ '\x00' ∧ isLineEnd c = false) ∧ readName rest = (name, left) := by
  cases hline : isLineEnd c with
  | true =>
    rw [hline, if_pos rfl] at h
    rw [readName_of_none h]
    simp
  | false =>
    rw [hline, if_neg Bool.false_ne_true] at h
    rw [readName_of_some h, Prod.mk.injEq, List.cons.injEq, codePoint_toNat_eq_iff, and_assoc,
      and_iff_left rfl, Prod.ext_iff]

/-- The characters behind the first are read back just if escapes can spell them, and then reading
goes on behind them. -/
theorem readName_flatMap_escapeChar_iff {after left : List Char} :
    readName (name.flatMap escapeChar ++ rest) = (name ++ after, left) ↔
      Escapable name ∧ readName rest = (after, left) := by
  induction name with
  | nil => exact (and_iff_right (List.forall_mem_nil _)).symm
  | cons c name ih =>
    rw [List.flatMap_cons, List.append_assoc, List.cons_append,
      readName_eq_cons_iff (readNameChar?_escapeChar c _), ih, ← and_assoc, Escapable, Escapable,
      List.forall_mem_cons]

/-- A spelled name is read back just if escapes can spell it, and then reading goes on behind it. -/
theorem readName_escapeName_iff {after left : List Char} :
    readName (escapeName name ++ rest) = (name ++ after, left) ↔
      Escapable name ∧ readName rest = (after, left) := by
  cases name with
  | nil => exact (and_iff_right (List.forall_mem_nil _)).symm
  | cons c name =>
    rw [List.cons_append, readName_eq_cons_iff (readNameChar?_escapeName c name rest),
      readName_flatMap_escapeChar_iff, ← and_assoc, Escapable, Escapable, List.forall_mem_cons]

/-! ## Identifiers -/

theorem isDigit_of_isAlpha (h : c.isAlpha = true) : c.isDigit = false := by
  have hletter : (c.isUpper || c.isLower) = true := h
  have hrange : 65 ≤ c.toNat := by
    rcases Bool.or_eq_true_iff.1 hletter with hupper | hlower
    · exact (of_decide_eq_true hupper).1
    · have hfirst : 97 ≤ c.toNat := of_decide_eq_true (Bool.and_eq_true_iff.1 hlower).1
      omega
  have hnine : '9'.toNat = 57 := rfl
  rw [← Bool.not_eq_true, Char.isDigit_iff_toNat]
  omega

/-- The class name of a name that begins with a letter begins an identifier. -/
theorem startsIdentifier_escapeName (h : c.isAlpha = true) (name rest : List Char) :
    startsIdentifier (escapeName (c :: name) ++ rest) = true := by
  have hdigit : ¬c.isDigit = true := Bool.not_eq_true _ ▸ isDigit_of_isAlpha h
  have hname : isNameChar c = true := by simp [isNameChar, Char.isAlphanum, h]
  have hhyphen : c ≠ '-' := by
    rintro rfl
    cases h
  rw [escapeName, if_neg hdigit, escapeChar, if_pos hname, List.append_assoc, List.singleton_append]
  unfold startsIdentifier
  split
  · next heq => exact absurd (List.cons.inj heq).1 hhyphen
  · rw [startsName, h]
    rfl

/-- The identifier of such a class name is the name, and ends where no name character follows. -/
theorem readIdentifier?_escapeName (hc : c.isAlpha = true) (hname : Escapable (c :: name))
    (hrest : readNameChar? rest = none) :
    readIdentifier? (escapeName (c :: name) ++ rest) = some (c :: name, rest) := by
  have hread : readName (escapeName (c :: name) ++ rest) = (c :: name ++ [], rest) :=
    readName_escapeName_iff.2 ⟨hname, readName_of_none hrest⟩
  rw [readIdentifier?, if_pos (startsIdentifier_escapeName hc name rest), hread, List.append_nil]

end BorderCss
