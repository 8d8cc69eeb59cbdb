import BorderCss.Text.Classes
import BorderCss.Text.Hexadecimal

/-!
# Character classes

Folding onto ASCII changes capitals and two characters from outside (`foldLatin_eq_toLower`,
`toNat_lt_of_foldLatin`). The decimal digits of ASCII are the first of those of all scripts
(`isDigit_of_isDecimalDigit`). So what is read as a hexadecimal digit is one just if it is ASCII
(`isSome_hexDigit?_iff`), and fails to be only as a decimal digit of another script
(`toNat_lt_iff_of_isHexLike`).
-/

namespace BorderCss

variable {c : Char}

/-! ## Case -/

theorem toLower_of_not_capital (h : ¬(65 ≤ c.toNat ∧ c.toNat ≤ 90)) : c.toLower = c :=
  dif_neg h

theorem toNat_toLower_of_capital (h : 65 ≤ c.toNat ∧ c.toNat ≤ 90) :
    c.toLower.toNat = c.toNat + 32 := by
  have hlower : c.toLower.toNat = (c.val + 32).toNat := congrArg Char.toNat (dif_pos h)
  have hval : c.val.toNat = c.toNat := rfl
  have hstep : (32 : UInt32).toNat = 32 := rfl
  rw [hlower, UInt32.toNat_add, hval]
  omega

/-- A digit has no lower-case form of its own. -/
theorem toLower_of_isDigit (h : c.isDigit = true) : c.toLower = c := by
  have hnine : c.toNat ≤ 57 := (Char.isDigit_iff_toNat.1 h).2
  exact toLower_of_not_capital (by omega)

/-- Two characters are folded onto letters that do not look like them. -/
theorem foldLatin_eq_toLower (hlong : c ≠ '\u017F') (hkelvin : c ≠ '\u212A') :
    foldLatin c = c.toLower := by
  rw [foldLatin, if_neg (by simpa using hlong), if_neg (by simpa using hkelvin)]

/-- Two characters from outside ASCII fold into it. -/
theorem toNat_lt_of_foldLatin (h : (foldLatin c).toNat < 128) (hkelvin : foldLatin c ≠ 'k')
    (hlong : c ≠ '\u017F') : c.toNat < 128 := by
  have hsign : c ≠ '\u212A' := by
    rintro rfl
    exact hkelvin rfl
  rw [foldLatin_eq_toLower hlong hsign] at h
  by_cases hcapital : 65 ≤ c.toNat ∧ c.toNat ≤ 90
  · omega
  · rwa [toLower_of_not_capital hcapital] at h

/-! ## Decimal digits -/

theorem digitZeros_tail : digitZeros.tail.all (128 ≤ ·) = true := by
  decide

/-- The first range of decimal digits is the only one in ASCII. -/
theorem isDigit_of_isDecimalDigit (h : isDecimalDigit c = true) (hascii : c.toNat < 128) :
    c.isDigit = true := by
  have hzeros : digitZeros = 48 :: digitZeros.tail := rfl
  have hnine : '9'.toNat = 57 := rfl
  obtain ⟨first, hfirst, hrange⟩ := List.any_eq_true.1 h
  rw [Bool.and_eq_true, decide_eq_true_eq, decide_eq_true_eq] at hrange
  rw [hzeros] at hfirst
  rcases List.mem_cons.1 hfirst with rfl | htail
  · exact Char.isDigit_iff_toNat.2 ⟨hrange.1, by omega⟩
  · have hfar := of_decide_eq_true (List.all_eq_true.1 digitZeros_tail first htail)
    omega

/-- Decimal digits are written in one case only. -/
theorem foldLatin_of_isDecimalDigit (h : isDecimalDigit c = true) : foldLatin c = c := by
  have hlong : c ≠ '\u017F' := by rintro rfl; exact absurd h (by decide)
  have hkelvin : c ≠ '\u212A' := by rintro rfl; exact absurd h (by decide)
  rw [foldLatin_eq_toLower hlong hkelvin, toLower_of_not_capital]
  rintro ⟨hlow, hhigh⟩
  have hdigit := isDigit_of_isDecimalDigit h (by omega)
  have hnine : c.toNat ≤ 57 := (Char.isDigit_iff_toNat.1 hdigit).2
  omega

/-! ## Hexadecimal digits -/

/-- No foreign letter folds into one of the hexadecimal digits. -/
theorem hexLetter_of_foldLatin (hlow : 'a' ≤ foldLatin c) (hhigh : foldLatin c ≤ 'f') :
    'a' ≤ c ∧ c ≤ 'f' ∨ 'A' ≤ c ∧ c ≤ 'F' := by
  have hlong : c ≠ '\u017F' := by rintro rfl; exact absurd hhigh (by decide)
  have hkelvin : c ≠ '\u212A' := by rintro rfl; exact absurd hhigh (by decide)
  rw [foldLatin_eq_toLower hlong hkelvin] at hlow hhigh
  by_cases hcapital : 65 ≤ c.toNat ∧ c.toNat ≤ 90
  · have hlower := toNat_toLower_of_capital hcapital
    have hfirst : 97 ≤ c.toLower.toNat := hlow
    have hlast : c.toLower.toNat ≤ 102 := hhigh
    have hletter : 65 ≤ c.toNat ∧ c.toNat ≤ 70 := by omega
    exact .inr hletter
  · rw [toLower_of_not_capital hcapital] at hlow hhigh
    exact .inl ⟨hlow, hhigh⟩

theorem toNat_lt_of_hexLetter (h : 'a' ≤ c ∧ c ≤ 'f' ∨ 'A' ≤ c ∧ c ≤ 'F') : c.toNat < 128 := by
  obtain ⟨-, hlast⟩ | ⟨-, hlast⟩ := h
  · have hsmall : c.toNat ≤ 102 := hlast
    omega
  · have hcapital : c.toNat ≤ 70 := hlast
    omega

/-- What is read as a hexadecimal digit is a decimal digit or a letter in ASCII. -/
theorem isDecimalDigit_or_hexLetter (h : isHexLike c = true) :
    isDecimalDigit c = true ∨ ('a' ≤ c ∧ c ≤ 'f' ∨ 'A' ≤ c ∧ c ≤ 'F') := by
  rw [isHexLike, Bool.or_eq_true, Bool.and_eq_true, decide_eq_true_eq, decide_eq_true_eq] at h
  exact h.imp_right fun hrange => hexLetter_of_foldLatin hrange.1 hrange.2

/-- What is read as a hexadecimal digit is one just if it is ASCII. -/
theorem isSome_hexDigit?_iff (h : isHexLike c = true) :
    (hexDigit? c).isSome = true ↔ c.toNat < 128 := by
  unfold hexDigit?
  split
  · next hdigit =>
    have hnine : c.toNat ≤ 57 := (Char.isDigit_iff_toNat.1 hdigit).2
    exact iff_of_true rfl (by omega)
  · next hdigit =>
    split
    · next hsmall => exact iff_of_true rfl (toNat_lt_of_hexLetter (.inl hsmall))
    · next hsmall =>
      split
      · next hcapital => exact iff_of_true rfl (toNat_lt_of_hexLetter (.inr hcapital))
      · next hcapital =>
        refine iff_of_false Bool.false_ne_true fun hascii => ?_
        obtain hdecimal | hletter := isDecimalDigit_or_hexLetter h
        · exact hdigit (isDigit_of_isDecimalDigit hdecimal hascii)
        · exact hletter.elim hsmall hcapital

/-- What is read as a hexadecimal digit is ASCII unless it is a decimal digit of another script. -/
theorem toNat_lt_iff_of_isHexLike (h : isHexLike c = true) :
    c.toNat < 128 ↔ (isDecimalDigit c = true → c.isDigit = true) := by
  refine ⟨fun hascii hdecimal => isDigit_of_isDecimalDigit hdecimal hascii, fun himp => ?_⟩
  obtain hdecimal | hletter := isDecimalDigit_or_hexLetter h
  · have hnine : c.toNat ≤ 57 := (Char.isDigit_iff_toNat.1 (himp hdecimal)).2
    omega
  · exact toNat_lt_of_hexLetter hletter

end BorderCss
