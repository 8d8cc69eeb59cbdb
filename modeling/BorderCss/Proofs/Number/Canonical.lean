import BorderCss.Proofs.Number.Numeral
import Mathlib.Data.List.DropRight

/-!
# Canonical numerals

A numeral without superfluous zeros is canonical (`Numeral.IsCanonical`). Every numeral can be freed
of them: what is left is canonical (`Numeral.isCanonical_canonical`) and stands for the same number
(`Numeral.magnitude_canonical`). No other canonical numeral does (`Numeral.IsCanonical.eq`), since
its whole part is the digits of a number (`toDigits_digitsValue`) and its fraction is the only one
of its value, up to zeros at its end.
-/

namespace BorderCss

variable {a b n : Nat} {c : Char} {digits others : List Char}

/-! ## Digits -/

theorem digitsValue_singleton (c : Char) : digitsValue [c] = c.toNat - 48 := by
  rw [digitsValue, Nat.ofDigitChars_cons, Nat.ofDigitChars_nil, Nat.mul_zero, Nat.zero_add]
  rfl

theorem digitsValue_singleton_lt (h : c.isDigit = true) : digitsValue [c] < 10 := by
  have hnine : c.toNat ≤ 57 := (Char.isDigit_iff_toNat.1 h).2
  rw [digitsValue_singleton]
  omega

/-- A digit is that of its value. -/
theorem digitChar_digitsValue (h : c.isDigit = true) : Nat.digitChar (digitsValue [c]) = c := by
  have hlt := digitsValue_singleton_lt h
  have hzero : 48 ≤ c.toNat := (Char.isDigit_iff_toNat.1 h).1
  have hvalue := Nat.toNat_digitChar_of_lt_ten hlt
  rw [← Char.toNat_inj, hvalue, digitsValue_singleton]
  omega

/-- A quotient and a remainder can be told from the sum that they make. -/
theorem eq_and_eq_of_mul_add_eq {p x y : Nat} (hx : x < p) (hy : y < p)
    (h : a * p + x = b * p + y) : a = b ∧ x = y := by
  have hdiv : ∀ q r, r < p → (q * p + r) / p = q := by
    intro q r hr
    rw [Nat.mul_comm, Nat.mul_add_div (by omega), Nat.div_eq_of_lt hr, Nat.add_zero]
  have hquotient : a = b := by rw [← hdiv a x hx, h, hdiv b y hy]
  subst hquotient
  exact ⟨rfl, Nat.add_left_cancel h⟩

theorem digitsValue_lt (h : ∀ c ∈ digits, c.isDigit = true) :
    digitsValue digits < 10 ^ digits.length := by
  induction digits with
  | nil => exact Nat.one_pos
  | cons c rest ih =>
    have hfirst := digitsValue_singleton_lt (h c List.mem_cons_self)
    have hrest := ih fun d hd => h d (List.mem_cons_of_mem c hd)
    calc digitsValue ([c] ++ rest) = digitsValue [c] * 10 ^ rest.length + digitsValue rest :=
          digitsValue_append [c] rest
      _ < digitsValue [c] * 10 ^ rest.length + 1 * 10 ^ rest.length := by omega
      _ = (digitsValue [c] + 1) * 10 ^ rest.length := (Nat.add_mul _ _ _).symm
      _ ≤ 10 * 10 ^ rest.length := Nat.mul_le_mul_right _ hfirst
      _ = 10 ^ (c :: rest).length := (Nat.pow_succ').symm

/-- As many digits of the same value are the same digits. -/
theorem digitsValue_injective (hdigits : ∀ c ∈ digits, c.isDigit = true)
    (hothers : ∀ c ∈ others, c.isDigit = true) (hlength : digits.length = others.length)
    (h : digitsValue digits = digitsValue others) : digits = others := by
  induction digits generalizing others with
  | nil => exact (List.length_eq_zero_iff.1 hlength.symm).symm
  | cons c rest ih =>
    cases others with
    | nil => cases hlength
    | cons d others =>
      have hrest := Nat.succ.inj hlength
      have hc := hdigits c List.mem_cons_self
      have hd := hothers d List.mem_cons_self
      have hleft : ∀ c ∈ rest, c.isDigit = true := fun e he => hdigits e (List.mem_cons_of_mem c he)
      have hright : ∀ c ∈ others, c.isDigit = true :=
        fun e he => hothers e (List.mem_cons_of_mem d he)
      have hsplit : digitsValue [c] * 10 ^ rest.length + digitsValue rest =
          digitsValue [d] * 10 ^ rest.length + digitsValue others := by
        rw [← digitsValue_append, hrest, ← digitsValue_append]
        exact h
      obtain ⟨hfirst, hvalue⟩ := eq_and_eq_of_mul_add_eq (digitsValue_lt hleft)
        (hrest ▸ digitsValue_lt hright) hsplit
      rw [← digitChar_digitsValue hc, hfirst, digitChar_digitsValue hd,
        ih hleft hright hrest hvalue]

/-- A zero behind a number makes it ten times as large. -/
theorem digitsValue_append_zeros (digits : List Char) (k : Nat) :
    digitsValue (digits ++ List.replicate k '0') = digitsValue digits * 10 ^ k := by
  have hzeros : digitsValue (List.replicate k '0') = 0 := Nat.ofDigitChars_replicate_zero
  rw [digitsValue_append, hzeros, List.length_replicate, Nat.add_zero]

theorem isDigit_append_zeros (h : ∀ c ∈ digits, c.isDigit = true) (k : Nat) :
    ∀ c ∈ digits ++ List.replicate k '0', c.isDigit = true := by
  intro c hc
  rcases List.mem_append.1 hc with hc | hc
  · exact h c hc
  · rw [List.eq_of_mem_replicate hc]
    rfl

/-- A number above zero does not begin with a zero. -/
theorem head?_toDigits (h : (Nat.toDigits 10 n).head? = some '0') : n = 0 := by
  induction n using Nat.strong_induction_on with
  | _ n ih =>
    rw [Nat.toDigits_eq_if (by decide)] at h
    split at h
    · next hlt =>
      have hchar : n.digitChar = '0' := Option.some.inj h
      simpa using hchar
    · next hle =>
      have hne : Nat.toDigits 10 (n / 10) ≠ [] := Nat.toDigits_ne_nil
      rw [List.head?_append_of_ne_nil _ hne] at h
      have hzero := ih (n / 10) (by omega) h
      omega

/-- Digits that do not begin with a zero are those of their value. -/
theorem toDigits_digitsValue (h : IsDigits digits)
    (hhead : digits.head? = some '0' → digits = ['0']) :
    Nat.toDigits 10 (digitsValue digits) = digits := by
  induction digits using List.reverseRecOn with
  | nil => exact absurd rfl h.nonempty
  | append_singleton init c ih =>
    have hc : c.isDigit = true := h.isDigit c (by simp)
    have hlt := digitsValue_singleton_lt hc
    have hvalue : digitsValue (init ++ [c]) = 10 * digitsValue init + digitsValue [c] := by
      rw [digitsValue_append, List.length_singleton, pow_one, Nat.mul_comm]
    rcases eq_or_ne init [] with rfl | hinit
    · rw [List.nil_append, Nat.toDigits_of_lt_base hlt, digitChar_digitsValue hc]
    · have hfirst : init.head? ≠ some '0' := by
        intro hzero
        have hall := hhead (by rw [List.head?_append_of_ne_nil _ hinit, hzero])
        exact hinit (by simpa using congrArg List.dropLast hall)
      have hstart := ih ⟨hinit, fun d hd => h.isDigit d (List.mem_append_left _ hd)⟩
        fun hzero => absurd hzero hfirst
      have hpos : digitsValue init ≠ 0 := by
        intro hzero
        rw [hzero] at hstart
        exact hfirst (hstart ▸ rfl)
      rw [hvalue, Nat.toDigits_eq_if (by decide), if_neg (by omega),
        Nat.mul_add_div (by decide), Nat.div_eq_of_lt hlt, Nat.add_zero, Nat.mul_add_mod,
        Nat.mod_eq_of_lt hlt, hstart, digitChar_digitsValue hc]

/-! ## Trailing zeros -/

/-- Only zeros are dropped. -/
theorem exists_dropTrailingZeros (digits : List Char) :
    ∃ k, digits = dropTrailingZeros digits ++ List.replicate k '0' := by
  have hzeros : ∀ c ∈ digits.rtakeWhile (· == '0'), c = '0' := fun c hc =>
    eq_of_beq (List.mem_rtakeWhile_imp (p := (· == '0')) hc)
  have happend : digits = dropTrailingZeros digits ++ digits.rtakeWhile (· == '0') :=
    List.rdropWhile_append_rtakeWhile.symm
  rw [List.eq_replicate_of_mem hzeros] at happend
  exact ⟨_, happend⟩

theorem getLast?_dropTrailingZeros (digits : List Char) :
    (dropTrailingZeros digits).getLast? ≠ some '0' := by
  intro h
  have hne : digits.rdropWhile (· == '0') ≠ [] := by
    intro hnil
    rw [dropTrailingZeros, ← List.rdropWhile, hnil] at h
    cases h
  have hlast := List.rdropWhile_last_not (· == '0') digits hne
  rw [dropTrailingZeros, ← List.rdropWhile, List.getLast?_eq_getLast_of_ne_nil hne] at h
  exact hlast (beq_iff_eq.2 (Option.some.inj h))

/-- Zeros at the end are all that is dropped from digits that did not end with one. -/
theorem dropTrailingZeros_append_replicate (h : digits.getLast? ≠ some '0') (k : Nat) :
    dropTrailingZeros (digits ++ List.replicate k '0') = digits := by
  have hself : digits.rdropWhile (· == '0') = digits := by
    refine List.rdropWhile_eq_self_iff.2 fun hne hzero => h ?_
    rw [List.getLast?_eq_getLast_of_ne_nil hne, eq_of_beq hzero]
  rw [dropTrailingZeros, List.reverse_append, List.reverse_replicate,
    List.dropWhile_append_of_pos (by simp)]
  exact hself

/-! ## Canonical numerals -/

namespace Numeral

/-- A numeral without superfluous zeros: its whole part is zero or does not begin with a zero, and
its fraction does not end with one. -/
structure IsCanonical (numeral : Numeral) : Prop where
  whole : IsDigits numeral.whole
  head : numeral.whole.head? = some '0' → numeral.whole = ['0']
  fraction : ∀ c ∈ numeral.fraction, c.isDigit = true
  last : numeral.fraction.getLast? ≠ some '0'

/-- The numeral without its superfluous zeros. A whole part that is missing becomes a zero. -/
def canonical (numeral : Numeral) : Numeral where
  negative := numeral.negative
  whole := Nat.toDigits 10 (digitsValue numeral.whole)
  fraction := dropTrailingZeros numeral.fraction

variable {numeral other : Numeral}

theorem IsCanonical.isPlain (h : numeral.IsCanonical) : numeral.IsPlain where
  nonempty := List.append_ne_nil_of_left_ne_nil h.whole.nonempty _
  isDigit := by
    intro c hc
    rcases List.mem_append.1 hc with hc | hc
    · exact h.whole.isDigit c hc
    · exact h.fraction c hc

theorem isCanonical_canonical (h : ∀ c ∈ numeral.fraction, c.isDigit = true) :
    numeral.canonical.IsCanonical where
  whole := isDigits_toDigits _
  head hzero := by
    rw [canonical, head?_toDigits hzero]
    rfl
  fraction _ hc := h _ (dropTrailingZeros_subset _ hc)
  last := getLast?_dropTrailingZeros _

/-- The value of a numeral by its parts. -/
theorem magnitude_eq (numeral : Numeral) :
    numeral.magnitude = ((digitsValue numeral.whole * 10 ^ numeral.fraction.length +
      digitsValue numeral.fraction : Nat) : ℚ) / 10 ^ numeral.fraction.length := by
  rw [magnitude, digitsValue_append]

/-- Superfluous zeros do not count. -/
theorem magnitude_canonical (numeral : Numeral) :
    numeral.canonical.magnitude = numeral.magnitude := by
  obtain ⟨k, hk⟩ := exists_dropTrailingZeros numeral.fraction
  have hlength := congrArg List.length hk
  have hvalue := congrArg digitsValue hk
  have hwhole : digitsValue (Nat.toDigits 10 (digitsValue numeral.whole)) =
      digitsValue numeral.whole := Nat.ofDigitChars_ten_toDigits
  rw [List.length_append, List.length_replicate] at hlength
  rw [digitsValue_append_zeros] at hvalue
  rw [magnitude_eq, magnitude_eq, canonical]
  dsimp only
  rw [hwhole, hvalue, hlength, div_eq_div_iff (by positivity) (by positivity)]
  push_cast
  ring

/-- **Canonical numerals.** A canonical numeral is the only one of its sign and value. -/
theorem IsCanonical.eq (h : numeral.IsCanonical) (hother : other.IsCanonical)
    (hsign : numeral.negative = other.negative) (hvalue : numeral.magnitude = other.magnitude) :
    numeral = other := by
  have hlt := Nat.mul_lt_mul_of_pos_right (digitsValue_lt h.fraction)
    (Nat.pow_pos (n := other.fraction.length) (by decide : 0 < 10))
  have hltOther := Nat.mul_lt_mul_of_pos_right (digitsValue_lt hother.fraction)
    (Nat.pow_pos (n := numeral.fraction.length) (by decide : 0 < 10))
  rw [← Nat.pow_add] at hlt hltOther
  rw [magnitude_eq, magnitude_eq, div_eq_div_iff (by positivity) (by positivity)] at hvalue
  norm_cast at hvalue
  rw [Nat.add_mul, Nat.add_mul, Nat.mul_assoc, Nat.mul_assoc, ← Nat.pow_add, ← Nat.pow_add]
    at hvalue
  rw [Nat.add_comm other.fraction.length] at hltOther hvalue
  obtain ⟨hwhole, hfraction⟩ := eq_and_eq_of_mul_add_eq hlt hltOther hvalue
  -- the fractions are the same digits once zeros make them as long as each other
  have hpadded : numeral.fraction ++ List.replicate other.fraction.length '0' =
      other.fraction ++ List.replicate numeral.fraction.length '0' := by
    refine digitsValue_injective (isDigit_append_zeros h.fraction _)
      (isDigit_append_zeros hother.fraction _) ?_ ?_
    · rw [List.length_append, List.length_append, List.length_replicate, List.length_replicate,
        Nat.add_comm]
    · rw [digitsValue_append_zeros, digitsValue_append_zeros, hfraction]
  have hsame := congrArg dropTrailingZeros hpadded
  rw [dropTrailingZeros_append_replicate h.last, dropTrailingZeros_append_replicate hother.last]
    at hsame
  have hdigits : numeral.whole = other.whole := by
    rw [← toDigits_digitsValue h.whole h.head, hwhole,
      toDigits_digitsValue hother.whole hother.head]
  cases numeral
  cases other
  exact (Numeral.mk.injEq ..).mpr ⟨hsign, hdigits, hsame⟩

end Numeral

end BorderCss
