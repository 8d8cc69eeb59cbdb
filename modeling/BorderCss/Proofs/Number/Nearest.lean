import BorderCss.Proofs.Number.Overflow
import Mathlib.Algebra.Order.Field.Rat
import Mathlib.Algebra.Order.Ring.Abs
import Mathlib.Tactic.FieldSimp
import Mathlib.Tactic.GCongr
import Mathlib.Tactic.Linarith
import Mathlib.Tactic.Qify

/-!
# Rounding to nearest

`IsNearest` says what a correctly rounded number is, without a word on how it is found: no number
with a significand of 53 bits is nearer to the value, and if another one is as near, the significand
is even. `rounded` finds such a number (`isNearest_rounded`), and there is only one
(`IsNearest.unique`): between two numbers with even significands there is always a third.
-/

namespace BorderCss

variable {num den k : Nat} {value : ℚ}

/-! ## Whole numbers -/

/-- A whole number is at least half a unit away from a value, unless it is the one that is at most
half a unit away. -/
theorem half_le_abs_sub (h : |(k : ℚ) - value| ≤ 1 / 2) {other : Nat} (hne : other ≠ k) :
    1 / 2 ≤ |(other : ℚ) - value| := by
  rw [abs_le] at h
  rw [le_abs]
  rcases Nat.lt_or_gt_of_ne hne with hlt | hlt
  · have hstep : (other : ℚ) + 1 ≤ k := by exact_mod_cast hlt
    right
    linarith
  · have hstep : (k : ℚ) + 1 ≤ other := by exact_mod_cast hlt
    left
    linarith

/-- A ratio is rounded to a whole number that is at most half a unit away, and to an even one if it
is exactly half a unit away. -/
theorem roundHalfEven_bounds (hden : 0 < den) (num : Nat) :
    2 * num ≤ 2 * (roundHalfEven num den * den) + den ∧
      2 * (roundHalfEven num den * den) ≤ 2 * num + den ∧
      (2 * num = 2 * (roundHalfEven num den * den) + den ∨
        2 * (roundHalfEven num den * den) = 2 * num + den → roundHalfEven num den % 2 = 0) := by
  have hnum := Nat.div_add_mod num den
  have hrest := Nat.mod_lt num hden
  rw [roundHalfEven]
  generalize num / den = below at *
  generalize num % den = rest at *
  have hup : (below + 1) * den = below * den + den := by ring
  rw [Nat.mul_comm den] at hnum
  split_ifs with hlow hhigh
  · omega
  · omega
  · -- halfway, so that the parity of the lower neighbour decides
    obtain heven | hodd := Nat.mod_two_eq_zero_or_one below
    · rw [heven, Nat.add_zero]
      omega
    · rw [hodd, hup]
      omega

/-- The distance between a whole number and a ratio. -/
theorem abs_sub_div (hden : 0 < den) (k num : Nat) :
    |(k : ℚ) - num / den| * den = |(k : ℚ) * den - num| := by
  have hpos : (0 : ℚ) < den := by exact_mod_cast hden
  calc |(k : ℚ) - num / den| * den = |((k : ℚ) - num / den) * den| := by
        rw [abs_mul, abs_of_pos hpos]
    _ = |(k : ℚ) * den - num| := by rw [sub_mul, div_mul_cancel₀ _ hpos.ne']

theorem abs_roundHalfEven_sub_le (hden : 0 < den) (num : Nat) :
    |(roundHalfEven num den : ℚ) - num / den| ≤ 1 / 2 := by
  obtain ⟨hlow, hhigh, -⟩ := roundHalfEven_bounds hden num
  have hpos : (0 : ℚ) < den := by exact_mod_cast hden
  rw [← mul_le_mul_iff_left₀ hpos, abs_sub_div hden, abs_le]
  qify at hlow hhigh
  constructor <;> linarith

theorem roundHalfEven_even (hden : 0 < den)
    (htie : |(roundHalfEven num den : ℚ) - num / den| = 1 / 2) : roundHalfEven num den % 2 = 0 := by
  obtain ⟨-, -, heven⟩ := roundHalfEven_bounds hden num
  apply heven
  have hscaled := abs_sub_div hden (roundHalfEven num den) num
  rw [htie] at hscaled
  qify
  obtain habs | habs := abs_choice ((roundHalfEven num den : ℚ) * den - num)
  · right
    linarith
  · left
    linarith

/-- The only whole number that is less than half a unit away. -/
theorem roundHalfEven_eq (hden : 0 < den) (h : |(k : ℚ) - num / den| < 1 / 2) :
    roundHalfEven num den = k := by
  by_contra hne
  exact absurd h (not_lt.2 (half_le_abs_sub (abs_roundHalfEven_sub_le hden num) (Ne.symm hne)))

/-- A ratio below a whole number is not rounded beyond it. -/
theorem roundHalfEven_le (hden : 0 < den) (h : num < k * den) : roundHalfEven num den ≤ k := by
  obtain ⟨-, hhigh, -⟩ := roundHalfEven_bounds hden num
  have hmul : 2 * roundHalfEven num den * den < (2 * k + 1) * den := by
    rw [Nat.add_mul, Nat.mul_assoc, Nat.mul_assoc]
    omega
  have hlt := Nat.lt_of_mul_lt_mul_right hmul
  omega

/-! ## Significands -/

namespace Binary64

/-- The value of so many units. -/
def unitsValue (units : Nat) : ℚ :=
  units / unitsPerOne

/-- The number of this many units can be written with the significand, which has at most 53 bits,
and some power of two. No exponent is too large here. -/
def HasSignificand (units significand : Nat) : Prop :=
  significand < 2 ^ 53 ∧ ∃ exponent, units = significand * 2 ^ exponent

/-- The number of this many units has a significand of at most 53 bits. -/
def IsSignificant (units : Nat) : Prop :=
  ∃ significand, HasSignificand units significand

/-- The number of this many units is a value correctly rounded: no number is nearer to the value,
and the significand is even if another number is as near. -/
structure IsNearest (value : ℚ) (units : Nat) : Prop where
  isSignificant : IsSignificant units
  nearest : ∀ other, IsSignificant other → |unitsValue units - value| ≤ |unitsValue other - value|
  even : ∀ other, IsSignificant other → other ≠ units →
    |unitsValue other - value| = |unitsValue units - value| →
      ∃ significand, HasSignificand units significand ∧ significand % 2 = 0

variable {units other significand a b e : Nat}

/-- A number is a multiple of every power of two that its binade is spaced by, or lies below that
binade. -/
theorem IsSignificant.dvd_or_lt (h : IsSignificant units) (e : Nat) :
    2 ^ e ∣ units ∨ units < 2 ^ (e + 52) := by
  obtain ⟨significand, hbits, exponent, rfl⟩ := h
  rcases Nat.lt_or_ge exponent e with hlt | hle
  · right
    have hpow : 2 ^ (exponent + 53) ≤ 2 ^ (e + 52) := Nat.pow_le_pow_right Nat.two_pos (by omega)
    calc significand * 2 ^ exponent < 2 ^ 53 * 2 ^ exponent :=
          Nat.mul_lt_mul_of_pos_right hbits (Nat.two_pow_pos exponent)
      _ = 2 ^ (exponent + 53) := by ring
      _ ≤ 2 ^ (e + 52) := hpow
  · exact .inl ((pow_dvd_pow 2 hle).mul_left significand)

theorem unitsPerOne_eq : unitsPerOne = 2 ^ 1074 := by
  decide +kernel

/-- A finite number is less than the limit by one at least. -/
theorem IsSignificant.add_unitsPerOne_le (ha : IsSignificant a) (hlimit : a < unitsLimit) :
    a + unitsPerOne ≤ unitsLimit := by
  obtain hdvd | hlt := ha.dvd_or_lt 1074
  · rw [← unitsPerOne_eq] at hdvd
    have hone : unitsPerOne ∣ unitsLimit := by decide +kernel
    have hstep := Nat.le_of_dvd (Nat.sub_pos_of_lt hlimit) (Nat.dvd_sub hone hdvd)
    omega
  · have hroom : 2 ^ (1074 + 52) + unitsPerOne ≤ unitsLimit := by decide +kernel
    omega

/-- Between two numbers with even significands lies a third number. -/
theorem exists_between (ha : HasSignificand a significand) (hasig : significand % 2 = 0)
    {other : Nat} (hb : HasSignificand b other) (hbsig : other % 2 = 0) (hlt : a < b) :
    ∃ c, IsSignificant c ∧ a < c ∧ c < b := by
  obtain ⟨habits, e, rfl⟩ := ha
  obtain ⟨hbbits, f, rfl⟩ := hb
  rcases Nat.le_total e f with hle | hle
  · -- both are multiples of twice the lower power, and so the next significand is still below
    obtain ⟨d, rfl⟩ := Nat.exists_eq_add_of_le hle
    have hmul : other * 2 ^ (e + d) = other * 2 ^ d * 2 ^ e := by ring
    have heven : other * 2 ^ d % 2 = 0 := by rw [Nat.mul_mod, hbsig, Nat.zero_mul, Nat.zero_mod]
    rw [hmul] at hlt ⊢
    have hsig := Nat.lt_of_mul_lt_mul_right hlt
    refine ⟨(significand + 1) * 2 ^ e, ⟨significand + 1, by omega, e, rfl⟩, ?_, ?_⟩
    · exact Nat.mul_lt_mul_of_pos_right (by omega) (Nat.two_pow_pos e)
    · exact Nat.mul_lt_mul_of_pos_right (by omega) (Nat.two_pow_pos e)
  · obtain ⟨d, rfl⟩ := Nat.exists_eq_add_of_le hle
    have hmul : significand * 2 ^ (f + d) = significand * 2 ^ d * 2 ^ f := by ring
    have heven : significand * 2 ^ d % 2 = 0 := by
      rw [Nat.mul_mod, hasig, Nat.zero_mul, Nat.zero_mod]
    rw [hmul] at hlt ⊢
    have hsig := Nat.lt_of_mul_lt_mul_right hlt
    refine ⟨(other - 1) * 2 ^ f, ⟨other - 1, by omega, f, rfl⟩, ?_, ?_⟩
    · exact Nat.mul_lt_mul_of_pos_right (by omega) (Nat.two_pow_pos f)
    · exact Nat.mul_lt_mul_of_pos_right (by omega) (Nat.two_pow_pos f)

theorem unitsPerOne_cast_pos : (0 : ℚ) < unitsPerOne := by
  exact_mod_cast unitsPerOne_pos

theorem unitsValue_strictMono : StrictMono unitsValue := fun _ _ h =>
  div_lt_div_of_pos_right (by exact_mod_cast h) unitsPerOne_cast_pos

/-- A value is correctly rounded to one number only. -/
theorem IsNearest.unique (ha : IsNearest value a) (hb : IsNearest value b) : a = b := by
  have hdist := le_antisymm (ha.nearest b hb.isSignificant) (hb.nearest a ha.isSignificant)
  -- the two are as near as each other, so that the value lies halfway and both are even
  have hone : ∀ {a b}, IsNearest value a → IsNearest value b →
      |unitsValue a - value| = |unitsValue b - value| → ¬a < b := by
    intro a b ha hb hdist hlt
    obtain ⟨_, hasig, haeven⟩ := ha.even b hb.isSignificant hlt.ne' hdist.symm
    obtain ⟨_, hbsig, hbeven⟩ := hb.even a ha.isSignificant hlt.ne hdist
    obtain ⟨c, hc, hac, hcb⟩ := exists_between hasig haeven hbsig hbeven hlt
    have hnearest := ha.nearest c hc
    have hac' := unitsValue_strictMono hac
    have hcb' := unitsValue_strictMono hcb
    rw [abs_eq_abs] at hdist
    obtain heq | hmid := hdist
    · linarith
    · rw [abs_of_neg (by linarith), le_abs] at hnearest
      rcases hnearest with h | h <;> linarith
  exact Nat.le_antisymm (Nat.not_lt.1 (hone hb ha hdist.symm)) (Nat.not_lt.1 (hone ha hb hdist))

/-! ## The number that is found -/

/-- The units that a ratio is rounded to, finite or not. -/
def rounded (num den : Nat) : Nat :=
  let step := Nat.pow 2 (spacing (num * unitsPerOne / den))
  roundHalfEven (num * unitsPerOne) (den * step) * step

theorem ofRatio_eq (negative : Bool) (num den : Nat) :
    ofRatio negative num den =
      if rounded num den < unitsLimit then .finite negative (rounded num den)
      else .infinite negative := rfl

/-- The distance from a ratio, counted in steps. -/
theorem abs_unitsValue_sub (hden : 0 < den) (num k e : Nat) :
    |unitsValue (k * 2 ^ e) - num / den| =
      |(k : ℚ) - (num * unitsPerOne : Nat) / (den * 2 ^ e : Nat)| * (2 ^ e / unitsPerOne) := by
  have hone := unitsPerOne_cast_pos
  have hden' : (0 : ℚ) < den := by exact_mod_cast hden
  have hstep : (0 : ℚ) < 2 ^ e / unitsPerOne := div_pos (by positivity) hone
  have hscale : unitsValue (k * 2 ^ e) - num / den =
      (k - (num * unitsPerOne : Nat) / (den * 2 ^ e : Nat)) * (2 ^ e / unitsPerOne) := by
    rw [unitsValue]
    push_cast
    -- the count of units is kept from being computed
    generalize (unitsPerOne : ℚ) = one at hone ⊢
    field_simp
  rw [hscale, abs_mul, abs_of_pos hstep]

/-- The ratio lies below the end of its binade. -/
theorem lt_two_pow_spacing (hden : 0 < den) (scaled : Nat) :
    scaled < 2 ^ (spacing (scaled / den) + 53) * den :=
  (Nat.div_lt_iff_lt_mul hden).1 ((spacing_lt_iff (Nat.succ_pos _)).1 (Nat.lt_succ_self _))

/-- Unless the spacing is one unit, the ratio does not lie below the beginning of its binade. -/
theorem two_pow_spacing_le (hden : 0 < den) {scaled : Nat} (h : 0 < spacing (scaled / den)) :
    2 ^ (spacing (scaled / den) + 52) * den ≤ scaled :=
  (Nat.le_div_iff_mul_le hden).1 (Nat.not_lt.1 (mt (spacing_lt_iff h).2 (Nat.lt_irrefl _)))

/-- A number below a power of two that the value reaches is farther from the value. -/
theorem abs_sub_lt_of_lt (hlt : a < b) (hb : unitsValue b ≤ value) :
    |unitsValue b - value| < |unitsValue a - value| := by
  have hab := unitsValue_strictMono hlt
  rw [abs_of_nonpos (by linarith), abs_of_neg (by linarith)]
  linarith

theorem isSignificant_mul (h : k ≤ 2 ^ 53) (e : Nat) : IsSignificant (k * 2 ^ e) := by
  rcases h.lt_or_eq with hlt | rfl
  · exact ⟨k, hlt, e, rfl⟩
  · exact ⟨1, by decide, 53 + e, by ring⟩

theorem hasSignificand_mul_even (h : k ≤ 2 ^ 53) (heven : k % 2 = 0) (e : Nat) :
    ∃ significand, HasSignificand (k * 2 ^ e) significand ∧ significand % 2 = 0 := by
  rcases h.lt_or_eq with hlt | rfl
  · exact ⟨k, ⟨hlt, e, rfl⟩, heven⟩
  · exact ⟨2, ⟨by decide, 52 + e, by ring⟩, rfl⟩

section steps

variable (hden : 0 < den)
  (hhalf : |(k : ℚ) - (num * unitsPerOne : Nat) / (den * 2 ^ e : Nat)| ≤ 1 / 2)

include hden hhalf

/-- Among the multiples of a step, one within half a step is the nearest. -/
theorem abs_sub_le_of_step (j : Nat) :
    |unitsValue (k * 2 ^ e) - num / den| ≤ |unitsValue (j * 2 ^ e) - num / den| := by
  have hstep : (0 : ℚ) < 2 ^ e / unitsPerOne := div_pos (by positivity) unitsPerOne_cast_pos
  rcases eq_or_ne j k with rfl | hne
  · exact le_rfl
  · rw [abs_unitsValue_sub hden, abs_unitsValue_sub hden]
    exact mul_le_mul_of_nonneg_right (hhalf.trans (half_le_abs_sub hhalf hne)) hstep.le

/-- If another multiple of the step is as near, both are half a step away. -/
theorem eq_half_of_step {j : Nat} (hne : j ≠ k)
    (htie : |unitsValue (j * 2 ^ e) - num / den| = |unitsValue (k * 2 ^ e) - num / den|) :
    |(k : ℚ) - (num * unitsPerOne : Nat) / (den * 2 ^ e : Nat)| = 1 / 2 := by
  have hstep : (0 : ℚ) < 2 ^ e / unitsPerOne := div_pos (by positivity) unitsPerOne_cast_pos
  rw [abs_unitsValue_sub hden, abs_unitsValue_sub hden] at htie
  have hequal := mul_right_cancel₀ hstep.ne' htie
  exact le_antisymm hhalf (hequal ▸ half_le_abs_sub hhalf hne)

/-- A number that is no multiple of the step of the value's binade lies below the binade, and so
farther from the value than the beginning of the binade. -/
theorem abs_sub_lt_of_not_dvd (hbinade : 0 < e → 2 ^ (e + 52) * den ≤ num * unitsPerOne)
    (hother : IsSignificant other) (hdvd : ¬2 ^ e ∣ other) :
    |unitsValue (k * 2 ^ e) - num / den| < |unitsValue other - num / den| := by
  have he : 0 < e := Nat.pos_of_ne_zero fun hzero => hdvd (by simp [hzero])
  have hlt : other < 2 ^ 52 * 2 ^ e := by
    rw [← pow_add, Nat.add_comm]
    exact (hother.dvd_or_lt e).resolve_left hdvd
  have hbegin : unitsValue (2 ^ 52 * 2 ^ e) ≤ num / den := by
    have hden' : (0 : ℚ) < den := by exact_mod_cast hden
    rw [unitsValue, div_le_div_iff₀ unitsPerOne_cast_pos hden', ← pow_add, Nat.add_comm]
    exact_mod_cast hbinade he
  exact (abs_sub_le_of_step hden hhalf (2 ^ 52)).trans_lt (abs_sub_lt_of_lt hlt hbegin)

end steps

/-- **Correct rounding.** A ratio is rounded to the nearest number, ties to the even significand. -/
theorem isNearest_rounded (hden : 0 < den) (num : Nat) :
    IsNearest (num / den) (rounded num den) := by
  have hbelow := lt_two_pow_spacing hden (num * unitsPerOne)
  have habove := @two_pow_spacing_le den hden (num * unitsPerOne)
  have hrounded : rounded num den = roundHalfEven (num * unitsPerOne)
      (den * 2 ^ spacing (num * unitsPerOne / den)) * 2 ^ spacing (num * unitsPerOne / den) := rfl
  generalize spacing (num * unitsPerOne / den) = e at hbelow habove hrounded
  have hstep : 0 < den * 2 ^ e := Nat.mul_pos hden (Nat.two_pow_pos e)
  have hhalf := abs_roundHalfEven_sub_le hstep (num * unitsPerOne)
  have hlimit : roundHalfEven (num * unitsPerOne) (den * 2 ^ e) ≤ 2 ^ 53 := by
    refine roundHalfEven_le hstep (hbelow.trans_eq ?_)
    ring
  rw [hrounded]
  refine ⟨isSignificant_mul hlimit e, fun other hother => ?_, fun other hother hne htie => ?_⟩
  · by_cases hdvd : 2 ^ e ∣ other
    · obtain ⟨j, rfl⟩ := hdvd
      rw [Nat.mul_comm (2 ^ e)]
      exact abs_sub_le_of_step hden hhalf j
    · exact (abs_sub_lt_of_not_dvd hden hhalf habove hother hdvd).le
  · by_cases hdvd : 2 ^ e ∣ other
    · obtain ⟨j, rfl⟩ := hdvd
      rw [Nat.mul_comm (2 ^ e)] at hne htie
      have hj := ne_of_apply_ne (· * 2 ^ e) hne
      exact hasSignificand_mul_even hlimit
        (roundHalfEven_even hstep (eq_half_of_step hden hhalf hj htie)) e
    · exact absurd htie (abs_sub_lt_of_not_dvd hden hhalf habove hother hdvd).ne'

/-- Half a step of `2^e` units is at most `2^(m - 54)`, for a step of no more than `2^(m - 53)`. -/
theorem half_step_le {m p : Nat} (he : e ≤ m + p) :
    1 / 2 * ((2 : ℚ) ^ e / 2 ^ (p + 53)) ≤ 2 ^ m / 2 ^ 54 := by
  have hstep : (2 : ℚ) ^ e ≤ 2 ^ (m + p) := pow_le_pow_right₀ (by norm_num) he
  calc 1 / 2 * ((2 : ℚ) ^ e / 2 ^ (p + 53)) ≤ 1 / 2 * (2 ^ (m + p) / 2 ^ (p + 53)) := by gcongr
    _ = 2 ^ m / 2 ^ 54 := by
        rw [pow_add, pow_add, mul_comm ((2 : ℚ) ^ m), mul_div_mul_left _ _ (by positivity)]
        ring

/-- Below `2^m`, rounding changes a value by `2^(m - 54)` at most. -/
theorem abs_rounded_sub_le {m : Nat} (hden : 0 < den) (h : num < 2 ^ m * den) :
    |unitsValue (rounded num den) - num / den| ≤ 2 ^ m / 2 ^ 54 := by
  have hscaled : num * unitsPerOne < 2 ^ (m + 1022 + 52) * den := by
    have hpow : 2 ^ (m + 1022 + 52) = 2 ^ m * unitsPerOne := by
      rw [unitsPerOne_eq, ← pow_add]
    rw [hpow, Nat.mul_right_comm]
    exact Nat.mul_lt_mul_of_pos_right h unitsPerOne_pos
  have hspacing : spacing (num * unitsPerOne / den) < m + 1022 := by
    rw [spacing_lt_iff (by omega), Nat.div_lt_iff_lt_mul hden]
    exact hscaled
  have hrounded : rounded num den = roundHalfEven (num * unitsPerOne)
      (den * 2 ^ spacing (num * unitsPerOne / den)) * 2 ^ spacing (num * unitsPerOne / den) := rfl
  generalize spacing (num * unitsPerOne / den) = e at hspacing hrounded
  have hhalf := abs_roundHalfEven_sub_le (Nat.mul_pos hden (Nat.two_pow_pos e)) (num * unitsPerOne)
  have hstep : (0 : ℚ) < 2 ^ e / unitsPerOne := div_pos (by positivity) unitsPerOne_cast_pos
  have hone : (unitsPerOne : ℚ) = 2 ^ (1021 + 53) := by
    rw [unitsPerOne_eq, Nat.cast_pow, Nat.cast_two]
  rw [hrounded, abs_unitsValue_sub hden]
  refine (mul_le_mul_of_nonneg_right hhalf hstep.le).trans ?_
  rw [hone]
  exact half_step_le (by omega)

/-- A ratio is rounded to zero if it is less than half a unit. -/
theorem rounded_eq_zero (h : 2 * (num * unitsPerOne) < den) : rounded num den = 0 := by
  have hlt : num * unitsPerOne < den := by omega
  have hrounded : rounded num den = roundHalfEven (num * unitsPerOne)
      (den * 2 ^ spacing (num * unitsPerOne / den)) * 2 ^ spacing (num * unitsPerOne / den) := rfl
  have hspacing : spacing 0 = 0 := rfl
  rw [hrounded, Nat.div_eq_of_lt hlt, hspacing, pow_zero, Nat.mul_one, Nat.mul_one, roundHalfEven,
    Nat.div_eq_of_lt hlt, Nat.mod_eq_of_lt hlt]
  exact if_pos h

/-! ## Doubles -/

/-- The double is finite, has the sign, and is the value correctly rounded. -/
def Rounds (number : Binary64) (negative : Bool) (value : ℚ) : Prop :=
  ∃ units, number = .finite negative units ∧ IsNearest value units ∧ units < unitsLimit

/-- The double is finite, so its units have a significand and do not reach the limit. -/
def IsDouble (number : Binary64) : Prop :=
  ∃ negative units, number = .finite negative units ∧ IsSignificant units ∧ units < unitsLimit

theorem Rounds.isDouble {negative : Bool} {number : Binary64}
    (h : number.Rounds negative value) : number.IsDouble := by
  obtain ⟨units, rfl, hunits, hlt⟩ := h
  exact ⟨negative, units, rfl, hunits.isSignificant, hlt⟩

/-- A ratio that does not overflow gives the double that it is correctly rounded to. -/
theorem rounds_iff (hden : 0 < den) {negative : Bool} {number : Binary64} :
    number.Rounds negative (num / den) ↔
      ofRatio negative num den = number ∧ number.isFinite = true := by
  have hnearest := isNearest_rounded hden num
  rw [ofRatio_eq]
  constructor
  · rintro ⟨units, rfl, hunits, hlt⟩
    rw [hnearest.unique hunits, if_pos hlt]
    exact ⟨rfl, rfl⟩
  · rintro ⟨rfl, hfinite⟩
    split at hfinite
    · next hlt => exact ⟨_, if_pos hlt, hnearest, hlt⟩
    · cases hfinite

end Binary64

end BorderCss
