import BorderCss.Number.Binary64
import Mathlib.Algebra.Order.Ring.Nat
import Mathlib.Data.Nat.Log
import Mathlib.Tactic.Ring

/-!
# Overflow

A ratio is rounded beyond every finite double just if it is `2^1024 - 2^970` or more
(`Binary64.isFinite_ofRatio_iff`): that is halfway between the largest double and `2^1024`, and a
tie goes to `2^1024`, whose significand is even. So a hundredfold overflows from a hundredth of that
on (`Binary64.isFinite_mul_hundred_iff`), and a quarter never does (`Binary64.isFinite_div_four`).
-/

namespace BorderCss

variable {num den k q p scaled a : Nat} {negative : Bool}

/-! ## Rounding to a whole number -/

/-- An even number is reached from half a unit below it on. -/
theorem le_roundHalfEven_iff (hden : 0 < den) (heven : k % 2 = 0) :
    k ≤ roundHalfEven num den ↔ 2 * k * den ≤ 2 * num + den := by
  have hnum := Nat.div_add_mod num den
  have hrest := Nat.mod_lt num hden
  rw [roundHalfEven]
  generalize num / den = below at *
  generalize num % den = rest at *
  obtain hle | rfl | hlt : k ≤ below ∨ k = below + 1 ∨ below + 2 ≤ k := by omega
  · have hmul : k * den ≤ below * den := Nat.mul_le_mul_right den hle
    rw [Nat.mul_comm den] at hnum
    rw [Nat.mul_assoc]
    split
    · omega
    · split <;> omega
  · -- the number is the upper neighbour, so a tie goes to it
    have hmul : 2 * (below + 1) * den = 2 * (den * below) + 2 * den := by ring
    rw [hmul]
    split
    · omega
    · split <;> omega
  · have hmul : (below + 2) * den ≤ k * den := Nat.mul_le_mul_right den hlt
    rw [Nat.add_mul, Nat.mul_comm below] at hmul
    rw [Nat.mul_assoc]
    split
    · omega
    · split <;> omega

/-- A power of two that is a multiple of twice the spacing is reached from half a spacing below it
on. -/
theorem two_pow_le_rounded_iff {e n : Nat} (hden : 0 < den) (he : e < n) :
    2 ^ n ≤ roundHalfEven num (den * 2 ^ e) * 2 ^ e ↔
      2 * (2 ^ n * den) ≤ 2 * num + den * 2 ^ e := by
  obtain ⟨d, rfl⟩ := Nat.exists_eq_add_of_lt he
  have hpow : 2 ^ (e + d + 1) = 2 ^ (d + 1) * 2 ^ e := by ring
  have heven : 2 ^ (d + 1) % 2 = 0 := by
    rw [Nat.pow_succ]
    exact Nat.mul_mod_left _ _
  have hhalf : 2 * 2 ^ (d + 1) * (den * 2 ^ e) = 2 * (2 ^ (d + 1) * 2 ^ e * den) := by ring
  rw [hpow, Nat.mul_le_mul_right_iff (Nat.two_pow_pos e),
    le_roundHalfEven_iff (Nat.mul_pos hden (Nat.two_pow_pos e)) heven, hhalf]

/-! ## Rounding to a double -/

namespace Binary64

/-- Where the spacing is less than `p`, all numbers are below `2^(p + 52)`. -/
theorem spacing_lt_iff (hp : 0 < p) : spacing q < p ↔ q < 2 ^ (p + 52) := by
  obtain rfl | hq := Nat.eq_zero_or_pos q
  · exact iff_of_true hp (Nat.two_pow_pos _)
  · rw [← Nat.log2_lt hq.ne', spacing]
    omega

/-- A ratio is rounded to `2^(p + 53)` or more just if it is halfway there from the number before,
or beyond. -/
theorem two_pow_le_units_iff (num : Nat) (hden : 0 < den) (hp : 0 < p) :
    2 ^ (p + 53) ≤ roundHalfEven num (den * 2 ^ spacing (num / den)) * 2 ^ spacing (num / den) ↔
      2 * (2 ^ (p + 53) * den) ≤ 2 * num + den * 2 ^ p := by
  have hdouble : 2 ^ (p + 53) * den = 2 * (2 ^ (p + 52) * den) := by ring
  have hstep : den * 2 ^ p ≤ 2 ^ (p + 52) * den := by
    rw [Nat.mul_comm den]
    exact Nat.mul_le_mul_right den (Nat.pow_le_pow_right Nat.two_pos (Nat.le_add_right p 52))
  obtain hlt | heq | hgt := Nat.lt_trichotomy (spacing (num / den)) p
  · -- the ratio is too small by half
    have hsmall : num < 2 ^ (p + 52) * den :=
      (Nat.div_lt_iff_lt_mul hden).1 ((spacing_lt_iff hp).1 hlt)
    have hspacing : den * 2 ^ spacing (num / den) ≤ den * 2 ^ p :=
      Nat.mul_le_mul_left den (Nat.pow_le_pow_right Nat.two_pos hlt.le)
    rw [two_pow_le_rounded_iff hden (by omega)]
    omega
  · rw [heq]
    exact two_pow_le_rounded_iff hden (by omega)
  · -- the ratio is at least the power itself
    have hlarge : 2 ^ (p + 53) * den ≤ num := by
      rw [← Nat.le_div_iff_mul_le hden, ← Nat.not_lt, Nat.add_succ p 52, ← Nat.succ_add,
        ← spacing_lt_iff p.succ_pos]
      omega
    generalize hspacing : spacing (num / den) = e at hgt ⊢
    have hown : 2 ^ (e + 52) * den ≤ num := by
      rw [← Nat.le_div_iff_mul_le hden, ← Nat.not_lt, ← spacing_lt_iff (by omega), hspacing]
      exact Nat.lt_irrefl e
    have hrounded : 2 ^ (e + 52) ≤ roundHalfEven num (den * 2 ^ e) * 2 ^ e := by
      rw [two_pow_le_rounded_iff hden (by omega)]
      omega
    have hpow : 2 ^ (p + 53) ≤ 2 ^ (e + 52) := Nat.pow_le_pow_right Nat.two_pos (by omega)
    exact iff_of_true (hpow.trans hrounded) (by omega)

/-- The least number of units that is rounded beyond every finite double. -/
def overflowUnits : Nat :=
  unitsLimit - Nat.pow 2 2044

theorem unitsLimit_eq : unitsLimit = 2 ^ (2045 + 53) := by
  decide +kernel

theorem unitsLimit_add_self : 2 * unitsLimit = 2 * overflowUnits + 2 ^ 2045 := by
  decide +kernel

theorem unitsPerOne_pos : 0 < unitsPerOne := by
  decide +kernel

theorem overflowUnits_pos : 0 < overflowUnits := by
  decide +kernel

/-- **Overflow.** A ratio is a finite double just if it is less than halfway from the largest one to
the limit. -/
theorem isFinite_ofRatio_iff (hden : 0 < den) :
    (ofRatio negative num den).isFinite = true ↔ num * unitsPerOne < overflowUnits * den := by
  have hrounded := two_pow_le_units_iff (p := 2045) (num * unitsPerOne) hden (by decide)
  have hhalf : 2 * (unitsLimit * den) = 2 * (overflowUnits * den) + den * 2 ^ 2045 := by
    rw [← Nat.mul_assoc, unitsLimit_add_self, Nat.add_mul, Nat.mul_assoc, Nat.mul_comm den]
  rw [← unitsLimit_eq, hhalf, Nat.add_le_add_iff_right, Nat.mul_le_mul_left_iff Nat.two_pos]
    at hrounded
  rw [← Nat.not_le, ← hrounded, ofRatio]
  split
  · next hlt => exact iff_of_true rfl (Nat.not_le.2 hlt)
  · next hge => exact iff_of_false Bool.false_ne_true (not_not_intro (Nat.not_lt.1 hge))

/-! ## Conversions -/

theorem ofNat_four : ofNat 4 = .finite false (4 * unitsPerOne) := by
  decide +kernel

theorem ofNat_hundred : ofNat 100 = .finite false (100 * unitsPerOne) := by
  decide +kernel

/-- A hundredfold is finite just if the number is less than a hundredth of what overflows. -/
theorem isFinite_mul_hundred_iff {number : Binary64} :
    (number.mul (.ofNat 100)).isFinite = true ↔
      ∃ s units, number = .finite s units ∧ 100 * units < overflowUnits := by
  rw [ofNat_hundred]
  cases number with
  | finite s units =>
    have hscale : units * (100 * unitsPerOne) * unitsPerOne =
        100 * units * (unitsPerOne * unitsPerOne) := by ring
    have hone : 0 < unitsPerOne * unitsPerOne := Nat.mul_pos unitsPerOne_pos unitsPerOne_pos
    rw [mul, isFinite_ofRatio_iff hone, hscale, Nat.mul_lt_mul_right hone]
    constructor
    · exact fun h => ⟨s, units, rfl, h⟩
    · rintro ⟨s, units, heq, h⟩
      cases heq
      exact h
  | infinite s =>
    have hne : 100 * unitsPerOne ≠ 0 := Nat.mul_ne_zero (by decide) unitsPerOne_pos.ne'
    rw [mul, if_neg hne]
    exact iff_of_false Bool.false_ne_true (by rintro ⟨s, units, heq, -⟩; cases heq)
  | nan => exact iff_of_false Bool.false_ne_true (by rintro ⟨s, units, heq, -⟩; cases heq)

/-- A quarter of a finite double is finite. -/
theorem isFinite_div_four {s : Bool} {units : Nat} (h : units < unitsLimit) :
    ((finite s units).div (.ofNat 4)).isFinite = true := by
  have hfour : 0 < 4 * unitsPerOne := Nat.mul_pos (by decide) unitsPerOne_pos
  have hlimit : unitsLimit ≤ overflowUnits * 4 := by decide +kernel
  rw [ofNat_four, div, if_neg hfour.ne', isFinite_ofRatio_iff hfour, ← Nat.mul_assoc,
    Nat.mul_lt_mul_right unitsPerOne_pos]
  exact h.trans_le hlimit

/-! ## Numbers that are read -/

/-- Units of a finite double do not reach the limit. -/
theorem units_lt_of_ofRatio {s : Bool} {units : Nat}
    (h : ofRatio negative num den = .finite s units) : units < unitsLimit := by
  rw [ofRatio] at h
  split at h
  · next hlt =>
    obtain ⟨-, rfl⟩ := Binary64.finite.inj h
    exact hlt
  · cases h

theorem units_lt_of_ofDecimal {s : Bool} {digits units : Nat} {exponent : Int}
    (h : ofDecimal negative digits exponent = .finite s units) : units < unitsLimit := by
  have hzero : 0 < unitsLimit := by decide +kernel
  unfold ofDecimal at h
  split at h
  · split at h
    · obtain ⟨-, rfl⟩ := Binary64.finite.inj h
      exact hzero
    · split at h
      · cases h
      · exact units_lt_of_ofRatio h
  · split at h
    · obtain ⟨-, rfl⟩ := Binary64.finite.inj h
      exact hzero
    · exact units_lt_of_ofRatio h

end Binary64

end BorderCss
