import BorderCss.Number.Fixed
import BorderCss.Proofs.Number.Nearest
import Mathlib.Algebra.Order.Field.Basic
import Mathlib.Data.Nat.Prime.Basic

/-!
# Ten places

A number is written as the multiple of 10^-10 nearest to it, which is at most half a unit of the
last place away (`abs_roundedPlaces_sub_le`), and the only multiple if it is nearer than that
(`roundedPlaces_eq`). Reading the decimal again need not give the number back, but it gives a number
that is written in the same way, at every magnitude (`roundedPlaces_of_isNearest`). The number that
was written is a candidate when the decimal is rounded, so the one that is read is at most as far
from the decimal; and both can be half a unit away only on different sides, one unit apart, which
two numbers with binary digits never are.
-/

namespace BorderCss

open Binary64

variable {n units a b : Nat}

/-- The value of `n` units of 10^-10. -/
def placesValue (n : Nat) : ℚ :=
  n / 10 ^ places

theorem abs_placesValue_sub (n units : Nat) :
    |placesValue n - unitsValue units| =
      |(n : ℚ) - (units * Nat.pow 10 places : Nat) / unitsPerOne| / 10 ^ places := by
  have hone := unitsPerOne_cast_pos
  have hplaces : (0 : ℚ) < 10 ^ places := by positivity
  have hscale : placesValue n - unitsValue units =
      (n - (units * Nat.pow 10 places : Nat) / unitsPerOne) / 10 ^ places := by
    have hpow : ((Nat.pow 10 places : Nat) : ℚ) = 10 ^ places := Nat.cast_pow 10 places
    rw [placesValue, unitsValue, Nat.cast_mul, hpow]
    generalize (unitsPerOne : ℚ) = one at hone ⊢
    field_simp
  rw [hscale, abs_div, abs_of_pos hplaces]

/-- A number is written with an error of half a unit of the last place at most. -/
theorem abs_roundedPlaces_sub_le (units : Nat) :
    |placesValue (roundedPlaces units) - unitsValue units| ≤ 1 / 2 / 10 ^ places := by
  rw [abs_placesValue_sub]
  exact div_le_div_of_nonneg_right
    (abs_roundHalfEven_sub_le unitsPerOne_pos (units * Nat.pow 10 places)) (by positivity)

/-- A multiple that is nearer than half a unit of the last place is the one that is written. -/
theorem roundedPlaces_eq (h : |placesValue n - unitsValue units| < 1 / 2 / 10 ^ places) :
    roundedPlaces units = n := by
  rw [abs_placesValue_sub, div_lt_div_iff_of_pos_right (by positivity)] at h
  exact roundHalfEven_eq unitsPerOne_pos h

/-- Two numbers do not differ by one unit of the last place, which is a multiple of one fifth. -/
theorem abs_unitsValue_sub_ne (a b : Nat) : |unitsValue a - unitsValue b| ≠ 1 / 10 ^ places := by
  intro h
  have hone := unitsPerOne_cast_pos
  rw [unitsValue, unitsValue, ← sub_div, abs_div, abs_of_pos hone,
    div_eq_div_iff hone.ne' (by positivity), one_mul] at h
  have hint : |(a : ℤ) - b| * 10 ^ places = unitsPerOne := by exact_mod_cast h
  have hnat : ((a : ℤ) - b).natAbs * 10 ^ places = 2 ^ 1074 := by
    rw [← unitsPerOne_eq]
    zify
    exact hint
  have hfive : 5 ∣ 10 ^ places := by decide
  have htwo : 5 ∣ 2 := Nat.prime_five.dvd_of_dvd_pow (hnat ▸ hfive.mul_left _)
  omega

/-- **Reading again.** The number that a written decimal is read as is written as that decimal. -/
theorem roundedPlaces_of_isNearest (ha : IsSignificant a)
    (hb : IsNearest (placesValue (roundedPlaces a)) b) : roundedPlaces b = roundedPlaces a := by
  have herror := abs_roundedPlaces_sub_le a
  have hnearest := hb.nearest a ha
  rw [abs_sub_comm (placesValue _)] at herror
  by_contra hne
  -- the number that is read would have to be half a unit away, on the other side of the decimal
  have hfar : 1 / 2 / 10 ^ places ≤ |unitsValue b - placesValue (roundedPlaces a)| := by
    rw [abs_sub_comm]
    exact not_lt.1 fun hlt => hne (roundedPlaces_eq hlt)
  have hequal : |unitsValue a - placesValue (roundedPlaces a)| =
      |unitsValue b - placesValue (roundedPlaces a)| :=
    le_antisymm (herror.trans hfar) hnearest
  have hhalf : |unitsValue b - placesValue (roundedPlaces a)| = 1 / 2 / 10 ^ places :=
    le_antisymm (hequal ▸ herror) hfar
  obtain hsame | hopposite := abs_eq_abs.1 hequal
  · rw [unitsValue_strictMono.injective (sub_left_inj.1 hsame)] at hne
    exact hne rfl
  · refine abs_unitsValue_sub_ne b a ?_
    have hdouble : unitsValue b - unitsValue a =
        2 * (unitsValue b - placesValue (roundedPlaces a)) := by linarith
    rw [hdouble, abs_mul, hhalf, abs_two]
    ring

/-- The number that a written decimal is read as is finite, since it is less than one away from the
number that was written. -/
theorem lt_unitsLimit_of_isNearest (ha : IsSignificant a) (hlimit : a < unitsLimit)
    (hb : IsNearest (placesValue (roundedPlaces a)) b) : b < unitsLimit := by
  have hone := unitsPerOne_cast_pos
  have herror := abs_roundedPlaces_sub_le a
  have hnearest := hb.nearest a ha
  have herror' := herror
  rw [abs_sub_comm] at herror'
  have hdist : unitsValue b - unitsValue a < 1 := by
    have hunit : (1 : ℚ) / 10 ^ places < 1 := by
      rw [div_lt_one (by positivity)]
      norm_num [places]
    calc unitsValue b - unitsValue a ≤ |unitsValue b - unitsValue a| := le_abs_self _
      _ ≤ |unitsValue b - placesValue (roundedPlaces a)| +
          |placesValue (roundedPlaces a) - unitsValue a| := abs_sub_le _ _ _
      _ ≤ 1 / 2 / 10 ^ places + 1 / 2 / 10 ^ places := add_le_add (hnearest.trans herror') herror
      _ = 1 / 10 ^ places := by ring
      _ < 1 := hunit
  have hlt : b < a + unitsPerOne := by
    rw [unitsValue, unitsValue, ← sub_div, div_lt_one hone, sub_lt_iff_lt_add'] at hdist
    exact_mod_cast hdist
  exact hlt.trans_le (ha.add_unitsPerOne_le hlimit)

end BorderCss
