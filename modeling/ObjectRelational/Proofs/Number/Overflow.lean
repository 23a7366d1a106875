import Mathlib.Algebra.Order.Field.Power
import Mathlib.Data.Rat.Cast.Order
import Mathlib.Tactic.FieldSimp
import Mathlib.Tactic.Linarith
import Mathlib.Tactic.Positivity
import ObjectRelational.Proofs.Number.Rounding

/-! # Decimals too great for a format

A decimal is rounded to infinity exactly when it lies at or beyond the middle between the greatest
finite number and the power of two that would follow it. What is written in digits is never rounded
to something that is no number.

* `BinaryFormat.limit`: that middle;
* `Decimal.isFinite_nearest_iff`: the decimals that are rounded to a finite number;
* `BinaryFormat.limit_double`: the middle for the wider of the two formats.
-/

namespace ObjectRelational

set_option autoImplicit false

/-! ## Rounded quotients below a bound -/

theorem div_le_roundHalfEven (num den : Nat) : num / den ≤ roundHalfEven num den := by
  unfold roundHalfEven
  dsimp only
  split_ifs <;> omega

theorem roundHalfEven_le_succ (num den : Nat) : roundHalfEven num den ≤ num / den + 1 := by
  unfold roundHalfEven
  dsimp only
  split_ifs <;> omega

/-- A quotient is rounded past an odd number from the middle to the next number on. -/
theorem roundHalfEven_le_iff {num den bound : Nat} (hden : 0 < den) (hodd : bound % 2 = 1) :
    roundHalfEven num den ≤ bound ↔ 2 * num < (2 * bound + 1) * den := by
  have hnum : num = num / den * den + num % den := (Nat.div_add_mod' num den).symm
  have hrest : num % den < den := Nat.mod_lt _ hden
  unfold roundHalfEven
  dsimp only
  generalize num / den = quotient at *
  generalize num % den = rest at *
  subst hnum
  rcases Nat.lt_trichotomy quotient bound with hlt | rfl | hgt
  · have hmul : (quotient + 1) * den ≤ bound * den := Nat.mul_le_mul_right _ hlt
    have hbelow : 2 * (quotient * den + rest) < (2 * bound + 1) * den := by linarith
    simp only [hbelow, iff_true]
    split_ifs <;> omega
  · have hmiddle : 2 * (quotient * den + rest) < (2 * quotient + 1) * den ↔ 2 * rest < den := by
      constructor <;> intro h <;> linarith
    rw [hmiddle]
    split_ifs <;> omega
  · have hmul : (bound + 1) * den ≤ quotient * den := Nat.mul_le_mul_right _ hgt
    have habove : ¬ 2 * (quotient * den + rest) < (2 * bound + 1) * den := by
      intro h
      linarith
    simp only [habove, iff_false]
    split_ifs <;> omega

/-- Shifted by what its bits are too many, a quotient has at most one bit before the fraction. -/
theorem div_shift_lt (scaled den bits : Nat) :
    scaled / (den * 2 ^ (Nat.log2 (scaled / den) - bits)) < 2 * 2 ^ bits := by
  set shift := Nat.log2 (scaled / den) - bits with hshift
  have hlog : scaled / den < 2 ^ (bits + shift + 1) :=
    Nat.lt_log2_self.trans_le (Nat.pow_le_pow_right (by decide) (by omega))
  rw [← Nat.div_div_eq_div_mul, Nat.div_lt_iff_lt_mul (Nat.two_pow_pos _)]
  calc scaled / den < 2 ^ (bits + shift + 1) := hlog
    _ = 2 * 2 ^ bits * 2 ^ shift := by
      rw [Nat.pow_succ, Nat.pow_add]
      ring

/-- It has that bit if it is shifted at all. -/
theorem le_div_shift {scaled den bits : Nat} (h : 0 < Nat.log2 (scaled / den) - bits) :
    2 ^ bits ≤ scaled / (den * 2 ^ (Nat.log2 (scaled / den) - bits)) := by
  have hne : scaled / den ≠ 0 := by
    intro hzero
    simp [hzero] at h
  rw [← Nat.div_div_eq_div_mul, Nat.le_div_iff_mul_le (Nat.two_pow_pos _), ← Nat.pow_add]
  exact (Nat.le_log2 hne).1 (by omega)

namespace BinaryFormat

variable {format : BinaryFormat}

theorem infinity_eq (h : 2 ≤ format.exponentBits) :
    format.infinity = (2 ^ format.exponentBits - 3 + 2) * 2 ^ format.fractionBits := by
  have hfour : 2 ^ 2 ≤ 2 ^ format.exponentBits := Nat.pow_le_pow_right (by decide) h
  change (2 ^ format.exponentBits - 1) * 2 ^ format.fractionBits = _
  congr 1
  omega

/-- A quotient is rounded to a finite magnitude below the middle between the last of them and the
power of two that would follow. -/
theorem roundQuotient_lt_infinity_iff (h : 2 ≤ format.exponentBits) (num : Nat) {den : Nat}
    (hden : 0 < den) : format.roundQuotient num den < format.infinity ↔
      2 * (num * 2 ^ format.scale) <
        (2 ^ (format.fractionBits + 2) - 1) * (2 ^ (2 ^ format.exponentBits - 3) * den) := by
  have hunits : 2 ^ (format.fractionBits + 2) = 4 * 2 ^ format.fractionBits := by
    rw [Nat.pow_add]
    ring
  rw [infinity_eq h, hunits]
  unfold roundQuotient
  simp only [Nat.pow_eq, infinity_eq h]
  generalize num * 2 ^ format.scale = scaled
  generalize 2 ^ format.exponentBits - 3 = top
  have hbelow := div_shift_lt scaled den format.fractionBits
  have habove := @le_div_shift scaled den format.fractionBits
  generalize Nat.log2 (scaled / den) - format.fractionBits = shift at *
  generalize hunit : 2 ^ format.fractionBits = unit at *
  have hpos : 0 < unit := hunit ▸ Nat.two_pow_pos _
  have hstep : 0 < den * 2 ^ shift := Nat.mul_pos hden (Nat.two_pow_pos _)
  -- How far the leading bit of the quotient lies above that of the greatest finite number.
  rcases Nat.lt_trichotomy shift top with hlt | rfl | hgt
  · have hmagnitude : shift * unit + roundHalfEven scaled (den * 2 ^ shift) < (top + 2) * unit := by
      have hround := (roundHalfEven_le_succ scaled (den * 2 ^ shift)).trans hbelow
      have hmul : (shift + 1) * unit ≤ top * unit := Nat.mul_le_mul_right _ hlt
      linarith
    have hscaled : 2 * scaled < (4 * unit - 1) * (2 ^ top * den) := by
      have hpower : 2 * 2 ^ shift ≤ 2 ^ top := by
        rw [← Nat.pow_succ']
        exact Nat.pow_le_pow_right (by decide) hlt
      calc 2 * scaled < 2 * (2 * unit * (den * 2 ^ shift)) :=
            Nat.mul_lt_mul_of_pos_left ((Nat.div_lt_iff_lt_mul hstep).1 hbelow) (by decide)
        _ = 2 * unit * (2 * 2 ^ shift * den) := by ring
        _ ≤ (4 * unit - 1) * (2 ^ top * den) :=
          Nat.mul_le_mul (by omega) (Nat.mul_le_mul_right _ hpower)
    exact iff_of_true (by omega) hscaled
  · have hround := @roundHalfEven_le_iff scaled _ _ hstep
      (show (2 * unit - 1) % 2 = 1 by omega)
    rw [show 2 * (2 * unit - 1) + 1 = 4 * unit - 1 by omega, Nat.mul_comm den] at hround
    rw [Nat.mul_comm den, ← hround, Nat.add_mul]
    omega
  · have hmagnitude : (top + 2) * unit ≤ shift * unit + roundHalfEven scaled (den * 2 ^ shift) := by
      have hround := (habove (by omega)).trans (div_le_roundHalfEven scaled (den * 2 ^ shift))
      have hmul : (top + 1) * unit ≤ shift * unit := Nat.mul_le_mul_right _ hgt
      linarith
    have hscaled : (4 * unit - 1) * (2 ^ top * den) ≤ 2 * scaled := by
      have hpower : 2 * 2 ^ top ≤ 2 ^ shift := by
        rw [← Nat.pow_succ']
        exact Nat.pow_le_pow_right (by decide) hgt
      calc (4 * unit - 1) * (2 ^ top * den) ≤ 4 * unit * (2 ^ top * den) :=
            Nat.mul_le_mul_right _ (Nat.sub_le _ _)
        _ = 2 * (unit * (den * (2 * 2 ^ top))) := by ring
        _ ≤ 2 * (unit * (den * 2 ^ shift)) := by gcongr
        _ ≤ 2 * scaled :=
          Nat.mul_le_mul_left _ ((Nat.le_div_iff_mul_le hstep).1 (habove (by omega)))
    exact iff_of_false (by omega) (by omega)

/-- The middle between the greatest finite number and the power of two that would follow it. -/
def limit (format : BinaryFormat) : ℚ :=
  (2 ^ (format.fractionBits + 2) - 1) * 2 ^ (2 ^ format.exponentBits - 3) / 2 ^ (format.scale + 1)

theorem limit_double : double.limit = 2 ^ 1024 - 2 ^ 970 := by
  have hexponent : 2 ^ double.exponentBits - 3 = 970 + (double.scale + 1) := by decide
  rw [limit, hexponent, pow_add 2 970, ← mul_assoc, mul_div_cancel_right₀ _ (by positivity),
    sub_mul, one_mul, ← pow_add]
  rfl

theorem roundQuotient_lt_infinity_iff_div (h : 2 ≤ format.exponentBits) (num : Nat) {den : Nat}
    (hden : 0 < den) : format.roundQuotient num den < format.infinity ↔
      (num : ℚ) / den < format.limit := by
  have hdenq : (0 : ℚ) < den := Nat.cast_pos.2 hden
  have hone : 1 ≤ 2 ^ (format.fractionBits + 2) := Nat.one_le_two_pow
  rw [roundQuotient_lt_infinity_iff h num hden, limit, div_lt_div_iff₀ hdenq (by positivity),
    ← Nat.cast_lt (α := ℚ)]
  push_cast [hone]
  rw [pow_succ 2 format.scale]
  constructor <;> intro hlt <;> linarith

theorem one_le_limit (h : 2 ≤ format.exponentBits) : 1 ≤ format.limit := by
  have hone : (1 : ℚ) ≤ 2 ^ (format.fractionBits + 1) := one_le_pow₀ (by norm_num)
  have hscale : format.scale + 1 ≤ format.fractionBits + 1 + (2 ^ format.exponentBits - 3) := by
    have hpower : 2 ^ format.exponentBits = 2 * 2 ^ (format.exponentBits - 1) := by
      rw [← Nat.pow_succ', Nat.succ_eq_add_one, Nat.sub_add_cancel (by omega)]
    have htwo : 2 ^ 1 ≤ 2 ^ (format.exponentBits - 1) := Nat.pow_le_pow_right (by decide) (by omega)
    rw [scale, Nat.pow_eq]
    omega
  rw [limit, one_le_div (by positivity)]
  calc (2 : ℚ) ^ (format.scale + 1)
      ≤ 2 ^ (format.fractionBits + 1 + (2 ^ format.exponentBits - 3)) :=
        pow_le_pow_right₀ (by norm_num) hscale
    _ = 2 ^ (format.fractionBits + 1) * 2 ^ (2 ^ format.exponentBits - 3) := pow_add _ _ _
    _ ≤ (2 ^ (format.fractionBits + 2) - 1) * 2 ^ (2 ^ format.exponentBits - 3) := by
      gcongr
      rw [pow_succ _ (format.fractionBits + 1)]
      linarith

theorem limit_le (covered : format.Covered) (h : 2 ≤ format.exponentBits) :
    format.limit ≤ 10 ^ 310 := by
  have hfour : 2 ^ 2 ≤ 2 ^ format.exponentBits := Nat.pow_le_pow_right (by decide) h
  have hgreatest : 2 ^ (format.fractionBits + 2 ^ format.exponentBits) ≤
      10 ^ 310 * 2 ^ format.scale := by
    refine Nat.le_of_mul_le_mul_right (c := 5 ^ format.scale) ?_ (Nat.pow_pos (by decide))
    calc 2 ^ (format.fractionBits + 2 ^ format.exponentBits) * 5 ^ format.scale
        ≤ 10 ^ (format.scale + 310) := covered.greatest
      _ = 10 ^ 310 * 2 ^ format.scale * 5 ^ format.scale := by
        rw [Nat.mul_assoc, ← Nat.mul_pow, ← Nat.pow_add, Nat.add_comm]
  rw [limit, div_le_iff₀ (by positivity)]
  calc (2 ^ (format.fractionBits + 2) - 1) * 2 ^ (2 ^ format.exponentBits - 3)
      ≤ (2 : ℚ) ^ (format.fractionBits + 2) * 2 ^ (2 ^ format.exponentBits - 3) := by
        gcongr
        linarith
    _ = 2 ^ (format.fractionBits + 2 + (2 ^ format.exponentBits - 3)) := (pow_add _ _ _).symm
    _ ≤ 2 ^ (format.fractionBits + 2 ^ format.exponentBits) :=
      pow_le_pow_right₀ (by norm_num) (by omega)
    _ ≤ 10 ^ 310 * 2 ^ format.scale := by exact_mod_cast hgreatest
    _ ≤ 10 ^ 310 * 2 ^ (format.scale + 1) := by
      gcongr
      · norm_num
      · omega

end BinaryFormat

namespace BinaryFloat

variable {format : BinaryFormat} {negative : Bool}

theorem magnitude_ofMagnitude {magnitude : Nat} (h : magnitude ≤ format.infinity) :
    (ofMagnitude format negative magnitude).magnitude = magnitude :=
  Nat.mod_eq_of_lt (h.trans_lt format.infinity_lt_magnitudes)

theorem isFinite_ofMagnitude_iff {magnitude : Nat} (h : magnitude ≤ format.infinity) :
    (ofMagnitude format negative magnitude).IsFinite ↔ magnitude < format.infinity := by
  rw [IsFinite, magnitude_ofMagnitude h]

theorem not_isNaN_ofMagnitude {magnitude : Nat} (h : magnitude ≤ format.infinity) :
    ¬ (ofMagnitude format negative magnitude).IsNaN := by
  rw [IsNaN, magnitude_ofMagnitude h]
  exact Nat.not_lt.2 h

theorem isFinite_ofQuotient_iff (h : 2 ≤ format.exponentBits) (num : Nat) {den : Nat}
    (hden : 0 < den) :
    (ofQuotient format negative num den).IsFinite ↔ (num : ℚ) / den < format.limit := by
  rw [← BinaryFormat.roundQuotient_lt_infinity_iff_div h num hden]
  exact isFinite_ofMagnitude_iff (Nat.min_le_left _ _)

end BinaryFloat

/-! ## Decimals -/

namespace Decimal

variable {format : BinaryFormat}

/-- The number that a decimal stands for, without its sign. -/
def size (d : Decimal) : ℚ :=
  d.coefficient * 10 ^ d.exponent

theorem size_lt (d : Decimal) :
    d.size < 10 ^ (d.exponent + (Text.digits d.coefficient).length) := by
  have hlt : d.coefficient < 10 ^ (Text.digits d.coefficient).length := by
    by_contra hle
    exact Nat.lt_irrefl _ (Text.lt_length_digits (Nat.not_lt.1 hle))
  have hltq : (d.coefficient : ℚ) < 10 ^ (Text.digits d.coefficient).length := by exact_mod_cast hlt
  rw [size, add_comm, zpow_add₀ (by norm_num), zpow_natCast]
  gcongr

theorem le_size {d : Decimal} (h : d.coefficient ≠ 0) :
    (10 : ℚ) ^ (d.exponent + (Text.digits d.coefficient).length - 1) ≤ d.size := by
  obtain ⟨n, hn⟩ : ∃ n, (Text.digits d.coefficient).length = n + 1 :=
    Nat.exists_eq_add_one_of_ne_zero (by simpa using Text.digits_ne_nil d.coefficient)
  have hle : 10 ^ n ≤ d.coefficient := by
    by_contra hlt
    rcases Nat.eq_zero_or_pos n with rfl | hpos
    · exact h (by simpa using hlt)
    · have := Text.length_digits_le hpos (Nat.not_le.1 hlt)
      omega
  have hleq : (10 : ℚ) ^ n ≤ d.coefficient := by exact_mod_cast hle
  have hexponent : d.exponent + (n + 1 : Nat) - 1 = n + d.exponent := by
    push_cast
    ring
  rw [size, hn, hexponent, zpow_add₀ (by norm_num), zpow_natCast]
  gcongr

/-- A decimal is rounded to a finite number exactly when it lies below the limit of the format. -/
theorem isFinite_nearest_iff (covered : format.Covered) (h : 2 ≤ format.exponentBits)
    (d : Decimal) : (nearest format d).IsFinite ↔ d.size < format.limit := by
  have hone : 1 ≤ format.limit := BinaryFormat.one_le_limit h
  unfold nearest
  dsimp only
  split
  · next hsmall =>
    have hzero : (BinaryFloat.ofMagnitude format d.negative 0).IsFinite := by
      rw [BinaryFloat.isFinite_ofMagnitude_iff (Nat.zero_le _), BinaryFormat.infinity_eq h]
      exact Nat.mul_pos (Nat.succ_pos _) (Nat.two_pow_pos _)
    refine iff_of_true hzero (lt_of_lt_of_le ?_ hone)
    rcases hsmall with hzero | hleading
    · simp [size, hzero]
    · exact d.size_lt.trans_le (zpow_le_one_of_nonpos₀ (by norm_num) (by omega))
  · next hlarge =>
    rw [not_or] at hlarge
    split
    · next hleading =>
      have hinfinite : ¬ (BinaryFloat.ofMagnitude format d.negative format.infinity).IsFinite := by
        rw [BinaryFloat.isFinite_ofMagnitude_iff le_rfl]
        exact Nat.lt_irrefl _
      refine iff_of_false hinfinite (not_lt.2 ?_)
      calc format.limit ≤ 10 ^ 310 := BinaryFormat.limit_le covered h
        _ ≤ 10 ^ (d.exponent + (Text.digits d.coefficient).length - 1) := by
          rw [← zpow_natCast]
          exact zpow_le_zpow_right₀ (by norm_num) (by push_cast; omega)
        _ ≤ d.size := le_size hlarge.1
    · split
      · next n hexponent =>
        rw [BinaryFloat.isFinite_ofQuotient_iff h _ Nat.one_pos, size, hexponent]
        simp
      · next n hexponent =>
        have hpow : 0 < Nat.pow 10 (n + 1) := Nat.pow_pos (by decide)
        rw [BinaryFloat.isFinite_ofQuotient_iff h _ hpow, size, hexponent, zpow_negSucc,
          div_eq_mul_inv]
        simp

theorem not_isNaN_nearest (format : BinaryFormat) (d : Decimal) :
    ¬ (nearest format d).IsNaN := by
  unfold nearest
  dsimp only
  split
  · exact BinaryFloat.not_isNaN_ofMagnitude (Nat.zero_le _)
  · split
    · exact BinaryFloat.not_isNaN_ofMagnitude le_rfl
    · split
      · exact BinaryFloat.not_isNaN_ofMagnitude (Nat.min_le_left _ _)
      · exact BinaryFloat.not_isNaN_ofMagnitude (Nat.min_le_left _ _)

end Decimal

end ObjectRelational
