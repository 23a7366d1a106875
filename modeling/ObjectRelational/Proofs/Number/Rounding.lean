import Mathlib.Data.Nat.Log
import Mathlib.Tactic.NormNum
import Mathlib.Tactic.Ring
import ObjectRelational.Number.Shortest
import ObjectRelational.Proofs.Text.Reading

/-! # Decimals that read back

Rounding gives a magnitude back from every quotient that equals it. On the finest grid the search
for the shortest decimal ends with such a quotient, and on a coarser one only with a decimal it has
read back, so that what it finds always reads back.

* `BinaryFormat.roundQuotient_of_eq`: rounding is exact where it can be;
* `Number.nearest_shortest`: the shortest decimal of a finite number reads back.
-/

namespace ObjectRelational

set_option autoImplicit false

/-! ## Exact quotients -/

theorem roundHalfEven_mul (quotient : Nat) {den : Nat} (h : 0 < den) :
    roundHalfEven (quotient * den) den = quotient := by
  simp [roundHalfEven, h]

theorem roundHalfEven_mul_mul (num den : Nat) {factor : Nat} (h : 0 < factor) :
    roundHalfEven (num * factor) (den * factor) = roundHalfEven num den := by
  have hdouble : 2 * (num % den * factor) = 2 * (num % den) * factor := (Nat.mul_assoc _ _ _).symm
  simp only [roundHalfEven, Nat.mul_div_mul_right _ _ h, Nat.mul_mod_mul_right, hdouble,
    Nat.mul_lt_mul_right h]

namespace BinaryFormat

variable {format : BinaryFormat} {magnitude : Nat}

theorem infinity_add_unit (format : BinaryFormat) :
    format.infinity + 2 ^ format.fractionBits = format.magnitudes := by
  change (2 ^ format.exponentBits - 1) * 2 ^ format.fractionBits + _ =
    2 ^ (format.exponentBits + format.fractionBits)
  rw [← Nat.succ_mul, Nat.succ_eq_add_one, Nat.sub_add_cancel (Nat.two_pow_pos _), Nat.pow_add]

theorem infinity_lt_magnitudes (format : BinaryFormat) : format.infinity < format.magnitudes := by
  rw [← infinity_add_unit]
  exact Nat.lt_add_of_pos_right (Nat.two_pow_pos _)

theorem quietBit_mul_two (h : 0 < format.fractionBits) :
    format.quietBit * 2 = 2 ^ format.fractionBits := by
  change 2 ^ (format.fractionBits - 1) * 2 = _
  rw [← Nat.pow_succ, Nat.succ_eq_add_one, Nat.sub_add_cancel h]

theorem quanta_of_lt (h : magnitude < 2 ^ format.fractionBits) :
    format.quanta magnitude = magnitude :=
  if_pos h

/-- Above the subnormal magnitudes a number is a fraction with its leading one, shifted. -/
theorem quanta_of_le (h : 2 ^ format.fractionBits ≤ magnitude) :
    format.quanta magnitude =
      (2 ^ format.fractionBits + magnitude % 2 ^ format.fractionBits) *
        2 ^ (magnitude / 2 ^ format.fractionBits - 1) :=
  if_neg (Nat.not_lt.2 h)

theorem log2_quanta (h : 2 ^ format.fractionBits ≤ magnitude) :
    Nat.log2 (format.quanta magnitude) =
      format.fractionBits + (magnitude / 2 ^ format.fractionBits - 1) := by
  have hunit : 0 < 2 ^ format.fractionBits := Nat.two_pow_pos _
  have hrest : magnitude % 2 ^ format.fractionBits < 2 ^ format.fractionBits :=
    Nat.mod_lt _ hunit
  have hshift : 0 < 2 ^ (magnitude / 2 ^ format.fractionBits - 1) := Nat.two_pow_pos _
  rw [quanta_of_le h, Nat.log2_eq_iff (Nat.mul_ne_zero (by omega) hshift.ne')]
  constructor
  · rw [Nat.pow_add]
    exact Nat.mul_le_mul_right _ (Nat.le_add_right _ _)
  · rw [Nat.add_right_comm, Nat.pow_add, Nat.pow_succ]
    exact Nat.mul_lt_mul_of_pos_right (by omega) hshift

theorem quanta_pos (h : 0 < magnitude) : 0 < format.quanta magnitude := by
  by_cases hunit : magnitude < 2 ^ format.fractionBits
  · rwa [quanta_of_lt hunit]
  · rw [quanta_of_le (Nat.not_lt.1 hunit)]
    have := Nat.two_pow_pos format.fractionBits
    exact Nat.mul_pos (by omega) (Nat.two_pow_pos _)

theorem quanta_lt (h : magnitude < format.infinity) :
    format.quanta magnitude < 2 ^ (format.fractionBits + 2 ^ format.exponentBits) := by
  by_cases hunit : magnitude < 2 ^ format.fractionBits
  · rw [quanta_of_lt hunit]
    exact hunit.trans_le (Nat.pow_le_pow_right (by decide) (Nat.le_add_right _ _))
  · have hpos : 0 < 2 ^ format.fractionBits := Nat.two_pow_pos _
    have hquotient : 1 ≤ magnitude / 2 ^ format.fractionBits :=
      (Nat.one_le_div_iff hpos).2 (Nat.not_lt.1 hunit)
    have hexponent : magnitude / 2 ^ format.fractionBits < 2 ^ format.exponentBits - 1 :=
      (Nat.div_lt_iff_lt_mul hpos).2 h
    have hne : format.quanta magnitude ≠ 0 :=
      (quanta_pos (hpos.trans_le (Nat.not_lt.1 hunit))).ne'
    rw [← Nat.log2_lt hne, log2_quanta (Nat.not_lt.1 hunit)]
    omega

/-- Rounding depends on the quotient only. -/
theorem roundQuotient_mul_mul (format : BinaryFormat) (num den : Nat) {factor : Nat} (h : 0 < factor) :
    format.roundQuotient (num * factor) (den * factor) = format.roundQuotient num den := by
  unfold roundQuotient
  simp only [Nat.mul_right_comm _ factor, Nat.mul_div_mul_right _ _ h, roundHalfEven_mul_mul _ _ h]

/-- A whole number of quanta is rounded by its own leading bits. -/
theorem roundQuotient_eq {num den quanta : Nat} (hden : 0 < den)
    (h : num * 2 ^ format.scale = quanta * den) :
    format.roundQuotient num den = min format.infinity
      ((Nat.log2 quanta - format.fractionBits) * 2 ^ format.fractionBits +
        roundHalfEven (quanta * den) (den * 2 ^ (Nat.log2 quanta - format.fractionBits))) := by
  unfold roundQuotient
  simp only [Nat.pow_eq, h, Nat.mul_div_cancel quanta hden]

/-- A quotient that equals a finite magnitude is rounded to it. -/
theorem roundQuotient_of_eq {num den : Nat} (hfinite : magnitude < format.infinity)
    (hden : 0 < den) (h : num * 2 ^ format.scale = format.quanta magnitude * den) :
    format.roundQuotient num den = magnitude := by
  rw [roundQuotient_eq hden h]
  suffices hsum : (Nat.log2 (format.quanta magnitude) - format.fractionBits) *
      2 ^ format.fractionBits + roundHalfEven (format.quanta magnitude * den)
        (den * 2 ^ (Nat.log2 (format.quanta magnitude) - format.fractionBits)) = magnitude by
    rw [hsum]
    exact Nat.min_eq_right hfinite.le
  by_cases hunit : magnitude < 2 ^ format.fractionBits
  · have hshift : Nat.log2 magnitude - format.fractionBits = 0 := by
      by_cases hzero : magnitude = 0
      · simp [hzero]
      · have := (Nat.log2_lt hzero).2 hunit
        omega
    rw [quanta_of_lt hunit, hshift, Nat.zero_mul, Nat.zero_add, Nat.pow_zero, Nat.mul_one,
      roundHalfEven_mul _ hden]
  · have hle : 2 ^ format.fractionBits ≤ magnitude := Nat.not_lt.1 hunit
    have hquotient : 1 ≤ magnitude / 2 ^ format.fractionBits :=
      (Nat.one_le_div_iff (Nat.two_pow_pos _)).2 hle
    rw [log2_quanta hle, Nat.add_sub_cancel_left, quanta_of_le hle]
    generalize hshift : 2 ^ (magnitude / 2 ^ format.fractionBits - 1) = shift
    have hpos : 0 < shift := hshift ▸ Nat.two_pow_pos _
    -- The shift of the quotient is that of the magnitude, so that its fraction is what is left.
    rw [Nat.mul_assoc, Nat.mul_comm shift den, roundHalfEven_mul _ (Nat.mul_pos hden hpos)]
    calc (magnitude / 2 ^ format.fractionBits - 1) * 2 ^ format.fractionBits +
          (2 ^ format.fractionBits + magnitude % 2 ^ format.fractionBits)
        = (magnitude / 2 ^ format.fractionBits - 1 + 1) * 2 ^ format.fractionBits +
          magnitude % 2 ^ format.fractionBits := by ring
      _ = magnitude := by
        rw [Nat.sub_add_cancel hquotient, Nat.div_add_mod']

/-- The finite numbers of a format lie between the powers of ten that rounding looks at, and it has
room for values that are no number. -/
structure Covered (format : BinaryFormat) : Prop where
  fraction_pos : 0 < format.fractionBits
  scale_pos : 0 < format.scale
  least : 10 ^ (format.scale - 400) ≤ 5 ^ format.scale
  greatest : 2 ^ (format.fractionBits + 2 ^ format.exponentBits) * 5 ^ format.scale ≤
    10 ^ (format.scale + 310)

theorem covered_single : Covered single := by
  constructor <;> decide +kernel

theorem covered_double : Covered double := by
  constructor <;> decide +kernel

end BinaryFormat

theorem BinaryFloat.eq_of_magnitude {format : BinaryFormat} {x y : BinaryFloat format}
    (hnegative : x.negative = y.negative) (hmagnitude : x.magnitude = y.magnitude) : x = y := by
  cases x
  cases y
  simp only at hnegative hmagnitude
  subst hnegative hmagnitude
  rfl

theorem BinaryFloat.ofQuotient_mul_mul (format : BinaryFormat) (negative : Bool) (num den : Nat)
    {factor : Nat} (h : 0 < factor) :
    ofQuotient format negative (num * factor) (den * factor) = ofQuotient format negative num den :=
  congrArg (ofMagnitude format negative) (format.roundQuotient_mul_mul num den h)

/-! ## Nearest numbers -/

namespace Decimal

variable {format : BinaryFormat}

theorem nearest_negative (format : BinaryFormat) (d : Decimal) :
    (nearest format d).negative = d.negative := by
  unfold nearest
  dsimp only
  split
  · rfl
  · split
    · rfl
    · split <;> rfl

theorem nearest_magnitude_congr (negative negative' : Bool) (coefficient : Nat) (exponent : Int) :
    (nearest format ⟨negative, coefficient, exponent⟩).magnitude =
      (nearest format ⟨negative', coefficient, exponent⟩).magnitude := by
  unfold nearest
  dsimp only
  split
  · rfl
  · split
    · rfl
    · split <;> rfl

/-- A power of ten may stand in the coefficient or in the exponent. -/
theorem nearest_mul_pow (negative : Bool) {coefficient : Nat} (hne : coefficient ≠ 0) (n : Nat)
    (exponent : Int) : nearest format ⟨negative, coefficient * 10 ^ n, exponent⟩ =
      nearest format ⟨negative, coefficient, exponent + n⟩ := by
  have hlength : (Text.digits (coefficient * 10 ^ n)).length =
      (Text.digits coefficient).length + n := by
    rw [Text.digits_mul_pow (Nat.pos_of_ne_zero hne), List.length_append, List.length_replicate]
  have hpos : coefficient * 10 ^ n ≠ 0 := Nat.mul_ne_zero hne (Nat.pow_pos (by decide)).ne'
  have hleading : exponent + ((Text.digits coefficient).length + n : Nat) =
      exponent + n + (Text.digits coefficient).length := by omega
  have hpower : ∀ k, 0 < 10 ^ k := fun _ => Nat.pow_pos (by decide)
  unfold nearest
  dsimp only
  rw [hlength, hleading]
  simp only [hne, hpos, false_or, Nat.pow_eq]
  congr 2
  cases exponent with
  | ofNat m =>
    rw [Int.ofNat_eq_natCast, ← Int.natCast_add]
    change BinaryFloat.ofQuotient _ _ (coefficient * 10 ^ n * 10 ^ m) 1 =
      BinaryFloat.ofQuotient _ _ (coefficient * 10 ^ (m + n)) 1
    rw [Nat.mul_assoc, ← Nat.pow_add, Nat.add_comm]
  | negSucc m =>
    change BinaryFloat.ofQuotient _ _ (coefficient * 10 ^ n) (10 ^ (m + 1)) = _
    rcases Nat.lt_or_ge m n with hlt | hle
    · obtain ⟨k, rfl⟩ := Nat.exists_eq_add_of_le hlt
      have hsum : Int.negSucc m + (m.succ + k : Nat) = (k : Int) := by omega
      rw [hsum]
      change _ = BinaryFloat.ofQuotient _ _ (coefficient * 10 ^ k) 1
      rw [← BinaryFloat.ofQuotient_mul_mul _ _ _ 1 (hpower (m + 1)), Nat.one_mul, Nat.mul_assoc,
        ← Nat.pow_add, Nat.add_comm k]
    · obtain ⟨k, rfl⟩ := Nat.exists_eq_add_of_le hle
      have hsum : Int.negSucc (n + k) + (n : Int) = Int.negSucc k := by omega
      rw [hsum]
      change _ = BinaryFloat.ofQuotient _ _ coefficient (10 ^ (k + 1))
      rw [← BinaryFloat.ofQuotient_mul_mul _ _ coefficient _ (hpower n), ← Nat.pow_add,
        Nat.add_comm n, Nat.add_right_comm]

end Decimal

namespace Number

open BinaryFormat Decimal

variable {format : BinaryFormat} {magnitude : Nat}

/-- A decimal that reads back as a magnitude does so with either sign. -/
theorem nearest_of_readsBack {x : BinaryFloat format} {coefficient : Nat} {exponent : Int}
    (h : readsBack format x.magnitude coefficient exponent = true) :
    nearest format ⟨x.negative, coefficient, exponent⟩ = x := by
  have hmagnitude : (nearest format ⟨x.negative, coefficient, exponent⟩).magnitude = x.magnitude :=
    (nearest_magnitude_congr _ false _ _).trans (of_decide_eq_true h)
  exact BinaryFloat.eq_of_magnitude (nearest_negative format _) hmagnitude

theorem coefficient_ne_zero {coefficient : Nat} {exponent : Int} (hpos : 0 < magnitude)
    (h : readsBack format magnitude coefficient exponent = true) : coefficient ≠ 0 := by
  rintro rfl
  have hzero : (nearest format ⟨false, 0, exponent⟩).magnitude = 0 := by
    simp [nearest, BinaryFloat.ofMagnitude]
  have := (of_decide_eq_true h).symm.trans hzero
  omega

/-! ## The search for the shortest decimal -/

theorem readsBack_gridPoint {tie : Tie} {exponent : Int} {point : Nat}
    (h : gridPoint? format tie magnitude exponent = some point) :
    readsBack format magnitude point exponent = true := by
  unfold gridPoint? at h
  dsimp only at h
  split at h
  · cases h
  · next hbelow _ =>
    cases h
    exact hbelow
  · next _ habove =>
    cases h
    exact habove
  · next hbelow habove =>
    have hpoint : point = (gridBelow format magnitude exponent).1 ∨
        point = (gridBelow format magnitude exponent).1 + 1 := by
      split at h
      · exact .inl (Option.some.inj h).symm
      · split at h
        · exact .inr (Option.some.inj h).symm
        · cases tie with
          | up => exact .inr (Option.some.inj h).symm
          | toEven =>
            by_cases heven : (gridBelow format magnitude exponent).1 % 2 = 0
            · exact .inl ((Option.some.inj h).symm.trans (if_pos heven))
            · exact .inr ((Option.some.inj h).symm.trans (if_neg heven))
    rcases hpoint with rfl | rfl
    · exact hbelow
    · exact habove

/-- On the finest grid a magnitude is a point. -/
theorem readsBack_finest (covered : format.Covered) (hpos : 0 < magnitude)
    (hfinite : magnitude < format.infinity) :
    readsBack format magnitude (format.quanta magnitude * 5 ^ format.scale)
      (-(format.scale : Int)) = true := by
  set coefficient := format.quanta magnitude * 5 ^ format.scale with hcoefficient
  have hquanta : 1 ≤ format.quanta magnitude := quanta_pos hpos
  have hleast : format.scale - 400 < (Text.digits coefficient).length := by
    refine Text.lt_length_digits (covered.least.trans ?_)
    exact Nat.le_mul_of_pos_left _ hquanta
  have hgreatest : (Text.digits coefficient).length ≤ format.scale + 310 := by
    refine Text.length_digits_le (by omega) (lt_of_lt_of_le ?_ covered.greatest)
    exact Nat.mul_lt_mul_of_pos_right (quanta_lt hfinite) (Nat.pow_pos (by decide))
  have hne : coefficient ≠ 0 := (Nat.mul_pos hquanta (Nat.pow_pos (by decide))).ne'
  obtain ⟨n, hn⟩ := Nat.exists_eq_add_of_lt covered.scale_pos
  have hexponent : -(format.scale : Int) = Int.negSucc n := by
    rw [hn]
    omega
  have hround : format.roundQuotient coefficient (10 ^ format.scale) = magnitude := by
    refine roundQuotient_of_eq hfinite (Nat.pow_pos (by decide)) ?_
    rw [hcoefficient, Nat.mul_assoc, ← Nat.mul_pow]
  have hnearest : nearest format ⟨false, coefficient, -(format.scale : Int)⟩ =
      .ofQuotient format false coefficient (10 ^ format.scale) := by
    unfold nearest
    dsimp only
    rw [if_neg (by omega), if_neg (by omega), hexponent, hn]
    rw [Nat.zero_add]
    rfl
  unfold readsBack
  rw [hnearest]
  change decide (format.roundQuotient coefficient (10 ^ format.scale) % format.magnitudes = _) = true
  rw [hround, decide_eq_true_iff]
  exact Nat.mod_eq_of_lt (hfinite.trans (infinity_lt_magnitudes format))

theorem readsBack_shortestOn (covered : format.Covered) (tie : Tie) (hpos : 0 < magnitude)
    (hfinite : magnitude < format.infinity) (n : Nat) :
    readsBack format magnitude (shortestOn format tie magnitude n).1
      (shortestOn format tie magnitude n).2 = true := by
  induction n with
  | zero => exact readsBack_finest covered hpos hfinite
  | succ n ih =>
    unfold shortestOn
    dsimp only
    split
    · next point hpoint => exact readsBack_gridPoint hpoint
    · exact ih

/-- The shortest decimal of a finite number above zero reads back as the number, with the sign of
the number before it. -/
theorem nearest_shortest (covered : format.Covered) (tie : Tie) {x : BinaryFloat format}
    (hpos : 0 < x.magnitude) (hfinite : x.magnitude < format.infinity) :
    nearest format ⟨x.negative, (shortest format tie x.magnitude).1,
      (shortest format tie x.magnitude).2⟩ = x ∧ (shortest format tie x.magnitude).1 ≠ 0 := by
  have hback := readsBack_shortestOn covered tie hpos hfinite
  exact ⟨nearest_of_readsBack (hback _), coefficient_ne_zero hpos (hback _)⟩

end Number

end ObjectRelational
