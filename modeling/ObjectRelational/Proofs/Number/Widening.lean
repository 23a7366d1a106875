import ObjectRelational.Proofs.Number.FloatText

/-! # Numbers in a wider format

A wider format has all numbers of a narrower one, so that converting rounds nothing: the quanta of
the number are scaled and no two numbers become one. Infinity stays infinite, and what is no number
stays so, though its quiet bit is set.

* `BinaryFormat.Widens`: formats of which the second has the numbers of the first;
* `BinaryFormat.exists_quanta`: the numbers that a format has;
* `BinaryFloat.convert_of_finite`: what a finite number is converted to;
* `BinaryFloat.alike_of_convert`: converting merges no numbers.
-/

namespace ObjectRelational

set_option autoImplicit false

namespace BinaryFormat

variable {format target : BinaryFormat} {magnitude : Nat}

/-- The second format has all finite numbers of the first, none of them subnormal. -/
structure Widens (format target : BinaryFormat) : Prop where
  fraction_pos : 0 < target.fractionBits
  fraction_le : format.fractionBits ≤ target.fractionBits
  scale_le : format.scale + target.fractionBits ≤ target.scale
  room : format.fractionBits + 2 ^ format.exponentBits + (target.scale - format.scale) + 2 ≤
    target.fractionBits + 2 ^ target.exponentBits

theorem infinity_pos (h : 1 < 2 ^ format.exponentBits) : 0 < format.infinity :=
  Nat.mul_pos (Nat.sub_pos_of_lt h) (Nat.two_pow_pos _)

theorem single_widens_double : Widens single double := by
  constructor <;> decide

/-! ## Finite numbers -/

/-- A fraction with its leading one, shifted as far as the exponents reach, is a number. -/
theorem exists_quanta {fraction shift : Nat} (hle : 2 ^ format.fractionBits ≤ fraction)
    (hlt : fraction < 2 ^ (format.fractionBits + 1)) (hshift : shift + 3 ≤ 2 ^ format.exponentBits) :
    ∃ magnitude < format.infinity, format.quanta magnitude = fraction * 2 ^ shift := by
  set unit := 2 ^ format.fractionBits with hunit
  have hpos : 0 < unit := Nat.two_pow_pos _
  have hrest : fraction - unit < unit := by
    rw [Nat.pow_succ, ← hunit] at hlt
    omega
  have hdiv : ((shift + 1) * unit + (fraction - unit)) / unit = shift + 1 := by
    rw [Nat.mul_comm, Nat.mul_add_div hpos, Nat.div_eq_of_lt hrest, Nat.add_zero]
  have hmod : ((shift + 1) * unit + (fraction - unit)) % unit = fraction - unit := by
    rw [Nat.mul_comm, Nat.mul_add_mod, Nat.mod_eq_of_lt hrest]
  have hunit_le : unit ≤ (shift + 1) * unit + (fraction - unit) :=
    (Nat.le_mul_of_pos_left unit (Nat.succ_pos shift)).trans (Nat.le_add_right _ _)
  refine ⟨(shift + 1) * unit + (fraction - unit), ?_, ?_⟩
  · change _ < (2 ^ format.exponentBits - 1) * unit
    calc (shift + 1) * unit + (fraction - unit) < (shift + 1) * unit + unit := by omega
      _ = (shift + 2) * unit := by ring
      _ ≤ (2 ^ format.exponentBits - 1) * unit := Nat.mul_le_mul_right unit (by omega)
  · rw [quanta_of_le hunit_le, ← hunit, hdiv, hmod, Nat.add_sub_cancel' hle, Nat.add_sub_cancel]

/-- A finite number above zero as a fraction with its leading one, shifted. -/
theorem exists_fraction (hpos : 0 < magnitude) (hfinite : magnitude < format.infinity) :
    ∃ fraction shift, 2 ^ format.fractionBits ≤ fraction ∧
      fraction < 2 ^ (format.fractionBits + 1) ∧
      shift < format.fractionBits + 2 ^ format.exponentBits ∧
      format.quanta magnitude * 2 ^ format.fractionBits = fraction * 2 ^ shift := by
  have hne : format.quanta magnitude ≠ 0 := (quanta_pos hpos).ne'
  have hshift := (Nat.log2_lt hne).2 (quanta_lt hfinite)
  by_cases hunit : magnitude < 2 ^ format.fractionBits
  · rw [quanta_of_lt hunit] at hne hshift ⊢
    have hlog := (Nat.log2_lt hne).2 hunit
    obtain ⟨hle, hlt⟩ := (Nat.log2_eq_iff hne).1 rfl
    generalize Nat.log2 magnitude = shift at hshift hlog hle hlt
    obtain ⟨n, hn⟩ := Nat.exists_eq_add_of_lt hlog
    refine ⟨magnitude * 2 ^ (n + 1), shift, ?_, ?_, hshift, ?_⟩
    · calc 2 ^ format.fractionBits = 2 ^ shift * 2 ^ (n + 1) := by rw [← Nat.pow_add, hn, Nat.add_assoc]
        _ ≤ magnitude * 2 ^ (n + 1) := Nat.mul_le_mul_right _ hle
    · calc magnitude * 2 ^ (n + 1) < 2 ^ (shift + 1) * 2 ^ (n + 1) :=
          Nat.mul_lt_mul_of_pos_right hlt (Nat.two_pow_pos _)
        _ = 2 ^ (format.fractionBits + 1) := by rw [← Nat.pow_add, hn]; congr 1; omega
    · rw [Nat.mul_assoc, ← Nat.pow_add, hn]
      congr 2
      omega
  · have hle := Nat.not_lt.1 hunit
    have hrest := Nat.mod_lt magnitude (Nat.two_pow_pos format.fractionBits)
    rw [log2_quanta hle] at hshift
    refine ⟨2 ^ format.fractionBits + magnitude % 2 ^ format.fractionBits, _,
      Nat.le_add_right _ _, ?_, hshift, ?_⟩
    · rw [Nat.pow_succ]
      omega
    · rw [quanta_of_le hle, Nat.mul_assoc, ← Nat.pow_add, Nat.add_comm format.fractionBits]

/-- Every finite number of a format is one of a wider format. -/
theorem Widens.exists_quanta (widens : Widens format target) (hfinite : magnitude < format.infinity) :
    ∃ wide < target.infinity,
      target.quanta wide = format.quanta magnitude * 2 ^ (target.scale - format.scale) := by
  obtain ⟨-, hfraction, hscale, hroom⟩ := widens
  have hexponents := Nat.two_pow_pos format.exponentBits
  rcases Nat.eq_zero_or_pos magnitude with rfl | hpos
  · refine ⟨0, infinity_pos (by omega), ?_⟩
    rw [quanta_of_lt (Nat.two_pow_pos _), quanta_of_lt (Nat.two_pow_pos _), Nat.zero_mul]
  · obtain ⟨fraction, shift, hle, hlt, hshift, hquanta⟩ := exists_fraction hpos hfinite
    obtain ⟨gap, hgap⟩ := Nat.exists_eq_add_of_le hfraction
    have hle : 2 ^ target.fractionBits ≤ fraction * 2 ^ gap := by
      rw [hgap, Nat.pow_add]
      exact Nat.mul_le_mul_right _ hle
    have hlt : fraction * 2 ^ gap < 2 ^ (target.fractionBits + 1) := by
      rw [hgap, Nat.add_right_comm, Nat.pow_add _ _ gap]
      exact Nat.mul_lt_mul_of_pos_right hlt (Nat.two_pow_pos _)
    have hroom : shift + (target.scale - format.scale) - target.fractionBits + 3 ≤
        2 ^ target.exponentBits := by omega
    obtain ⟨wide, hwide, hfound⟩ := BinaryFormat.exists_quanta hle hlt hroom
    refine ⟨wide, hwide, Nat.eq_of_mul_eq_mul_right (Nat.two_pow_pos format.fractionBits) ?_⟩
    rw [hfound, Nat.mul_right_comm (format.quanta magnitude), hquanta]
    simp only [Nat.mul_assoc, ← Nat.pow_add]
    congr 2
    omega

theorem quanta_injective {magnitude' : Nat} (hfinite : magnitude < format.infinity)
    (hfinite' : magnitude' < format.infinity)
    (h : format.quanta magnitude = format.quanta magnitude') : magnitude = magnitude' := by
  have hround : ∀ m < format.infinity,
      format.roundQuotient (format.quanta m) (2 ^ format.scale) = m := fun m hm =>
    roundQuotient_of_eq hm (Nat.two_pow_pos _) rfl
  rw [← hround magnitude hfinite, h, hround magnitude' hfinite']

end BinaryFormat

/-! ## Conversion -/

namespace BinaryFloat

open BinaryFormat

variable {format target : BinaryFormat}

theorem convert_of_finite (widens : Widens format target) {x : BinaryFloat format}
    (h : x.IsFinite) : (x.convert target).negative = x.negative ∧ (x.convert target).IsFinite ∧
      target.quanta (x.convert target).magnitude =
        format.quanta x.magnitude * 2 ^ (target.scale - format.scale) := by
  obtain ⟨wide, hwide, hquanta⟩ := widens.exists_quanta h
  have hscale := widens.scale_le
  have hround : target.roundQuotient (format.quanta x.magnitude) (2 ^ format.scale) = wide := by
    refine roundQuotient_of_eq hwide (Nat.two_pow_pos _) ?_
    rw [hquanta, Nat.mul_assoc, ← Nat.pow_add, Nat.sub_add_cancel (by omega)]
  have hconvert : x.convert target = ofMagnitude target x.negative wide := by
    rw [convert, if_pos (show x.magnitude < format.infinity from h), ← hround]
    rfl
  have hmagnitude : (x.convert target).magnitude = wide := by
    rw [hconvert]
    exact Nat.mod_eq_of_lt (hwide.trans (infinity_lt_magnitudes target))
  refine ⟨by rw [hconvert]; rfl, ?_, ?_⟩
  · rw [IsFinite, hmagnitude]
    exact hwide
  · rw [hmagnitude, hquanta]

theorem convert_of_infinity {x : BinaryFloat format} (h : x.magnitude = format.infinity) :
    (x.convert target).negative = x.negative ∧ (x.convert target).magnitude = target.infinity := by
  rw [convert, if_neg (by omega), if_pos h]
  exact ⟨rfl, Nat.mod_eq_of_lt (infinity_lt_magnitudes target)⟩

theorem isNaN_convert (hpos : 0 < target.fractionBits) {x : BinaryFloat format} (h : x.IsNaN) :
    (x.convert target).IsNaN := by
  have hnumber : format.infinity < x.magnitude := h
  have hquiet := quietBit_mul_two hpos
  have hunit := Nat.two_pow_pos target.fractionBits
  have hmagnitudes := target.infinity_add_unit
  have hfraction : (x.magnitude - format.infinity) * 2 ^ target.fractionBits /
      2 ^ format.fractionBits < 2 ^ target.fractionBits := by
    have hrange := x.inRange
    rw [← format.infinity_add_unit] at hrange
    rw [Nat.div_lt_iff_lt_mul (Nat.two_pow_pos _), Nat.mul_comm]
    exact Nat.mul_lt_mul_of_pos_left (by omega) hunit
  rw [convert, if_neg (by omega), if_neg (by omega)]
  simp only [Nat.pow_eq] at hfraction ⊢
  generalize (x.magnitude - format.infinity) * 2 ^ target.fractionBits /
    2 ^ format.fractionBits = fraction at hfraction ⊢
  -- The fraction is below two quiet bits, so that setting the bit adds it where it is not set.
  have hbit : fraction / target.quietBit % 2 ≠ 1 → fraction < target.quietBit := by
    intro hclear
    have hlt : fraction / target.quietBit < 2 :=
      (Nat.div_lt_iff_lt_mul (by omega)).2 (by omega)
    refine (Nat.div_eq_zero_iff_lt (by omega)).1 ?_
    generalize fraction / target.quietBit = bit at hclear hlt ⊢
    omega
  have hset : fraction / target.quietBit % 2 = 1 → 0 < fraction := by
    intro hset
    by_contra hzero
    rw [Nat.eq_zero_of_not_pos hzero, Nat.zero_div] at hset
    cases hset
  change target.infinity < (target.infinity + _) % target.magnitudes
  split
  · next hbit' =>
    have := hset hbit'
    rw [Nat.mod_eq_of_lt (by omega)]
    omega
  · next hbit' =>
    have := hbit hbit'
    rw [Nat.mod_eq_of_lt (by omega)]
    omega

/-- Conversion to a wider format merges no numbers. -/
theorem alike_of_convert (widens : Widens format target) {x y : BinaryFloat format}
    (h : x.convert target = y.convert target) : x.Alike y := by
  -- Finite, infinite and no number are told apart by what they are converted to.
  have hkind : ∀ z : BinaryFloat format,
      z.IsFinite ∧ (z.convert target).IsFinite ∨
        z.magnitude = format.infinity ∧ (z.convert target).magnitude = target.infinity ∨
        z.IsNaN ∧ (z.convert target).IsNaN := by
    intro z
    rcases Nat.lt_trichotomy z.magnitude format.infinity with hz | hz | hz
    · exact .inl ⟨hz, (convert_of_finite widens hz).2.1⟩
    · exact .inr (.inl ⟨hz, (convert_of_infinity hz).2⟩)
    · exact .inr (.inr ⟨hz, isNaN_convert widens.fraction_pos hz⟩)
  have hx := hkind x
  have hy := hkind y
  rw [h] at hx
  simp only [IsFinite, IsNaN] at hx hy
  rcases Nat.lt_trichotomy x.magnitude format.infinity with hfinite | hinfinity | hnan
  · have hfinite' : y.magnitude < format.infinity := by omega
    obtain ⟨hsign, -, hquanta⟩ := convert_of_finite widens hfinite
    obtain ⟨hsign', -, hquanta'⟩ := convert_of_finite widens hfinite'
    rw [h] at hsign hquanta
    have hmagnitude := quanta_injective hfinite hfinite'
      (Nat.eq_of_mul_eq_mul_right (Nat.two_pow_pos _) (hquanta.symm.trans hquanta'))
    exact .inl (eq_of_magnitude (hsign.symm.trans hsign') hmagnitude)
  · have hinfinity' : y.magnitude = format.infinity := by omega
    have hsign : (x.convert target).negative = x.negative := (convert_of_infinity hinfinity).1
    rw [h, (convert_of_infinity hinfinity').1] at hsign
    exact .inl (eq_of_magnitude hsign.symm (hinfinity.trans hinfinity'.symm))
  · exact .inr ⟨hnan, by unfold IsNaN; omega⟩

end BinaryFloat

end ObjectRelational
