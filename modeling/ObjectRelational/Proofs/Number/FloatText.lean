import ObjectRelational.Number.FloatText
import ObjectRelational.Proofs.Number.Rounding

/-! # Texts of floating-point numbers

In the plain style a finite number is written by its sign and the digits of its shortest decimal,
with a point among them if it needs one. Such a text reads back as the number, also as negative
zero. The names of infinity read back, and the name of what is no number reads as such.

* `Number.Positional`: texts of digits and points that start with a digit;
* `Number.readFloat?_floatChars`: every number reads back from its text.
-/

namespace ObjectRelational

set_option autoImplicit false

namespace Number

variable {format : BinaryFormat}

/-! ## Positional decimals -/

/-- Digits and points, the first a digit. -/
structure Positional (text : List Char) : Prop where
  first : ∃ c rest, text = c :: rest ∧ c.isDigit = true
  all : ∀ c ∈ text, c.isDigit = true ∨ c = '.'

theorem Positional.of_digits {text : List Char} (hne : text ≠ [])
    (h : ∀ c ∈ text, c.isDigit = true) : Positional text := by
  obtain ⟨c, rest, rfl⟩ := List.exists_cons_of_ne_nil hne
  exact ⟨⟨c, rest, rfl, h c List.mem_cons_self⟩, fun c hc => .inl (h c hc)⟩

theorem Positional.of_point {whole fraction : List Char} (hne : whole ≠ [])
    (hwhole : ∀ c ∈ whole, c.isDigit = true) (hfraction : ∀ c ∈ fraction, c.isDigit = true) :
    Positional (whole ++ '.' :: fraction) := by
  obtain ⟨c, rest, rfl⟩ := List.exists_cons_of_ne_nil hne
  refine ⟨⟨c, rest ++ '.' :: fraction, rfl, hwhole c List.mem_cons_self⟩, fun d hd => ?_⟩
  rcases List.mem_append.1 hd with hd | hd
  · exact .inl (hwhole d hd)
  · rcases List.mem_cons.1 hd with rfl | hd
    · exact .inr rfl
    · exact .inl (hfraction d hd)

/-- Digits in front of an exponent. -/
theorem readUnsigned?_digits_append (negative : Bool) {whole rest : List Char} (hne : whole ≠ [])
    (hwhole : ∀ c ∈ whole, c.isDigit = true)
    (hrest : ∀ c ∈ rest.head?, c.isDigit = false ∧ c ≠ '.') :
    Decimal.readUnsigned? negative (whole ++ rest) = (Decimal.readExponent? rest).map fun exponent =>
      ⟨negative, Text.digitsValue whole, exponent⟩ := by
  have hspan : Text.spanDigits (whole ++ rest) = (whole, rest) :=
    Text.spanDigits_append hwhole fun c hc => (hrest c hc).1
  unfold Decimal.readUnsigned?
  rw [hspan]
  dsimp only
  split
  · exact absurd rfl (hrest '.' rfl).2
  · simp [hne]

/-- Digits with a point among them, in front of an exponent. -/
theorem readUnsigned?_point_append (negative : Bool) {whole fraction rest : List Char}
    (hne : whole ≠ []) (hwhole : ∀ c ∈ whole, c.isDigit = true)
    (hfraction : ∀ c ∈ fraction, c.isDigit = true) (hrest : ∀ c ∈ rest.head?, c.isDigit = false) :
    Decimal.readUnsigned? negative (whole ++ '.' :: (fraction ++ rest)) =
      (Decimal.readExponent? rest).map fun exponent =>
        ⟨negative, Text.digitsValue (whole ++ fraction), exponent - fraction.length⟩ := by
  have hspan : Text.spanDigits (whole ++ '.' :: (fraction ++ rest)) =
      (whole, '.' :: (fraction ++ rest)) :=
    Text.spanDigits_append hwhole (by simp)
  simp [Decimal.readUnsigned?, hspan, Text.spanDigits_append hfraction hrest, hne]

theorem readUnsigned?_digits (negative : Bool) {text : List Char} (hne : text ≠ [])
    (h : ∀ c ∈ text, c.isDigit = true) :
    Decimal.readUnsigned? negative text = some ⟨negative, Text.digitsValue text, 0⟩ := by
  have hend : ∀ c ∈ ([] : List Char).head?, c.isDigit = false ∧ c ≠ '.' := by simp
  have hread := readUnsigned?_digits_append negative hne h hend
  rwa [List.append_nil] at hread

theorem readUnsigned?_point (negative : Bool) {whole fraction : List Char} (hne : whole ≠ [])
    (hwhole : ∀ c ∈ whole, c.isDigit = true) (hfraction : ∀ c ∈ fraction, c.isDigit = true) :
    Decimal.readUnsigned? negative (whole ++ '.' :: fraction) =
      some ⟨negative, Text.digitsValue (whole ++ fraction), -(fraction.length : Int)⟩ := by
  have hend : ∀ c ∈ ([] : List Char).head?, c.isDigit = false := by simp
  have hread := readUnsigned?_point_append negative hne hwhole hfraction hend
  rw [List.append_nil] at hread
  rw [hread, ← Int.zero_sub]
  rfl

/-- The positional form of a decimal reads back as the same number. -/
theorem readUnsigned?_positionalChars (negative : Bool) {coefficient : Nat}
    (hne : coefficient ≠ 0) (exponent : Int) :
    Positional (positionalChars .plain (Text.digits coefficient) exponent) ∧
      (Decimal.readUnsigned? negative
        (positionalChars .plain (Text.digits coefficient) exponent)).map (Decimal.nearest format) =
          some (Decimal.nearest format ⟨negative, coefficient, exponent⟩) := by
  have hdigits : ∀ c ∈ Text.digits coefficient, c.isDigit = true :=
    fun c => Text.isDigit_of_mem_digits
  cases exponent with
  | ofNat n =>
    have htext : positionalChars .plain (Text.digits coefficient) (.ofNat n) =
        Text.digits (coefficient * 10 ^ n) := by
      rw [Text.digits_mul_pow (Nat.pos_of_ne_zero hne)]
      exact List.append_nil _
    have hall : ∀ c ∈ Text.digits (coefficient * 10 ^ n), c.isDigit = true :=
      fun c => Text.isDigit_of_mem_digits
    rw [htext, readUnsigned?_digits negative (Text.digits_ne_nil _) hall, Text.digitsValue_digits]
    refine ⟨.of_digits (Text.digits_ne_nil _) hall, congrArg some ?_⟩
    rw [Decimal.nearest_mul_pow negative hne, Int.zero_add]
    rfl
  | negSucc n =>
    set length := (Text.digits coefficient).length with hlength
    by_cases hplaces : length ≤ n + 1
    -- All digits stand behind the point, after the zeros that fill the places before them.
    · have htext : positionalChars .plain (Text.digits coefficient) (.negSucc n) =
          ['0'] ++ '.' :: (List.replicate (n + 1 - length) '0' ++ Text.digits coefficient) :=
        if_pos hplaces
      have hfraction : ∀ c ∈ List.replicate (n + 1 - length) '0' ++ Text.digits coefficient,
          c.isDigit = true := by
        intro c hc
        rcases List.mem_append.1 hc with hc | hc
        · rw [List.eq_of_mem_replicate hc]
          rfl
        · exact hdigits c hc
      have hvalue : Text.digitsValue (['0'] ++ (List.replicate (n + 1 - length) '0' ++
          Text.digits coefficient)) = coefficient := by
        rw [← List.append_assoc, ← List.replicate_one, List.replicate_append_replicate,
          Text.digitsValue_zeros, Text.digitsValue_digits]
      have hexponent : -((List.replicate (n + 1 - length) '0' ++
          Text.digits coefficient).length : Int) = Int.negSucc n := by
        rw [List.length_append, List.length_replicate, ← hlength]
        omega
      rw [htext, readUnsigned?_point negative (by simp) (by simp) hfraction, hvalue, hexponent]
      exact ⟨.of_point (by simp) (by simp) hfraction, rfl⟩
    -- The point stands among the digits.
    · have htext : positionalChars .plain (Text.digits coefficient) (.negSucc n) =
          (Text.digits coefficient).take (length - (n + 1)) ++
            '.' :: (Text.digits coefficient).drop (length - (n + 1)) :=
        if_neg hplaces
      have hne' : (Text.digits coefficient).take (length - (n + 1)) ≠ [] := by
        rw [← List.length_pos_iff, List.length_take]
        omega
      have hwhole : ∀ c ∈ (Text.digits coefficient).take (length - (n + 1)), c.isDigit = true :=
        fun c hc => hdigits c (List.mem_of_mem_take hc)
      have hfraction : ∀ c ∈ (Text.digits coefficient).drop (length - (n + 1)),
          c.isDigit = true :=
        fun c hc => hdigits c (List.mem_of_mem_drop hc)
      have hexponent : -(((Text.digits coefficient).drop (length - (n + 1))).length : Int) =
          Int.negSucc n := by
        rw [List.length_drop, ← hlength]
        omega
      rw [htext, readUnsigned?_point negative hne' hwhole hfraction, List.take_append_drop,
        Text.digitsValue_digits, hexponent]
      exact ⟨.of_point hne' hwhole hfraction, rfl⟩

/-! ## Signs and names -/

theorem toLower_of_isDigit {c : Char} (h : c.isDigit = true) : c.toLower = c := by
  have hrange := Text.isDigit_iff.1 h
  unfold Char.toLower
  rw [dif_neg]
  simp only [ge_iff_le, UInt32.le_iff_toNat_le]
  change ¬ (65 ≤ c.toNat ∧ _)
  omega

/-- The names start with two letters, so that what starts otherwise is none. -/
theorem namedMagnitude?_eq_none {text : List Char}
    (h : ∀ c ∈ text.head?, c.toLower ≠ 'i' ∧ c.toLower ≠ 'n') :
    namedMagnitude? format text = none := by
  have hname : ∀ name : List Char, (∃ c ∈ name.head?, c = 'i' ∨ c = 'n') →
      text.map Char.toLower ≠ name := by
    rintro name ⟨c, hc, hin⟩ rfl
    rw [List.head?_map, Option.mem_map] at hc
    obtain ⟨d, hd, rfl⟩ := hc
    obtain ⟨hi, hn⟩ := h d hd
    exact hin.elim hi hn
  unfold namedMagnitude?
  dsimp only
  rw [if_neg, if_neg (hname _ (by simp))]
  rintro (h | h)
  · exact hname _ (by simp) h
  · exact hname _ (by simp) h

theorem namedMagnitude?_of_positional {text : List Char} (h : Positional text) :
    namedMagnitude? format text = none := by
  obtain ⟨c, rest, rfl, hc⟩ := h.first
  refine namedMagnitude?_eq_none ?_
  rintro _ ⟨⟩
  rw [toLower_of_isDigit hc]
  constructor <;> rintro rfl <;> cases hc

theorem readFloat?_positional {text : List Char} (h : Positional text) (negative : Bool) :
    readFloat? format ((if negative then ['-'] else []) ++ text) =
      (Decimal.readUnsigned? negative text).map (Decimal.nearest format) := by
  have hunsigned : readUnsignedFloat? format negative text =
      (Decimal.readUnsigned? negative text).map (Decimal.nearest format) := by
    rw [readUnsignedFloat?, namedMagnitude?_of_positional h]
  rw [← hunsigned]
  cases negative with
  | true => rfl
  | false =>
    obtain ⟨c, rest, rfl, hc⟩ := h.first
    change readFloat? format (c :: rest) = _
    unfold readFloat?
    split
    · next heq =>
      cases heq
      exact absurd hc (by decide)
    · next heq =>
      cases heq
      exact absurd hc (by decide)
    · rfl

end Number

namespace BinaryFloat

variable {format : BinaryFormat}

/-- Equal bit for bit, or both no number. -/
def Alike (x y : BinaryFloat format) : Prop :=
  x = y ∨ x.IsNaN ∧ y.IsNaN

theorem Alike.refl (x : BinaryFloat format) : x.Alike x := .inl rfl

theorem Alike.symm {x y : BinaryFloat format} (h : x.Alike y) : y.Alike x :=
  h.imp Eq.symm And.symm

theorem Alike.trans {x y z : BinaryFloat format} (hxy : x.Alike y) (hyz : y.Alike z) :
    x.Alike z := by
  rcases hxy with rfl | ⟨hx, hy⟩
  · exact hyz
  · rcases hyz with rfl | ⟨-, hz⟩
    · exact .inr ⟨hx, hy⟩
    · exact .inr ⟨hx, hz⟩

theorem ofMagnitude_magnitude (x : BinaryFloat format) :
    ofMagnitude format x.negative x.magnitude = x := by
  cases x with
  | mk negative magnitude inRange => simp [ofMagnitude, Nat.mod_eq_of_lt inRange]

theorem isNaN_nan (h : 0 < format.fractionBits) : (nan format).IsNaN := by
  have hquiet := BinaryFormat.quietBit_mul_two h
  have hunit : 0 < 2 ^ format.fractionBits := Nat.two_pow_pos _
  have hmagnitudes := format.infinity_add_unit
  change format.infinity < (format.infinity + format.quietBit) % format.magnitudes
  rw [Nat.mod_eq_of_lt (by omega)]
  omega

end BinaryFloat

namespace Number

variable {format : BinaryFormat}

/-! ## Numbers -/

theorem floatChars_of_infinity {x : BinaryFloat format} (h : x.magnitude = format.infinity) :
    floatChars .plain x = (if x.negative then ['-'] else []) ++ "inf".toList := by
  unfold floatChars
  rw [if_neg (by omega)]
  dsimp only
  rw [if_pos h]

variable (covered : format.Covered)

include covered

/-- A finite number is written as its sign and a decimal that reads back. -/
theorem floatChars_of_finite {x : BinaryFloat format} (hfinite : x.IsFinite) :
    ∃ text, floatChars .plain x = (if x.negative then ['-'] else []) ++ text ∧ Positional text ∧
      (Decimal.readUnsigned? x.negative text).map (Decimal.nearest format) = some x := by
  have hnumber : ¬ format.infinity < x.magnitude := Nat.not_lt.2 (Nat.le_of_lt hfinite)
  have hinfinity : x.magnitude ≠ format.infinity := Nat.ne_of_lt hfinite
  by_cases hzero : x.magnitude = 0
  · refine ⟨['0'], ?_, .of_digits (by simp) (by simp), ?_⟩
    · unfold floatChars
      rw [if_neg hnumber]
      dsimp only
      rw [if_neg hinfinity, if_pos hzero]
      rfl
    · rw [readUnsigned?_digits x.negative (by simp) (by simp)]
      have hvalue : Text.digitsValue ['0'] = 0 := by decide
      have hnearest : Decimal.nearest format ⟨x.negative, 0, 0⟩ =
          .ofMagnitude format x.negative 0 := by
        simp [Decimal.nearest]
      rw [hvalue, Option.map_some, hnearest, ← hzero, x.ofMagnitude_magnitude]
  · obtain ⟨hback, hne⟩ := nearest_shortest covered .up (Nat.pos_of_ne_zero hzero) hfinite
    obtain ⟨hpositional, hread⟩ := @readUnsigned?_positionalChars format x.negative _ hne
      (shortest format .up x.magnitude).2
    refine ⟨_, ?_, hpositional, hread.trans (congrArg some hback)⟩
    unfold floatChars
    rw [if_neg hnumber]
    dsimp only
    rw [if_neg hinfinity, if_neg hzero]
    rfl

theorem readFloat?_of_finite {x : BinaryFloat format} (hfinite : x.IsFinite) :
    readFloat? format (floatChars .plain x) = some x := by
  obtain ⟨text, htext, hpositional, hread⟩ := floatChars_of_finite covered hfinite
  rw [htext, readFloat?_positional hpositional, hread]

/-- Every number reads back from its text, but for which of the values it is that are no number. -/
theorem readFloat?_floatChars (x : BinaryFloat format) :
    ∃ y, readFloat? format (floatChars .plain x) = some y ∧ x.Alike y := by
  rcases Nat.lt_trichotomy x.magnitude format.infinity with hfinite | hinfinity | hnan
  · exact ⟨x, readFloat?_of_finite covered hfinite, .refl x⟩
  · refine ⟨x, ?_, .refl x⟩
    have hname : ∀ negative, readFloat? format
        ((if negative then ['-'] else []) ++ "inf".toList) =
          some (.ofMagnitude format negative format.infinity) := by
      intro negative
      cases negative <;> rfl
    rw [floatChars_of_infinity hinfinity, hname, ← hinfinity, x.ofMagnitude_magnitude]
  · refine ⟨.nan format, ?_, .inr ⟨hnan, BinaryFloat.isNaN_nan covered.fraction_pos⟩⟩
    rw [floatChars, if_pos hnan]
    rfl

theorem alike_of_floatChars {x y : BinaryFloat format}
    (h : floatChars .plain x = floatChars .plain y) : x.Alike y := by
  obtain ⟨z, hread, hx⟩ := readFloat?_floatChars covered x
  obtain ⟨z', hread', hy⟩ := readFloat?_floatChars covered y
  rw [h, hread'] at hread
  cases hread
  exact hx.trans hy.symm

/-! ## Characters -/

theorem mem_floatChars_of_finite {x : BinaryFloat format} (hfinite : x.IsFinite) {c : Char}
    (h : c ∈ floatChars .plain x) : c.isDigit = true ∨ c = '.' ∨ c = '-' := by
  obtain ⟨text, htext, hpositional, -⟩ := floatChars_of_finite covered hfinite
  rw [htext] at h
  rcases List.mem_append.1 h with h | h
  · cases hnegative : x.negative <;> simp [hnegative] at h
    exact .inr (.inr h)
  · exact (hpositional.all c h).imp_right .inl

theorem mem_floatChars {x : BinaryFloat format} {c : Char} (h : c ∈ floatChars .plain x) :
    c.isDigit = true ∨ c ∈ ['.', '-', 'N', 'a', 'i', 'n', 'f'] := by
  rcases Nat.lt_trichotomy x.magnitude format.infinity with hfinite | hinfinity | hnan
  · rcases mem_floatChars_of_finite covered hfinite h with h | rfl | rfl
    · exact .inl h
    · exact .inr (by simp)
    · exact .inr (by simp)
  · rw [floatChars_of_infinity hinfinity] at h
    refine .inr ?_
    cases hnegative : x.negative <;> simp [hnegative] at h ⊢ <;> grind
  · rw [floatChars, if_pos hnan] at h
    refine .inr ?_
    simp at h ⊢
    grind

theorem floatChars_ne_nil (x : BinaryFloat format) : floatChars .plain x ≠ [] := by
  rcases Nat.lt_trichotomy x.magnitude format.infinity with hfinite | hinfinity | hnan
  · obtain ⟨text, htext, hpositional, -⟩ := floatChars_of_finite covered hfinite
    obtain ⟨c, rest, rfl, -⟩ := hpositional.first
    simp [htext]
  · simp [floatChars_of_infinity hinfinity]
  · simp [floatChars, hnan]

end Number

end ObjectRelational
