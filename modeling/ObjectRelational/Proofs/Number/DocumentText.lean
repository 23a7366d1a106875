import ObjectRelational.Json.Printing
import ObjectRelational.Proofs.Number.FloatText

/-! # Texts of numbers in documents

In the style of documents a whole number ends in `.0`, and a very great or a very small one has an
exponent. A float thus has a point or an exponent, which no integer has, and both read back, so that
the text of a number tells which number it is.

* `Number.Marked`: the texts of floats without their signs;
* `Number.floatChars_document`: a finite number is written as its sign and such a text, which reads
  back;
* `Json.numberChars_inj`: numbers of one text are the same.
-/

namespace ObjectRelational

set_option autoImplicit false

namespace Number

/-- The characters of numbers. -/
def IsNumberChar (c : Char) : Prop :=
  c.isDigit = true ∨ c ∈ ['.', 'e', '+', '-']

/-- Characters of a number, the first a digit, with a point or an exponent among them. -/
structure Marked (text : List Char) : Prop where
  first : ∃ c rest, text = c :: rest ∧ c.isDigit = true
  all : ∀ c ∈ text, IsNumberChar c
  marked : ∃ c ∈ text, c = '.' ∨ c = 'e'

theorem Positional.marked {text : List Char} (h : Positional text) (hpoint : '.' ∈ text) :
    Marked text where
  first := h.first
  all c hc := (h.all c hc).imp_right (by rintro rfl; simp)
  marked := ⟨'.', hpoint, .inl rfl⟩

/-! ## Scientific texts -/

/-- The sign and the digits of an exponent. -/
def exponentChars (n : Int) : List Char :=
  (if n < 0 then '-' else '+') :: Text.digits n.natAbs

theorem readExponent?_exponentChars (n : Int) :
    Decimal.readExponent? ('e' :: exponentChars n) = some n := by
  have hall : (Text.digits n.natAbs).all Char.isDigit = true :=
    List.all_eq_true.2 fun c => Text.isDigit_of_mem_digits
  have hvalue := Text.digitsValue_digits n.natAbs
  unfold exponentChars
  by_cases h : n < 0
  · rw [if_pos h]
    simp [Decimal.readExponent?, Text.digits_ne_nil, hall, hvalue, -Nat.cast_natAbs]
    omega
  · rw [if_neg h]
    simp [Decimal.readExponent?, Text.digits_ne_nil, hall, hvalue, -Nat.cast_natAbs]
    omega

theorem isNumberChar_of_mem_exponentChars {n : Int} {c : Char} (h : c ∈ exponentChars n) :
    IsNumberChar c := by
  rcases List.mem_cons.1 h with rfl | h
  · refine .inr ?_
    split <;> simp
  · exact .inl (Text.isDigit_of_mem_digits h)

theorem Marked.of_exponent {mantissa : List Char} (h : Positional mantissa) (n : Int) :
    Marked (mantissa ++ 'e' :: exponentChars n) where
  first := by
    obtain ⟨c, rest, rfl, hc⟩ := h.first
    exact ⟨c, rest ++ 'e' :: exponentChars n, rfl, hc⟩
  all c hc := by
    rcases List.mem_append.1 hc with hc | hc
    · exact (h.all c hc).imp_right (by rintro rfl; simp)
    · rcases List.mem_cons.1 hc with rfl | hc
      · exact .inr (by simp)
      · exact isNumberChar_of_mem_exponentChars hc
  marked := ⟨'e', by simp, .inr rfl⟩

theorem readUnsigned?_scientificChars (negative : Bool) {digits : List Char} (hne : digits ≠ [])
    (h : ∀ c ∈ digits, c.isDigit = true) (leading : Int) :
    Marked (scientificChars digits leading) ∧
      Decimal.readUnsigned? negative (scientificChars digits leading) =
        some ⟨negative, Text.digitsValue digits, leading - (digits.length - 1 : Nat)⟩ := by
  have hend : ∀ c ∈ ('e' :: exponentChars leading).head?, c.isDigit = false ∧ c ≠ '.' := by simp
  match digits with
  | [first] =>
    have htext : scientificChars [first] leading = [first] ++ 'e' :: exponentChars leading := rfl
    rw [htext, readUnsigned?_digits_append negative (by simp) h hend, readExponent?_exponentChars]
    refine ⟨.of_exponent (.of_digits (by simp) h) leading, ?_⟩
    simp
  | first :: second :: rest =>
    have htext : scientificChars (first :: second :: rest) leading =
        [first] ++ '.' :: ((second :: rest) ++ 'e' :: exponentChars leading) := rfl
    have hfirst : ∀ c ∈ [first], c.isDigit = true := fun c hc =>
      h c (List.mem_append_left (second :: rest) hc)
    have hrest : ∀ c ∈ second :: rest, c.isDigit = true := fun c hc => h c (List.mem_cons_of_mem _ hc)
    rw [htext, readUnsigned?_point_append negative (by simp) hfirst hrest fun c hc => (hend c hc).1,
      readExponent?_exponentChars]
    exact ⟨.of_exponent (.of_point (by simp) hfirst hrest) leading, rfl⟩

/-! ## Positional texts -/

variable {format : BinaryFormat}

theorem readUnsigned?_positionalChars_document (negative : Bool) {coefficient : Nat}
    (hne : coefficient ≠ 0) (exponent : Int) :
    Marked (positionalChars .document (Text.digits coefficient) exponent) ∧
      (Decimal.readUnsigned? negative
        (positionalChars .document (Text.digits coefficient) exponent)).map
          (Decimal.nearest format) =
            some (Decimal.nearest format ⟨negative, coefficient, exponent⟩) := by
  cases exponent with
  | ofNat n =>
    have htext : positionalChars .document (Text.digits coefficient) (.ofNat n) =
        Text.digits (coefficient * 10 ^ n) ++ '.' :: Text.digits 0 := by
      rw [Text.digits_mul_pow (Nat.pos_of_ne_zero hne)]
      rfl
    have hall : ∀ m, ∀ c ∈ Text.digits m, c.isDigit = true := fun m c => Text.isDigit_of_mem_digits
    have hvalue : Text.digits (coefficient * 10 ^ n) ++ Text.digits 0 =
        Text.digits (coefficient * 10 ^ (n + 1)) := by
      rw [Text.digits_mul_pow (Nat.pos_of_ne_zero hne), Text.digits_mul_pow (Nat.pos_of_ne_zero hne),
        List.replicate_succ', List.append_assoc]
      rfl
    have hsum : -((Text.digits 0).length : Int) + (n + 1 : Nat) = Int.ofNat n := by
      change -1 + ((n + 1 : Nat) : Int) = n
      omega
    rw [htext, readUnsigned?_point negative (Text.digits_ne_nil _) (hall _) (hall _), hvalue,
      Text.digitsValue_digits, Option.map_some, Decimal.nearest_mul_pow negative hne, hsum]
    exact ⟨(Positional.of_point (Text.digits_ne_nil _) (hall _) (hall _)).marked (by simp), rfl⟩
  | negSucc n =>
    have htext : positionalChars .document (Text.digits coefficient) (.negSucc n) =
        positionalChars .plain (Text.digits coefficient) (.negSucc n) := rfl
    obtain ⟨hpositional, hread⟩ := @readUnsigned?_positionalChars format negative _ hne (.negSucc n)
    rw [htext]
    refine ⟨hpositional.marked ?_, hread⟩
    unfold positionalChars
    dsimp only
    split <;> simp

/-! ## Numbers -/

variable (covered : format.Covered)

include covered

/-- A finite number is written as its sign and a decimal that reads back. -/
theorem floatChars_document {x : BinaryFloat format} (hfinite : x.IsFinite) :
    ∃ text, floatChars .document x = (if x.negative then ['-'] else []) ++ text ∧ Marked text ∧
      (Decimal.readUnsigned? x.negative text).map (Decimal.nearest format) = some x := by
  have hnumber : ¬ format.infinity < x.magnitude := Nat.not_lt.2 (Nat.le_of_lt hfinite)
  have hinfinity : x.magnitude ≠ format.infinity := Nat.ne_of_lt hfinite
  unfold floatChars
  rw [if_neg hnumber]
  dsimp only
  rw [if_neg hinfinity]
  by_cases hzero : x.magnitude = 0
  · have hdigit : ∀ c ∈ ['0'], c.isDigit = true := by simp
    refine ⟨['0'] ++ '.' :: ['0'], if_pos hzero, ?_, ?_⟩
    · exact (Positional.of_point (by simp) hdigit hdigit).marked (by simp)
    · have hvalue : Text.digitsValue (['0'] ++ ['0']) = 0 := by decide
      have hnearest : Decimal.nearest format ⟨x.negative, 0, -(['0'].length : Int)⟩ =
          .ofMagnitude format x.negative 0 := by
        simp [Decimal.nearest]
      rw [readUnsigned?_point x.negative (by simp) hdigit hdigit, hvalue, Option.map_some, hnearest,
        ← hzero, x.ofMagnitude_magnitude]
  · rw [if_neg hzero]
    obtain ⟨hback, hne⟩ := nearest_shortest covered .toEven (Nat.pos_of_ne_zero hzero) hfinite
    refine ⟨_, rfl, ?_⟩
    dsimp only [FloatStyle.document] at hback hne ⊢
    generalize (shortest format .toEven x.magnitude).1 = coefficient at hback hne ⊢
    generalize (shortest format .toEven x.magnitude).2 = exponent at hback ⊢
    have hdigits : ∀ c ∈ Text.digits coefficient, c.isDigit = true :=
      fun c => Text.isDigit_of_mem_digits
    unfold decimalChars
    dsimp only [FloatStyle.document]
    split
    · obtain ⟨hmarked, hread⟩ :=
        @readUnsigned?_positionalChars_document format x.negative _ hne exponent
      exact ⟨hmarked, hread.trans (congrArg some hback)⟩
    · obtain ⟨hmarked, hread⟩ := readUnsigned?_scientificChars x.negative (Text.digits_ne_nil _)
        hdigits (exponent + (Text.digits coefficient).length - 1)
      have hlength := List.length_pos_iff.2 (Text.digits_ne_nil coefficient)
      have hexponent : exponent + ((Text.digits coefficient).length : Int) - 1 -
          ((Text.digits coefficient).length - 1 : Nat) = exponent := by omega
      rw [Text.digitsValue_digits, hexponent] at hread
      exact ⟨hmarked, by rw [hread, Option.map_some, hback]⟩

omit covered

/-! ## Texts of one number -/

theorem sign_append_inj {negative negative' : Bool} {text text' : List Char}
    (h : ∃ c rest, text = c :: rest ∧ c.isDigit = true)
    (h' : ∃ c rest, text' = c :: rest ∧ c.isDigit = true)
    (heq : (if negative then ['-'] else []) ++ text = (if negative' then ['-'] else []) ++ text') :
    negative = negative' ∧ text = text' := by
  obtain ⟨c, rest, rfl, hc⟩ := h
  obtain ⟨c', rest', rfl, hc'⟩ := h'
  have hne : ∀ d : Char, d.isDigit = true → d ≠ '-' := by
    rintro d hd rfl
    cases hd
  have := hne c hc
  have := hne c' hc'
  cases negative <;> cases negative' <;> grind

include covered

theorem floatChars_document_inj {x y : BinaryFloat format} (hx : x.IsFinite) (hy : y.IsFinite)
    (h : floatChars .document x = floatChars .document y) : x = y := by
  obtain ⟨text, htext, hmarked, hread⟩ := floatChars_document covered hx
  obtain ⟨text', htext', hmarked', hread'⟩ := floatChars_document covered hy
  rw [htext, htext'] at h
  obtain ⟨hsign, rfl⟩ := sign_append_inj hmarked.first hmarked'.first h
  rw [← hsign, hread] at hread'
  exact Option.some.inj hread'

end Number

/-! ## Numbers of documents -/

namespace JsonNumber

/-- The numbers of documents: integers and finite floats. -/
def IsFinite : JsonNumber → Prop
  | .integer _ => True
  | .float x => x.IsFinite

instance : DecidablePred IsFinite
  | .integer _ => .isTrue trivial
  | .float x => inferInstanceAs (Decidable x.IsFinite)

end JsonNumber

namespace Json

open Number (IsNumberChar)

theorem isNumberChar_of_mem_numberChars {n : JsonNumber} (h : n.IsFinite) {c : Char}
    (hc : c ∈ numberChars n) : IsNumberChar c := by
  cases n with
  | integer n =>
    rcases Number.mem_intChars hc with hdigit | rfl
    · exact .inl hdigit
    · exact .inr (by simp)
  | float x =>
    obtain ⟨text, htext, hmarked, -⟩ := Number.floatChars_document BinaryFormat.covered_double h
    rw [numberChars, htext] at hc
    rcases List.mem_append.1 hc with hc | hc
    · refine .inr ?_
      split at hc
      · simp_all
      · cases hc
    · exact hmarked.all c hc

theorem numberChars_head {n : JsonNumber} (h : n.IsFinite) :
    ∃ c rest, numberChars n = c :: rest ∧ IsNumberChar c := by
  have hne : numberChars n ≠ [] := by
    cases n with
    | integer n => exact Number.intChars_ne_nil n
    | float x =>
      obtain ⟨text, htext, hmarked, -⟩ := Number.floatChars_document BinaryFormat.covered_double h
      obtain ⟨c, rest, rfl, -⟩ := hmarked.first
      rw [numberChars, htext]
      simp
  obtain ⟨c, rest, hchars⟩ := List.exists_cons_of_ne_nil hne
  exact ⟨c, rest, hchars, isNumberChar_of_mem_numberChars h (by simp [hchars])⟩

/-- A float has a point or an exponent, and an integer has neither. -/
theorem intChars_ne_floatChars (n : Int) {x : Double} (h : x.IsFinite) :
    Number.intChars n ≠ Number.floatChars .document x := by
  intro heq
  obtain ⟨text, htext, hmarked, -⟩ := Number.floatChars_document BinaryFormat.covered_double h
  obtain ⟨c, hc, hmark⟩ := hmarked.marked
  have hmem : c ∈ Number.intChars n := by
    rw [heq, htext]
    exact List.mem_append_right _ hc
  rcases hmark with rfl | rfl <;> rcases Number.mem_intChars hmem with hdigit | hminus <;>
    simp_all

theorem numberChars_inj {m n : JsonNumber} (hm : m.IsFinite) (hn : n.IsFinite)
    (h : numberChars m = numberChars n) : m = n := by
  cases m with
  | integer m =>
    cases n with
    | integer n => exact congrArg JsonNumber.integer (Number.intChars_injective h)
    | float y => exact absurd h (intChars_ne_floatChars m hn)
  | float x =>
    cases n with
    | integer n => exact absurd h.symm (intChars_ne_floatChars n hm)
    | float y =>
      exact congrArg JsonNumber.float
        (Number.floatChars_document_inj BinaryFormat.covered_double hm hn h)

end Json

end ObjectRelational
