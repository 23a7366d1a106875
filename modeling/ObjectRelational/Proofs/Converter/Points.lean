import Mathlib.Data.List.TakeWhile
import ObjectRelational.Proofs.Converter.RoundTrip
import ObjectRelational.Proofs.Number.Overflow
import ObjectRelational.Proofs.Spatial.Grammar

/-! # Points written back

The coordinates of a point are decimals in text, and what is read of one is the number nearest to
it. A decimal of any size is read, also one beyond every finite number; no converter writes the
point that comes of it.

* `Decimal.readSigned?`: the decimal of a coordinate;
* `Converter.coordinates?`: the two decimals in the text of a point;
* `Converter.Suits.write_of_read_text`: the texts whose point is written back.
-/

namespace ObjectRelational

set_option autoImplicit false

/-! ## Coordinates -/

/-- A decimal with an optional sign. -/
def Decimal.readSigned? : List Char → Option Decimal
  | '+' :: rest => readUnsigned? false rest
  | '-' :: rest => readUnsigned? true rest
  | rest => readUnsigned? false rest

/-- No character of a coordinate starts the name of a number. -/
theorem Spatial.toLower_of_isCoordinateChar {c : Char} (h : isCoordinateChar c = true) :
    c.toLower ≠ 'i' ∧ c.toLower ≠ 'n' := by
  by_cases hdigit : c.isDigit = true
  · rw [Number.toLower_of_isDigit hdigit]
    constructor <;> rintro rfl <;> cases hdigit
  · simp only [isCoordinateChar, hdigit, Bool.or_false, Bool.or_eq_true, decide_eq_true_eq] at h
    rcases h with (((rfl | rfl) | rfl) | rfl) | rfl <;> decide

namespace Number

/-- A coordinate is read as the number nearest to its decimal. -/
theorem readFloat?_of_coordinate {text : List Char}
    (h : ∀ c ∈ text, Spatial.isCoordinateChar c = true) (format : BinaryFormat) :
    readFloat? format text = (Decimal.readSigned? text).map (Decimal.nearest format) := by
  have hunsigned : ∀ negative rest, (∀ c ∈ rest, Spatial.isCoordinateChar c = true) →
      readUnsignedFloat? format negative rest =
        (Decimal.readUnsigned? negative rest).map (Decimal.nearest format) := by
    intro negative rest hrest
    have hname : namedMagnitude? format rest = none := namedMagnitude?_eq_none fun c hc =>
      Spatial.toLower_of_isCoordinateChar (hrest c (List.mem_of_mem_head? hc))
    rw [readUnsignedFloat?, hname]
  unfold readFloat?
  split
  · exact hunsigned _ _ fun c hc => h c (List.mem_cons_of_mem _ hc)
  · exact hunsigned _ _ fun c hc => h c (List.mem_cons_of_mem _ hc)
  · next hplus hminus =>
    have hsigned : Decimal.readSigned? text = Decimal.readUnsigned? false text := by
      unfold Decimal.readSigned?
      split
      · exact absurd rfl (hplus _)
      · exact absurd rfl (hminus _)
      · rfl
    rw [hsigned]
    exact hunsigned _ _ h

end Number

namespace Spatial

theorem coordinate?_chars {text found rest : List Char}
    (h : coordinate? text = some (found, rest)) : ∀ c ∈ found, isCoordinateChar c = true := by
  unfold coordinate? at h
  split at h
  · cases h
  · cases h
    exact fun c => List.mem_takeWhile_imp

/-- The decimals of two coordinates in text. -/
def decimals? (parts : List Char × List Char) : Option (Decimal × Decimal) := do
  let x ← Decimal.readSigned? parts.1
  let y ← Decimal.readSigned? parts.2
  return (x, y)

/-- Two coordinates in text. -/
structure Coordinates (parts : List Char × List Char) : Prop where
  fst : ∀ c ∈ parts.1, isCoordinateChar c = true
  snd : ∀ c ∈ parts.2, isCoordinateChar c = true

theorem coordinates_of_pairParts? {text : List Char} {parts : List Char × List Char}
    (h : pairParts? text = some parts) : Coordinates parts := by
  simp only [pairParts?, Option.bind_eq_bind, Option.bind_eq_some_iff] at h
  obtain ⟨_, -, ⟨x, _⟩, hx, _, -, ⟨y, _⟩, hy, _, -, h⟩ := h
  split at h
  · cases h
    exact ⟨coordinate?_chars hx, coordinate?_chars hy⟩
  · cases h

theorem coordinates_of_geometryParts? {text : List Char} {parts : List Char × List Char}
    (h : geometryParts? text = some parts) : Coordinates parts := by
  simp only [geometryParts?, Option.bind_eq_bind, Option.bind_eq_some_iff] at h
  obtain ⟨_, -, _, -, ⟨x, _⟩, hx, _, -, ⟨y, _⟩, hy, _, -, h⟩ := h
  split at h
  · cases h
    exact ⟨coordinate?_chars hx, coordinate?_chars hy⟩
  · cases h

theorem ofParts?_eq {parts : List Char × List Char} (h : Coordinates parts) :
    ofParts? parts = (decimals? parts).map fun found =>
      ⟨Decimal.nearest .double found.1, Decimal.nearest .double found.2⟩ := by
  rw [ofParts?, decimals?, Number.readFloat?_of_coordinate h.fst,
    Number.readFloat?_of_coordinate h.snd]
  cases Decimal.readSigned? parts.1 <;> cases Decimal.readSigned? parts.2 <;> rfl

end Spatial

/-! ## Texts -/

namespace Converter

/-- The coordinates in the text of a point, as a converter finds them. -/
def parts? (converter : Converter) (text : String) : Option (List Char × List Char) :=
  match converter with
  | .pointPair => Spatial.pairParts? text.toList
  | .pointGeometry _ => Spatial.geometryParts? text.toList
  | _ => none

/-- The decimals in the text of a point. -/
def coordinates? (converter : Converter) (text : String) : Option (Decimal × Decimal) :=
  (converter.parts? text).bind Spatial.decimals?

theorem coordinates_of_parts? {converter : Converter} {text : String}
    {parts : List Char × List Char} (h : converter.parts? text = some parts) :
    Spatial.Coordinates parts := by
  unfold parts? at h
  split at h
  · exact Spatial.coordinates_of_pairParts? h
  · exact Spatial.coordinates_of_geometryParts? h
  · cases h

/-- What is read of the text of a point are the numbers nearest to its decimals. -/
theorem Suits.read_text {converter : Converter} (suits : converter.Suits .point) {text : String}
    {p : Point} (h : converter.read (.text text) = .ok (.point p)) :
    ∃ x y, converter.coordinates? text = some (x, y) ∧
      p = ⟨Decimal.nearest .double x, Decimal.nearest .double y⟩ := by
  have hread : converter.read (.text text) =
      pointOf text ((converter.parts? text).bind Spatial.ofParts?) := by
    obtain rfl | ⟨srid, rfl⟩ := suits.point_cases <;> rfl
  obtain ⟨parts, hparts, hpoint⟩ := Option.bind_eq_some_iff.1 (pointOf_eq_ok.1 (hread.symm.trans h))
  rw [Spatial.ofParts?_eq (coordinates_of_parts? hparts), Option.map_eq_some_iff] at hpoint
  obtain ⟨⟨x, y⟩, hdecimals, rfl⟩ := hpoint
  exact ⟨x, y, Option.bind_eq_some_iff.2 ⟨parts, hparts, hdecimals⟩, rfl⟩

/-- A point read from a text is written and read back as itself when both decimals in the text lie
below the greatest finite number and half a step on. Any other decimal is read as infinity, never as
what is no number, and its point is not written. -/
theorem Suits.write_of_read_text {converter : Converter} (suits : converter.Suits .point)
    {text : String} {p : Point} (h : converter.read (.text text) = .ok (.point p)) :
    ∃ x y, converter.coordinates? text = some (x, y) ∧
      p = ⟨Decimal.nearest .double x, Decimal.nearest .double y⟩ ∧ ¬ p.x.IsNaN ∧ ¬ p.y.IsNaN ∧
      (x.size < 2 ^ 1024 - 2 ^ 970 ∧ y.size < 2 ^ 1024 - 2 ^ 970 →
        ∃ stored, converter.write (.point p) = .ok stored ∧
          converter.read stored = .ok (.point p)) ∧
      (2 ^ 1024 - 2 ^ 970 ≤ x.size ∨ 2 ^ 1024 - 2 ^ 970 ≤ y.size →
        converter.write (.point p) = .error (.malformedPoint p.text)) := by
  obtain ⟨x, y, hdecimals, rfl⟩ := suits.read_text h
  have hfinite : ∀ d : Decimal, (Decimal.nearest .double d).IsFinite ↔
      d.size < 2 ^ 1024 - 2 ^ 970 := fun d => by
    rw [Decimal.isFinite_nearest_iff BinaryFormat.covered_double (by decide),
      BinaryFormat.limit_double]
  refine ⟨x, y, hdecimals, rfl, Decimal.not_isNaN_nearest _ x, Decimal.not_isNaN_nearest _ y,
    fun hboth => ?_, fun hgreat => ?_⟩
  · exact suits.read_write_point ⟨(hfinite x).2 hboth.1, (hfinite y).2 hboth.2⟩
  · refine suits.write_infinite fun hboth => ?_
    rcases hgreat with hx | hy
    · exact not_lt.2 hx ((hfinite x).1 hboth.1)
    · exact not_lt.2 hy ((hfinite y).1 hboth.2)

/-- One and a half, twenty below zero. -/
def shore : Point :=
  ⟨.ofQuotient .double false 3 2, .ofQuotient .double true 20 1⟩

theorem write_of_read_text_shore :
    pointPair.read (.text " (+1.5, -2e1)") = .ok (.point shore) ∧
      ∃ stored, pointPair.write (.point shore) = .ok stored ∧
        pointPair.read stored = .ok (.point shore) := by
  have htext : Spatial.readPair? " (+1.5, -2e1)" = some shore := by decide +kernel
  have hread : pointPair.read (.text " (+1.5, -2e1)") = .ok (.point shore) :=
    congrArg (pointOf " (+1.5, -2e1)") htext
  obtain ⟨x, y, hdecimals, -, -, -, hback, -⟩ := Suits.pointPair.write_of_read_text hread
  have hfound : pointPair.coordinates? " (+1.5, -2e1)" =
      some (⟨false, 15, -1⟩, ⟨true, 2, 1⟩) := by decide +kernel
  cases hfound.symm.trans hdecimals
  have hlimit : (20 : ℚ) < 2 ^ 1024 - 2 ^ 970 :=
    calc (20 : ℚ) < (2 ^ 54 - 1) * 1 := by norm_num
      _ ≤ (2 ^ 54 - 1) * 2 ^ 970 :=
        mul_le_mul_of_nonneg_left (one_le_pow₀ (by norm_num)) (by norm_num)
      _ = 2 ^ 1024 - 2 ^ 970 := by rw [sub_mul, one_mul, ← pow_add]
  refine ⟨hread, hback ⟨?_, ?_⟩⟩
  · refine lt_trans ?_ hlimit
    norm_num [Decimal.size]
  · refine lt_of_le_of_lt ?_ hlimit
    norm_num [Decimal.size]

/-- A coordinate is read that is too great for every finite number, and not written. -/
theorem not_write_of_read_text : ¬ ∀ (converter : Converter), converter.Suits .point →
    ∀ (text : String) (p : Point), converter.read (.text text) = .ok (.point p) →
      ∃ stored, converter.write (.point p) = .ok stored ∧
        converter.read stored = .ok (.point p) := by
  intro hall
  have hread : pointPair.read (.text "(1e999,0)") =
      .ok (.point ⟨.ofMagnitude .double false BinaryFormat.double.infinity, .zero .double⟩) := by rfl
  obtain ⟨stored, hwrite, -⟩ := hall .pointPair .pointPair _ _ hread
  rw [Suits.pointPair.write_infinite (by decide +kernel)] at hwrite
  cases hwrite

end Converter

end ObjectRelational
