import ObjectRelational.Proofs.Number.FloatText
import ObjectRelational.Spatial.PointText
import ObjectRelational.Value.Display

/-! # Points read back

The coordinates of a finite point are written in digits, points and minus signs. None of these is
white space or a mark of the text around them, so that both forms of a point are taken apart where
they were put together.
-/

namespace ObjectRelational.Spatial

set_option autoImplicit false

/-! ## Coordinates -/

/-- One or more coordinate characters, none of them white space. -/
structure CoordinateText (text : List Char) : Prop where
  ne_nil : text ≠ []
  chars : ∀ c ∈ text, isCoordinateChar c = true ∧ Text.isBlank c = false

theorem coordinateText_of_finite {x : Double} (h : x.IsFinite) :
    CoordinateText (Number.floatChars .plain x) := by
  refine ⟨Number.floatChars_ne_nil BinaryFormat.covered_double x, fun c hc => ?_⟩
  rcases Number.mem_floatChars_of_finite BinaryFormat.covered_double h hc with hdigit | rfl | rfl
  · exact ⟨by simp [isCoordinateChar, hdigit], Text.isBlank_of_isDigit hdigit⟩
  · decide
  · decide

theorem coordinate?_append {text rest : List Char} (h : CoordinateText text)
    (hrest : ∀ c ∈ rest.head?, isCoordinateChar c = false) :
    coordinate? (text ++ rest) = some (text, rest) := by
  obtain ⟨htake, hdrop⟩ := Text.span_append (fun c hc => (h.chars c hc).1) hrest
  obtain ⟨c, tail, rfl⟩ := List.exists_cons_of_ne_nil h.ne_nil
  rw [coordinate?, htake, hdrop]

theorem trimStart_coordinate {text : List Char} (h : CoordinateText text) (rest : List Char) :
    Text.trimStart (text ++ rest) = text ++ rest := by
  obtain ⟨c, tail, rfl⟩ := List.exists_cons_of_ne_nil h.ne_nil
  simp [Text.trimStart, (h.chars c List.mem_cons_self).2]

/-! ## Both forms -/

variable {x y : List Char} (hx : CoordinateText x) (hy : CoordinateText y)

include hx hy

theorem pairParts?_of_coordinates :
    pairParts? ('(' :: (x ++ ',' :: (y ++ [')']))) = some (x, y) := by
  have hcomma : coordinate? (x ++ ',' :: (y ++ [')'])) = some (x, ',' :: (y ++ [')'])) :=
    coordinate?_append hx (by simp [isCoordinateChar])
  have hclosing : coordinate? (y ++ [')']) = some (y, [')']) :=
    coordinate?_append hy (by simp [isCoordinateChar])
  have hopen : ∀ rest : List Char, Text.trimStart ('(' :: rest) = '(' :: rest := fun _ => rfl
  have hbetween : ∀ rest : List Char, Text.trimStart (',' :: rest) = ',' :: rest := fun _ => rfl
  have hend : Text.trimStart [')'] = [')'] := rfl
  unfold pairParts?
  simp only [hopen, mark?, if_true, Option.bind_eq_bind, Option.bind_some, trimStart_coordinate hx,
    hcomma, hbetween, trimStart_coordinate hy, hclosing, hend]
  rfl

theorem geometryParts?_of_coordinates :
    geometryParts? ("POINT(".toList ++ (x ++ ' ' :: (y ++ [')']))) = some (x, y) := by
  have hblank : coordinate? (x ++ ' ' :: (y ++ [')'])) = some (x, ' ' :: (y ++ [')'])) :=
    coordinate?_append hx (by simp [isCoordinateChar])
  have hclosing : coordinate? (y ++ [')']) = some (y, [')']) :=
    coordinate?_append hy (by simp [isCoordinateChar])
  have hword : ∀ rest : List Char, reference? ("POINT(".toList ++ rest) = none := fun _ => rfl
  have hpoint : ∀ rest : List Char,
      word? "point".toList ("POINT(".toList ++ rest) = some ('(' :: rest) := fun _ => rfl
  have hstart : ∀ rest : List Char,
      Text.trimStart ("POINT(".toList ++ rest) = "POINT(".toList ++ rest := fun _ => rfl
  have hopen : ∀ rest : List Char, Text.trimStart ('(' :: rest) = '(' :: rest := fun _ => rfl
  have hbetween : blanks? (' ' :: (y ++ [')'])) = some (y ++ [')']) := by
    change some (Text.trimStart (y ++ [')'])) = _
    rw [trimStart_coordinate hy]
  have hend : Text.trimStart [')'] = [')'] := rfl
  unfold geometryParts?
  simp only [hstart, hword, Option.getD_none, hpoint, hopen, mark?, if_true, Option.bind_eq_bind,
    Option.bind_some, trimStart_coordinate hx, hblank, hbetween, hclosing, hend]
  rfl

omit hx hy

theorem ofParts?_of_finite {p : Point} (h : p.IsFinite) :
    ofParts? (Number.floatChars .plain p.x, Number.floatChars .plain p.y) = some p := by
  simp [ofParts?, Number.readFloat?_of_finite BinaryFormat.covered_double h.1,
    Number.readFloat?_of_finite BinaryFormat.covered_double h.2]

theorem toList_text (p : Point) : p.text.toList = '(' :: (Number.floatChars .plain p.x ++
    ',' :: (Number.floatChars .plain p.y ++ [')'])) := by
  simp [Point.text, Number.floatText]

theorem toList_geometryText (p : Point) : (geometryText p).toList = "POINT(".toList ++
    (Number.floatChars .plain p.x ++ ' ' :: (Number.floatChars .plain p.y ++ [')'])) := by
  simp [geometryText, Number.floatText]

/-- A finite point reads back from its text as a pair. -/
theorem readPair?_text {p : Point} (h : p.IsFinite) : readPair? p.text = some p := by
  rw [readPair?, toList_text, pairParts?_of_coordinates (coordinateText_of_finite h.1)
    (coordinateText_of_finite h.2)]
  exact ofParts?_of_finite h

/-- A finite point reads back from its text as a geometry. -/
theorem readGeometry?_geometryText {p : Point} (h : p.IsFinite) :
    readGeometry? (geometryText p) = some p := by
  unfold readGeometry?
  rw [toList_geometryText, geometryParts?_of_coordinates (coordinateText_of_finite h.1)
    (coordinateText_of_finite h.2)]
  exact ofParts?_of_finite h

/-- A pair is no geometry, and a geometry no pair. -/
theorem readGeometry?_text (p : Point) : readGeometry? p.text = none := by
  unfold readGeometry?
  rw [toList_text]
  rfl

theorem readPair?_geometryText (p : Point) : readPair? (geometryText p) = none := by
  rw [readPair?, toList_geometryText]
  rfl

end ObjectRelational.Spatial
