import ObjectRelational.Converter

/-! # Null in conversions

Null is the absence of a value, and no conversion may take one for the other. Every converter decides
about null before it looks for a value of its own kind, and everything it makes of such a value has a
kind. Only a converter that hands values through can give a null at all, and then the null was there
before.

* `Converter.isNull_of_read`, `Converter.isNull_of_write`: nothing becomes null;
* `Converter.keeps_null`: nulls, typed ones among them, are exactly what is read and written as null.
-/

namespace ObjectRelational

set_option autoImplicit false

theorem except_bind_ok {ε α β : Type} {x : Except ε α} {f : α → Except ε β} {b : β}
    (h : (x >>= f) = .ok b) : ∃ a, x = .ok a ∧ f a = .ok b := by
  cases x with
  | error e => cases h
  | ok a => exact ⟨a, rfl, h⟩

namespace Converter

variable {converter : Converter}

/-! ## Null -/

theorem read_of_isNull {stored : Value} (h : stored.isNull = true) :
    converter.read stored = .ok .null := by
  have huntyped := (Value.isNull_eq_true_iff stored).1 h
  cases converter <;> simp [read, huntyped]

/-- A null is written as a null, by a converter that hands values through as the null it is. -/
theorem write_of_isNull {value : Value} (h : value.isNull = true) :
    ∃ stored, converter.write value = .ok stored ∧ stored.isNull = true := by
  have huntyped := (Value.isNull_eq_true_iff value).1 h
  cases converter with
  | passThrough label => exact ⟨value, rfl, h⟩
  | json style => cases style <;> exact ⟨.null, by simp [write, huntyped], rfl⟩
  | uuid style => cases style <;> exact ⟨.null, by simp [write, huntyped], rfl⟩
  | _ => exact ⟨.null, by simp [write, huntyped], rfl⟩

/-! ## Values -/

theorem isNull_checkLiteral {typeName literal : String} {literals : List String} {value : Value}
    (h : checkLiteral typeName literals literal = .ok value) : value.isNull = false := by
  unfold checkLiteral at h
  split at h <;> cases h
  rfl

/-- Also the document null is a value. -/
theorem isNull_jsonOf {found : Option Json} {value : Value} (h : jsonOf found = .ok value) :
    value.isNull = false := by
  cases found <;> cases h
  rfl

theorem isNull_pointOf {input : String} {found : Option Point} {value : Value}
    (h : pointOf input found = .ok value) : value.isNull = false := by
  cases found <;> cases h
  rfl

/-- What is read from a cell that is not null is not null either. -/
theorem isNull_of_read {stored value : Value} (hread : converter.read stored = .ok value)
    (h : stored.isNull = false) : value.isNull = false := by
  rw [← Value.isNull_untyped] at h
  unfold read at hread
  -- Only what is handed through could be null; every other branch fails or gives its own kind.
  split at hread
  case h_1 =>
    cases hread
    exact h
  case h_2 hnull =>
    rw [hnull] at h
    cases h
  case h_3 => exact isNull_checkLiteral hread
  case h_5 =>
    obtain ⟨fields, -, rfl⟩ := Composite.map_eq_ok hread
    rfl
  case h_9 => exact isNull_jsonOf hread
  case h_10 => exact isNull_jsonOf hread
  case h_12 =>
    obtain ⟨u, -, rfl⟩ := Composite.map_eq_ok hread
    rfl
  case h_14 => exact isNull_pointOf hread
  case h_17 => exact isNull_pointOf hread
  all_goals
    cases hread
    try rfl

/-- What is written for a value that is not null is not null either. -/
theorem isNull_of_write {value stored : Value} (hwrite : converter.write value = .ok stored)
    (h : value.isNull = false) : stored.isNull = false := by
  unfold write at hwrite
  -- As for reading; a text in a type wrapper is a value too.
  split at hwrite
  case h_1 =>
    cases hwrite
    exact h
  case h_2 hnull =>
    rw [(Value.isNull_eq_true_iff value).2 hnull] at h
    cases h
  case h_3 databaseType _ _ =>
    obtain ⟨literal, hliteral, hwrite⟩ := except_bind_ok hwrite
    have hnull := isNull_checkLiteral hliteral
    cases databaseType <;> cases hwrite <;> exact hnull
  case h_10 | h_11 =>
    obtain ⟨u, -, rfl⟩ := Composite.map_eq_ok hwrite
    rfl
  case h_5 | h_12 | h_14 =>
    obtain ⟨part, -, hwrite⟩ := except_bind_ok hwrite
    cases hwrite
    rfl
  all_goals
    cases hwrite
    try rfl

/-- Whichever converter a chain gives, null is read and written without fail, and what is read or
written is null only for a null. -/
theorem keeps_null (converter : Converter) (value : Value) :
    (value.isNull = true →
      converter.read value = .ok .null ∧ ∃ stored, converter.write value = .ok stored) ∧
    (∀ found, converter.read value = .ok found → (found.isNull = true ↔ value.isNull = true)) ∧
    ∀ stored, converter.write value = .ok stored →
      (stored.isNull = true ↔ value.isNull = true) := by
  cases hnull : value.isNull with
  | true =>
    have hread : converter.read value = .ok .null := read_of_isNull hnull
    obtain ⟨stored, hwrite, hstored⟩ := @write_of_isNull converter value hnull
    refine ⟨fun _ => ⟨hread, stored, hwrite⟩, ?_, ?_⟩
    · intro found hfound
      rw [hread] at hfound
      cases hfound
      exact iff_of_true rfl rfl
    · intro other hother
      rw [hwrite] at hother
      cases hother
      exact iff_of_true hstored rfl
  | false =>
    refine ⟨nofun, ?_, ?_⟩
    · intro found hfound
      rw [isNull_of_read hfound hnull]
    · intro stored hstored
      rw [isNull_of_write hstored hnull]

end Converter

end ObjectRelational
