import Mathlib
import ObjectRelational.Identifier

/-! # Names there and back

A property name becomes a column name and a column name a property name. Each conversion undoes the
other on the names that the other one writes, and on no others: on property names without
underscores, and on column names in snake case.

* `SnakeCase`: no capitals, and a small letter after every underscore;
* `propertyChars_columnChars`, `columnChars_propertyChars`: there and back on such names;
* `underscore_not_mem_propertyChars`, `snakeCase_columnChars`: what the conversions write;
* `conversions_undo_iff`: the names on which each conversion undoes the other.
-/

namespace ObjectRelational.Identifier

set_option autoImplicit false

/-! ## Snake case -/

/-- No character is an ASCII capital, and an ASCII small letter follows every underscore. -/
structure SnakeCase (column : List Char) : Prop where
  noCapital : ∀ c ∈ column, c.isUpper = false
  letter : ∀ before after, column = before ++ '_' :: after →
    ∃ c rest, after = c :: rest ∧ c.isLower = true

theorem snakeCase_nil : SnakeCase [] where
  noCapital _ h := by cases h
  letter before after h := by simp at h

variable {c : Char} {column property : List Char}

theorem SnakeCase.tail (h : SnakeCase (c :: column)) : SnakeCase column where
  noCapital d hd := h.noCapital d (List.mem_cons_of_mem c hd)
  letter before after hcolumn := h.letter (c :: before) after (by rw [hcolumn, List.cons_append])

theorem SnakeCase.cons (h : SnakeCase column) (hcapital : c.isUpper = false) (hc : c ≠ '_') :
    SnakeCase (c :: column) where
  noCapital := List.forall_mem_cons.2 ⟨hcapital, h.noCapital⟩
  letter before after hcolumn := by
    cases before with
    | nil => exact absurd (List.cons.inj hcolumn).1 hc
    | cons _ before => exact h.letter before after (List.cons.inj hcolumn).2

/-- An underscore may stand before a small letter. -/
theorem SnakeCase.underscore (h : SnakeCase (c :: column)) (hletter : c.isLower = true) :
    SnakeCase ('_' :: c :: column) where
  noCapital := List.forall_mem_cons.2 ⟨by decide, h.noCapital⟩
  letter before after hcolumn := by
    cases before with
    | nil => exact ⟨c, column, (List.cons.inj hcolumn).2.symm, hletter⟩
    | cons _ before => exact h.letter before after (List.cons.inj hcolumn).2

theorem SnakeCase.letter_after (h : SnakeCase ('_' :: column)) :
    ∃ c rest, column = c :: rest ∧ c.isLower = true :=
  h.letter [] column rfl

/-! ## Capitals and small letters -/

theorem ne_underscore_of_isUpper (h : c.isUpper = true) : c ≠ '_' := by
  rintro rfl
  exact absurd h (by decide)

theorem ne_underscore_of_isLower (h : c.isLower = true) : c ≠ '_' := by
  rintro rfl
  exact absurd h (by decide)

theorem isLower_toLower (h : c.isUpper = true) : c.toLower.isLower = true := by
  rw [Char.isLower_toLower_eq_isAlpha, Char.isAlpha, h, Bool.true_or]

theorem isUpper_toUpper (h : c.isLower = true) : c.toUpper.isUpper = true := by
  rw [Char.isUpper_toUpper_eq_isAlpha, Char.isAlpha, h, Bool.or_true]

theorem toUpper_toLower (h : c.isUpper = true) : c.toLower.toUpper = c := by
  rw [Char.toUpper_toLower_eq_toUpper, Char.toUpper_eq_of_not_isLower (Char.not_isLower_of_isUpper h)]

theorem toLower_toUpper (h : c.isLower = true) : c.toUpper.toLower = c := by
  rw [Char.toLower_toUpper_eq_toLower, Char.toLower_eq_of_not_isUpper (Char.not_isUpper_of_isLower h)]

theorem toUpper_ne_underscore (h : c ≠ '_') : c.toUpper ≠ '_' := by
  by_cases hletter : c.isLower = true
  · exact ne_underscore_of_isUpper (isUpper_toUpper hletter)
  · rwa [Char.toUpper_eq_of_not_isLower hletter]

/-! ## What the conversions write -/

/-- A property name is written without underscores. -/
theorem underscore_not_mem_propertyChars (pending : Bool) (column : List Char) :
    '_' ∉ propertyChars pending column := by
  induction column generalizing pending with
  | nil => exact List.not_mem_nil
  | cons c rest ih =>
    rw [propertyChars]
    by_cases hc : c = '_'
    · rw [if_pos hc]
      exact ih true
    · rw [if_neg hc, List.mem_cons, not_or]
      refine ⟨?_, ih false⟩
      cases pending with
      | true => exact (toUpper_ne_underscore hc).symm
      | false => exact Ne.symm hc

/-- A column name is written in snake case. -/
theorem snakeCase_columnChars (h : '_' ∉ property) : SnakeCase (columnChars property) := by
  induction property with
  | nil => exact snakeCase_nil
  | cons c rest ih =>
    obtain ⟨hc, hrest⟩ := not_or.1 (mt List.mem_cons.2 h)
    have hcolumn := ih hrest
    rw [columnChars]
    by_cases hcapital : c.isUpper = true
    · have hletter := isLower_toLower hcapital
      rw [if_pos hcapital]
      exact (hcolumn.cons (Char.isUpper_toLower_eq_false c)
        (ne_underscore_of_isLower hletter)).underscore hletter
    · rw [if_neg hcapital]
      exact hcolumn.cons (Bool.eq_false_iff.2 hcapital) (Ne.symm hc)

/-! ## There and back -/

/-- A property name without underscores comes back. -/
theorem propertyChars_columnChars (h : '_' ∉ property) :
    propertyChars false (columnChars property) = property := by
  induction property with
  | nil => rfl
  | cons c rest ih =>
    obtain ⟨hc, hrest⟩ := not_or.1 (mt List.mem_cons.2 h)
    rw [columnChars]
    by_cases hcapital : c.isUpper = true
    · have hletter := ne_underscore_of_isLower (isLower_toLower hcapital)
      rw [if_pos hcapital, propertyChars, if_pos rfl, propertyChars, if_neg hletter, if_pos rfl,
        toUpper_toLower hcapital, ih hrest]
    · rw [if_neg hcapital, propertyChars, if_neg (Ne.symm hc), ih hrest]
      rfl

/-- The underscore that has been dropped last, as long as no character has followed it. -/
def dropped (pending : Bool) : List Char :=
  if pending then ['_'] else []

/-- What is left of a column name in snake case comes back together with the underscore in front of
it. -/
theorem columnChars_propertyChars (pending : Bool) (h : SnakeCase (dropped pending ++ column)) :
    columnChars (propertyChars pending column) = dropped pending ++ column := by
  induction column generalizing pending with
  | nil =>
    cases pending with
    | false => rfl
    | true =>
      obtain ⟨c, rest, hnil, -⟩ := h.letter_after
      cases hnil
  | cons c rest ih =>
    cases pending with
    | false =>
      change columnChars (propertyChars false (c :: rest)) = c :: rest
      rw [propertyChars]
      by_cases hc : c = '_'
      · subst hc
        rw [if_pos rfl, ih true h]
        rfl
      · have hcapital : c.isUpper = false := h.noCapital c List.mem_cons_self
        rw [if_neg hc, if_neg Bool.false_ne_true, columnChars, hcapital,
          if_neg Bool.false_ne_true, ih false h.tail]
        rfl
    | true =>
      obtain ⟨first, others, hfirst, hletter⟩ := h.letter_after
      obtain ⟨rfl, rfl⟩ := List.cons.inj hfirst
      rw [propertyChars, if_neg (ne_underscore_of_isLower hletter), if_pos rfl, columnChars,
        if_pos (isUpper_toUpper hletter), toLower_toUpper hletter, ih false h.tail.tail]
      rfl

/-! ## Names -/

theorem underscore_not_mem_of_isCamelCase {name : String} (h : isCamelCase name = true) :
    '_' ∉ name.toList := by
  unfold isCamelCase at h
  split at h
  · cases h
  · next c rest hname =>
    obtain ⟨hc, hrest⟩ := Bool.and_eq_true_iff.1 h
    rw [hname, List.mem_cons, not_or]
    refine ⟨(ne_underscore_of_isLower hc).symm, fun hmem => ?_⟩
    exact absurd (List.all_eq_true.1 hrest _ hmem) (by decide)

theorem toPropertyName_toColumnName_iff (property : String) :
    toPropertyName (toColumnName property) = property ↔ '_' ∉ property.toList := by
  rw [toPropertyName, toColumnName, String.toList_ofList]
  constructor
  · intro h
    rw [← h, String.toList_ofList]
    exact underscore_not_mem_propertyChars false _
  · intro h
    rw [propertyChars_columnChars h, String.ofList_toList]

theorem toColumnName_toPropertyName_iff (column : String) :
    toColumnName (toPropertyName column) = column ↔ SnakeCase column.toList := by
  rw [toPropertyName, toColumnName, String.toList_ofList]
  constructor
  · intro h
    rw [← h, String.toList_ofList]
    exact snakeCase_columnChars (underscore_not_mem_propertyChars false _)
  · intro h
    have hback : columnChars (propertyChars false column.toList) = column.toList :=
      columnChars_propertyChars false h
    rw [hback, String.ofList_toList]

/-- A property name comes back from its column name if and only if it has no underscore, as no name
in camel case has, so that no two of them have one column name. A column name comes back from its
property name if and only if it is in snake case. -/
theorem conversions_undo_iff :
    (∀ property, toPropertyName (toColumnName property) = property ↔ '_' ∉ property.toList) ∧
    (∀ property, isCamelCase property = true →
      toPropertyName (toColumnName property) = property) ∧
    (∀ property other : String, '_' ∉ property.toList → '_' ∉ other.toList →
      toColumnName property = toColumnName other → property = other) ∧
    ∀ column, toColumnName (toPropertyName column) = column ↔ SnakeCase column.toList := by
  refine ⟨toPropertyName_toColumnName_iff, ?_, ?_, toColumnName_toPropertyName_iff⟩
  · intro property h
    exact (toPropertyName_toColumnName_iff property).2 (underscore_not_mem_of_isCamelCase h)
  · intro property other h hother hsame
    rw [← (toPropertyName_toColumnName_iff property).2 h, hsame,
      (toPropertyName_toColumnName_iff other).2 hother]

/-- Digits, and capitals one after the other. -/
example : toColumnName "user2ID" = "user2_i_d" ∧ toPropertyName "user2_i_d" = "user2ID" := by
  decide +kernel

/-- A digit has no capital to show that an underscore stood before it. -/
example : toColumnName (toPropertyName "line_2") = "line2" := by
  decide +kernel

end ObjectRelational.Identifier
