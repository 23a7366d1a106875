import ObjectRelational.Proofs.Converter.Errors
import ObjectRelational.Proofs.Mapping.Lookups

/-! # Rows that cannot be mapped

A mapping converts the cells it looks up one after the other and stops at the first that a converter
or a type refuses. Absent and null cells are refused by none. The error is that of the conversion,
inside the name of the property it is for and of the entity that declares the property; however deep
that entity is nested, the entities around it add nothing.

* `Reading`: a column that a mapper looks up, with the property it is for;
* `RowMapper.mem_readings`: the readings of a mapper are the properties in its tree;
* `FailsWith`: a computation fails with some error, or not at all;
* `RowMapper.failsWith_mapView`: a mapping fails with the first fault of its readings;
* `RowMapper.mapRow_error_iff`: the errors of a row.
-/

namespace ObjectRelational

set_option autoImplicit false

/-! ## Cells that are refused -/

namespace SimpleProperty

/-- Either conversion of a cell fails: that of the converter, or that of the type of the property. -/
def Refuses (property : SimpleProperty) (cell : Value) (cause : MappingError) : Prop :=
  property.converter.read cell = .error cause ∨
    ∃ value, property.converter.read cell = .ok value ∧ property.type.read value = .error cause

theorem accept_of_not_null {property : SimpleProperty} {value : Value}
    (h : value.isNull = false) : property.accept value = property.type.read value := by
  simp [accept, ColumnType.readOptional, h]

theorem refuses_iff {property : SimpleProperty} {cell : Value} (h : cell.isNull = false)
    {cause : MappingError} : property.Refuses cell cause ↔ property.fromCell cell = .error cause := by
  unfold Refuses fromCell
  cases hread : property.converter.read cell with
  | error e => simp [Except.bind]
  | ok value =>
    have hvalue := Converter.isNull_of_read hread h
    simp [Except.bind, accept_of_not_null hvalue]

/-- The cause names no property, unless the type of the property is one of its own. -/
theorem Refuses.isConversion {property : SimpleProperty} {cell : Value} {cause : MappingError}
    (h : property.Refuses cell cause) (htype : ∀ codec, property.type.native ≠ .custom codec) :
    cause.IsConversion := by
  rcases h with hread | ⟨value, -, htake⟩
  · exact property.converter.unnamed_read cell cause hread
  · exact ColumnType.unnamed_read htype value cause htake

end SimpleProperty

/-! ## Readings -/

/-- A column that a mapper looks up, with the property it is for and the short name of the entity
type that declares the property. -/
structure Reading where
  /-- The names of the nested properties on the way. -/
  path : List String
  entity : String
  property : SimpleProperty

namespace Reading

def name (reading : Reading) : String :=
  ".".intercalate (reading.path ++ [reading.property.column])

def own (entity : String) (property : SimpleProperty) : Reading :=
  ⟨[], entity, property⟩

/-- A reading of a nested object, as one of the object around it. -/
def below (nested : NestedProperty) (reading : Reading) : Reading :=
  { reading with path := nested.name :: reading.path }

/-- The error of a reading. -/
def faultOf (reading : Reading) (cause : MappingError) : MappingError :=
  .property reading.entity reading.property.name reading.property.column cause

/-- The error with which a reading fails on a view, if it does. -/
def fault? (view : RowView) (reading : Reading) : Option MappingError :=
  match view.cell? reading.name with
  | none => none
  | some cell =>
      match reading.property.fromCell cell with
      | .ok _ => none
      | .error cause => some (reading.faultOf cause)

@[simp]
theorem name_own (entity : String) (property : SimpleProperty) :
    (own entity property).name = property.column := by
  simp [name, own]

@[simp]
theorem name_below (nested : NestedProperty) (reading : Reading) :
    (reading.below nested).name = nested.name ++ "." ++ reading.name := by
  unfold name below
  rw [List.cons_append, String.intercalate_cons_of_ne_nil (by simp)]

theorem fault?_below (view : RowView) (nested : NestedProperty) (reading : Reading) :
    (reading.below nested).fault? view = reading.fault? (view.under nested.name) := by
  have hcell : view.cell? (reading.below nested).name =
      (view.under nested.name).cell? reading.name := by
    unfold RowView.cell? RowView.under
    rw [name_below]
  unfold fault?
  rw [hcell]
  rfl

theorem fault?_eq_some {view : RowView} {reading : Reading} {e : MappingError} :
    reading.fault? view = some e ↔ ∃ cell cause, view.cell? reading.name = some cell ∧
      reading.property.Refuses cell cause ∧ e = reading.faultOf cause := by
  unfold fault?
  cases hcell : view.cell? reading.name with
  | none => simp
  | some cell =>
    have hnull := (RowView.cell?_eq_some.1 hcell).2
    cases hfrom : reading.property.fromCell cell with
    | ok held => simp [SimpleProperty.refuses_iff hnull, hfrom]
    | error cause => simp [SimpleProperty.refuses_iff hnull, hfrom, eq_comm]

theorem fault?_eq_none {view : RowView} {reading : Reading} :
    reading.fault? view = none ↔
      ∀ cell, view.cell? reading.name = some cell → ¬ ∃ cause, reading.property.Refuses cell cause := by
  rw [Option.eq_none_iff_forall_ne_some]
  simp only [ne_eq, fault?_eq_some]
  grind

end Reading

/-! ## The first fault -/

/-- A computation fails with an error, or, without one, not at all. -/
def FailsWith {α : Type} (fault? : Option MappingError) (answer : Except MappingError α) : Prop :=
  match fault? with
  | none => ∃ a, answer = .ok a
  | some e => answer = .error e

namespace FailsWith

variable {α β : Type} {fault? later? : Option MappingError} {answer : Except MappingError α}

/-- Of two computations in a row the first that fails gives the error. -/
theorem bind {next : α → Except MappingError β} (h : FailsWith fault? answer)
    (hnext : ∀ a, FailsWith later? (next a)) : FailsWith (fault?.or later?) (answer >>= next) := by
  cases fault? with
  | none =>
    obtain ⟨a, rfl⟩ := h
    exact hnext a
  | some e =>
    obtain rfl : answer = .error e := h
    rfl

theorem error_iff (h : FailsWith fault? answer) (e : MappingError) :
    answer = .error e ↔ fault? = some e := by
  cases fault? with
  | none =>
    obtain ⟨a, rfl⟩ := h
    simp
  | some fault =>
    obtain rfl : answer = .error fault := h
    simp

end FailsWith

namespace RowMapper

variable {E : Type}

mutual

/-- The columns that a mapping looks up, in order, with the properties they are for. -/
def readings : RowMapper E → List Reading
  | mk metadata nested => metadata.simple.map (.own metadata.typeName) ++ nestedReadings nested

def nestedReadings : List (NestedProperty × RowMapper E) → List Reading
  | [] => []
  | (property, mapper) :: rest => (readings mapper).map (.below property) ++ nestedReadings rest

end

theorem readings_eq (mapper : RowMapper E) : mapper.readings =
    mapper.metadata.simple.map (.own mapper.metadata.typeName) ++ nestedReadings mapper.nested := by
  cases mapper
  rfl

theorem mem_nestedReadings {nested : List (NestedProperty × RowMapper E)} {reading : Reading} :
    reading ∈ nestedReadings nested ↔
      ∃ entry ∈ nested, ∃ inner ∈ entry.2.readings, inner.below entry.1 = reading := by
  induction nested with
  | nil => simp [nestedReadings]
  | cons entry rest ih =>
    obtain ⟨property, mapper⟩ := entry
    simp [nestedReadings, ih]

/-- The readings of a mapper are the properties of the entities in its tree. -/
theorem mem_readings (mapper : RowMapper E) : ∀ {reading : Reading}, reading ∈ mapper.readings ↔
    ∃ inner, Within mapper reading.path inner ∧ reading.property ∈ inner.metadata.simple ∧
      reading.entity = inner.metadata.typeName := by
  induction mapper using tree_induction with
  | node mapper ih =>
    intro reading
    rw [readings_eq, List.mem_append, List.mem_map, mem_nestedReadings]
    constructor
    · rintro (⟨property, hproperty, rfl⟩ | ⟨entry, hentry, inner, hinner, rfl⟩)
      · exact ⟨mapper, .root mapper, hproperty, rfl⟩
      · obtain ⟨declaring, hwithin, hproperty, hentity⟩ := (ih entry hentry).1 hinner
        exact ⟨declaring, .inside hentry hwithin, hproperty, hentity⟩
    · obtain ⟨path, entity, property⟩ := reading
      rintro ⟨declaring, hwithin, hproperty, rfl⟩
      cases hwithin with
      | root => exact .inl ⟨property, hproperty, rfl⟩
      | @inside _ _ entry path hentry hwithin =>
        refine .inr ⟨entry, hentry, ⟨path, declaring.metadata.typeName, property⟩, ?_, rfl⟩
        exact (ih entry hentry).2 ⟨declaring, hwithin, hproperty, rfl⟩

theorem name_nestedReadings {nested : List (NestedProperty × RowMapper E)}
    (h : ∀ entry ∈ nested, entry.2.readings.map Reading.name = entry.2.lookups.map Lookup.name) :
    (nestedReadings nested).map Reading.name = (nestedLookups nested).map Lookup.name := by
  induction nested with
  | nil => rfl
  | cons entry rest ih =>
    obtain ⟨property, mapper⟩ := entry
    rw [List.forall_mem_cons] at h
    have hreadings : Reading.name ∘ Reading.below property =
        (property.name ++ "." ++ ·) ∘ Reading.name := funext fun _ => Reading.name_below _ _
    have hlookups : Lookup.name ∘ Lookup.below property =
        (property.name ++ "." ++ ·) ∘ Lookup.name := funext fun _ => Lookup.name_below _ _
    rw [nestedReadings, nestedLookups, List.map_append, List.map_append, List.map_map, List.map_map,
      hreadings, hlookups, ← List.map_map, ← List.map_map, h.1, ih h.2]

/-- The names of the readings are those that are looked up, in the same order. -/
theorem name_readings (mapper : RowMapper E) :
    mapper.readings.map Reading.name = mapper.lookups.map Lookup.name := by
  induction mapper using tree_induction with
  | node mapper ih =>
    have hnested := name_nestedReadings ih
    obtain ⟨metadata, nested⟩ := mapper
    have hown : (metadata.simple.map (Reading.own metadata.typeName)).map Reading.name =
        (metadata.columnNames.map Lookup.own).map Lookup.name := by
      simp [EntityMetadata.columnNames]
    rw [readings, lookups, List.map_append, List.map_append, hown]
    exact congrArg _ hnested

section Steps

variable {metadata : EntityMetadata E} {view : RowView}

/-- Storing one property fails with the fault of its reading. -/
theorem failsWith_mapProperty (property : SimpleProperty) (target : Option Instance) :
    FailsWith ((Reading.own metadata.typeName property).fault? view)
      (mapProperty metadata view target property) := by
  unfold Reading.fault?
  rw [Reading.name_own]
  cases hcell : view.cell? property.column with
  | none => exact ⟨target, mapProperty_of_none hcell target⟩
  | some cell =>
    rw [mapProperty_of_cell hcell]
    dsimp only [Reading.own]
    cases property.fromCell cell with
    | ok held => exact ⟨_, rfl⟩
    | error cause => rfl

theorem failsWith_mapSimple (properties : List SimpleProperty) (target : Option Instance) :
    FailsWith ((properties.map (.own metadata.typeName)).findSome? (Reading.fault? view))
      (mapSimple metadata view properties target) := by
  induction properties generalizing target with
  | nil => exact ⟨target, rfl⟩
  | cons property rest ih =>
    rw [List.map_cons, ← List.singleton_append, List.findSome?_append, List.findSome?_singleton]
    exact (failsWith_mapProperty property target).bind ih

theorem failsWith_mapNested {blank : Instance} {nested : List (NestedProperty × RowMapper E)}
    (h : ∀ entry ∈ nested, ∀ view, FailsWith (entry.2.readings.findSome? (Reading.fault? view))
      (entry.2.mapView view)) (target : Option Instance) :
    FailsWith ((nestedReadings nested).findSome? (Reading.fault? view))
      (mapNested blank nested view target) := by
  induction nested generalizing target with
  | nil => exact ⟨target, rfl⟩
  | cons entry rest ih =>
    obtain ⟨property, mapper⟩ := entry
    rw [List.forall_mem_cons] at h
    have hbelow : (mapper.readings.map (Reading.below property)).findSome? (Reading.fault? view) =
        mapper.readings.findSome? (Reading.fault? (view.under property.name)) := by
      rw [List.findSome?_map]
      congr 1
      funext reading
      exact reading.fault?_below view property
    rw [nestedReadings, List.findSome?_append, hbelow, mapNested]
    refine (h.1 _).bind fun found => ?_
    cases found with
    | none => exact ih h.2 _
    | some child => exact ih h.2 _

end Steps

/-- A mapping fails with the first fault of its readings. -/
theorem failsWith_mapView (mapper : RowMapper E) : ∀ view : RowView,
    FailsWith (mapper.readings.findSome? (Reading.fault? view)) (mapper.mapView view) := by
  induction mapper using tree_induction with
  | node mapper ih =>
    intro view
    rw [readings_eq, List.findSome?_append, mapView_eq]
    exact (failsWith_mapSimple _ _).bind (failsWith_mapNested ih)

theorem failsWith_mapRow (mapper : RowMapper E) (view : RowView) :
    FailsWith (mapper.readings.findSome? (Reading.fault? view)) (mapper.mapRow view) := by
  rw [← Option.or_none (o := List.findSome? _ _)]
  exact (mapper.failsWith_mapView view).bind fun _ => ⟨_, rfl⟩

theorem findSome?_fault?_isSome {readings : List Reading} {view : RowView} :
    (∃ e, readings.findSome? (Reading.fault? view) = some e) ↔
      ∃ reading ∈ readings, ∃ cell cause,
        view.cell? reading.name = some cell ∧ reading.property.Refuses cell cause := by
  rw [← Option.isSome_iff_exists, List.findSome?_isSome_iff]
  simp only [Option.isSome_iff_exists, Reading.fault?_eq_some]
  grind

/-- A row cannot be mapped exactly if some column that is looked up is present and not null and is
refused by its converter or by the type of its property. The error is that of the first such column
in the order of the lookups, inside the names of its property, of the column and of the entity type
that declares the property, and inside nothing else; unless the type of the property is one of its
own, the conversion itself names no property. -/
theorem mapRow_error_iff (mapper : RowMapper E) (view : RowView) :
    mapper.readings.map Reading.name = mapper.lookups.map Lookup.name ∧
    (∀ reading, reading ∈ mapper.readings ↔ ∃ inner, Within mapper reading.path inner ∧
      reading.property ∈ inner.metadata.simple ∧ reading.entity = inner.metadata.typeName) ∧
    ((∃ e, mapper.mapRow view = .error e) ↔ ∃ reading ∈ mapper.readings, ∃ cell cause,
      view reading.name = some cell ∧ cell.isNull = false ∧ reading.property.Refuses cell cause) ∧
    ∀ e, mapper.mapRow view = .error e ↔ ∃ before reading after cell cause,
      mapper.readings = before ++ reading :: after ∧
      (∀ earlier ∈ before, ∀ cell, view earlier.name = some cell → cell.isNull = false →
        ¬ ∃ cause, earlier.property.Refuses cell cause) ∧
      view reading.name = some cell ∧ cell.isNull = false ∧
      reading.property.Refuses cell cause ∧
      ((∀ codec, reading.property.type.native ≠ .custom codec) → cause.IsConversion) ∧
      e = .property reading.entity reading.property.name reading.property.column cause := by
  have hfails := mapper.failsWith_mapRow view
  refine ⟨mapper.name_readings, fun reading => mapper.mem_readings, ?_, fun e => ?_⟩
  · simp only [hfails.error_iff, findSome?_fault?_isSome, RowView.cell?_eq_some, and_assoc]
  · rw [hfails.error_iff, List.findSome?_eq_some_iff]
    simp only [Reading.fault?_eq_some, Reading.fault?_eq_none, RowView.cell?_eq_some, and_imp]
    constructor
    · rintro ⟨before, reading, after, hreadings, ⟨cell, cause, ⟨hcolumn, hnull⟩, hrefuses, rfl⟩, hbefore⟩
      exact ⟨before, reading, after, cell, cause, hreadings, hbefore, hcolumn, hnull, hrefuses,
        hrefuses.isConversion, rfl⟩
    · rintro ⟨before, reading, after, cell, cause, hreadings, hbefore, hcolumn, hnull, hrefuses, -, rfl⟩
      exact ⟨before, reading, after, hreadings, ⟨cell, cause, ⟨hcolumn, hnull⟩, hrefuses, rfl⟩,
        hbefore⟩

end RowMapper

end ObjectRelational
