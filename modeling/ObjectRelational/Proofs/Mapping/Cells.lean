import Mathlib.Data.List.Nodup
import ObjectRelational.Mapping.Reading
import ObjectRelational.Proofs.Converter.Null

/-! # Cells and properties

A property is stored from its cell. A cell that is absent or null stores nothing, whatever the
converter, because converters take null to null and nothing else to null.

* `RowView.cell?`: the cells that count;
* `SimpleProperty.Shows`: a property holds what its cell says, or what it held by default;
* `RowMapper.mapProperty_of_none`, `RowMapper.mapProperty_of_cell`: what storing one property does;
* `RowMapper.shows_of_alone`: what storing all properties of one object does.
-/

namespace ObjectRelational

set_option autoImplicit false

/-! ## Cells -/

/-- The cell of a column, unless it is absent or null. -/
def RowView.cell? (view : RowView) (column : String) : Option Value :=
  (view column).filter fun cell => !cell.isNull

theorem RowView.cell?_eq_some {view : RowView} {column : String} {cell : Value} :
    view.cell? column = some cell ↔ view column = some cell ∧ cell.isNull = false := by
  simp [cell?, Option.filter_eq_some_iff]

/-! ## One property -/

namespace SimpleProperty

def fromCell (property : SimpleProperty) (cell : Value) : Except MappingError Value :=
  (property.converter.read cell).bind property.accept

/-- A property of an object holds what a cell says; without a cell it is as in another object. -/
def Shows (property : SimpleProperty) (cell? : Option Value) (initial object : Instance) : Prop :=
  match cell? with
  | some cell => property.fromCell cell = .ok (object.column property.slot)
  | none => object.column property.slot = initial.column property.slot

end SimpleProperty

namespace RowMapper

variable {E : Type} {metadata : EntityMetadata E} {view : RowView}

theorem atProperty_ok {α : Type} {property : SimpleProperty} {result : Except MappingError α} {a : α}
    (h : metadata.atProperty property result = .ok a) : result = .ok a := by
  cases result <;> cases h
  rfl

theorem mapProperty_of_none {property : SimpleProperty} (h : view.cell? property.column = none)
    (target : Option Instance) : mapProperty metadata view target property = .ok target := by
  unfold mapProperty Converter.readColumn
  cases hcolumn : view property.column with
  | none => rfl
  | some stored =>
    have hnull : stored.isNull = true := by simpa [RowView.cell?, hcolumn] using h
    dsimp only
    rw [Converter.read_of_isNull hnull]
    rfl

/-- A cell that counts is stored as its property takes it, or refused in the name of the property. -/
theorem mapProperty_of_cell {property : SimpleProperty} {cell : Value}
    (h : view.cell? property.column = some cell) (target : Option Instance) :
    mapProperty metadata view target property =
      (metadata.atProperty property (property.fromCell cell)).map fun held =>
        some ((target.getD metadata.blank).withColumn property.slot held) := by
  obtain ⟨hcolumn, hnull⟩ := RowView.cell?_eq_some.1 h
  unfold mapProperty Converter.readColumn SimpleProperty.fromCell
  rw [hcolumn]
  dsimp only
  cases hread : property.converter.read cell with
  | error cause => rfl
  | ok value =>
    change (if value.isNull then _ else some <$> metadata.atProperty property
      (property.accept value >>= fun held => pure (Instance.withColumn _ property.slot held))) = _
    rw [Converter.isNull_of_read hread hnull]
    change _ = (metadata.atProperty property (property.accept value)).map _
    cases property.accept value <;> rfl

/-- A cell that counts is stored as its property takes it, and any other changes nothing. -/
theorem mapProperty_ok {property : SimpleProperty} {target target' : Option Instance}
    (h : mapProperty metadata view target property = .ok target') :
    (view.cell? property.column = none ∧ target' = target) ∨
    ∃ cell value, view.cell? property.column = some cell ∧ property.fromCell cell = .ok value ∧
      target' = some ((target.getD metadata.blank).withColumn property.slot value) := by
  cases hcell : view.cell? property.column with
  | none =>
    rw [mapProperty_of_none hcell] at h
    cases h
    exact .inl ⟨rfl, rfl⟩
  | some cell =>
    rw [mapProperty_of_cell hcell] at h
    obtain ⟨value, hvalue, rfl⟩ := Composite.map_eq_ok h
    exact .inr ⟨cell, value, rfl, atProperty_ok hvalue, rfl⟩

/-! ## All properties of an object -/

theorem mapSimple_eq_none {properties : List SimpleProperty} {target target' : Option Instance}
    (h : mapSimple metadata view properties target = .ok target') :
    target' = none ↔ target = none ∧ ∀ property ∈ properties, view.cell? property.column = none := by
  induction properties generalizing target with
  | nil =>
    cases h
    simp
  | cons property rest ih =>
    obtain ⟨next, hproperty, hrest⟩ := except_bind_ok h
    rw [ih hrest, List.forall_mem_cons]
    obtain ⟨hcell, rfl⟩ | ⟨cell, value, hcell, -, rfl⟩ := mapProperty_ok hproperty
    · simp [hcell]
    · simp [hcell]

theorem nested?_mapSimple {properties : List SimpleProperty} {target target' : Option Instance}
    (h : mapSimple metadata view properties target = .ok target') (slot : String) :
    (target'.getD metadata.blank).nested? slot = (target.getD metadata.blank).nested? slot := by
  induction properties generalizing target with
  | nil =>
    cases h
    rfl
  | cons property rest ih =>
    obtain ⟨next, hproperty, hrest⟩ := except_bind_ok h
    rw [ih hrest]
    obtain ⟨-, rfl⟩ | ⟨cell, value, -, -, rfl⟩ := mapProperty_ok hproperty
    · rfl
    · simp

/-- A slot is left as it is if none of the properties with it has a cell that counts. -/
theorem column_mapSimple_of_none {properties : List SimpleProperty}
    {target target' : Option Instance}
    (h : mapSimple metadata view properties target = .ok target') {slot : String}
    (hnone : ∀ property ∈ properties, property.slot = slot → view.cell? property.column = none) :
    (target'.getD metadata.blank).column slot = (target.getD metadata.blank).column slot := by
  induction properties generalizing target with
  | nil =>
    cases h
    rfl
  | cons property rest ih =>
    obtain ⟨next, hproperty, hrest⟩ := except_bind_ok h
    rw [List.forall_mem_cons] at hnone
    rw [ih hrest hnone.2]
    obtain ⟨-, rfl⟩ | ⟨cell, value, hcell, -, rfl⟩ := mapProperty_ok hproperty
    · rfl
    · have hne : property.slot ≠ slot := by
        intro hslot
        rw [hnone.1 hslot] at hcell
        cases hcell
      simp [hne]

/-- A property that shares its slot with no other holds what its cell says in the end. -/
theorem shows_of_alone {properties : List SimpleProperty} {target target' : Option Instance}
    (h : mapSimple metadata view properties target = .ok target') {property : SimpleProperty}
    (hmem : property ∈ properties)
    (halone : ∀ other ∈ properties, other.slot = property.slot → other = property) :
    property.Shows (view.cell? property.column) (target.getD metadata.blank)
      (target'.getD metadata.blank) := by
  induction properties generalizing target with
  | nil => cases hmem
  | cons first rest ih =>
    obtain ⟨next, hfirst, hrest⟩ := except_bind_ok h
    rw [List.forall_mem_cons] at halone
    by_cases hlater : property ∈ rest
    · have hshows := ih hrest hlater halone.2
      unfold SimpleProperty.Shows at hshows ⊢
      obtain ⟨-, rfl⟩ | ⟨cell, value, hcell, -, rfl⟩ := mapProperty_ok hfirst
      · exact hshows
      · by_cases hslot : first.slot = property.slot
        · obtain rfl := halone.1 hslot
          rw [hcell] at hshows ⊢
          exact hshows
        · simpa [hslot] using hshows
    · obtain rfl : property = first := (List.mem_cons.1 hmem).resolve_right hlater
      -- No later property has the slot.
      have hkept := column_mapSimple_of_none hrest fun other hother hsame =>
        absurd (halone.2 other hother hsame ▸ hother) hlater
      unfold SimpleProperty.Shows
      rw [hkept]
      obtain ⟨hcell, rfl⟩ | ⟨cell, value, hcell, hvalue, rfl⟩ := mapProperty_ok hfirst
      · rw [hcell]
      · simpa [hcell] using hvalue

/-- If every property has a slot of its own, each holds what its cell says in the end. -/
theorem shows_mapSimple {properties : List SimpleProperty} {target target' : Option Instance}
    (h : mapSimple metadata view properties target = .ok target')
    (hslots : (properties.map SimpleProperty.slot).Nodup) :
    ∀ property ∈ properties,
      property.Shows (view.cell? property.column) (target.getD metadata.blank)
        (target'.getD metadata.blank) :=
  fun _ hmem => shows_of_alone h hmem fun _ hother hslot =>
    List.inj_on_of_nodup_map hslots hother hmem hslot

end RowMapper

end ObjectRelational
