import ObjectRelational.Mapping.RowMapper

/-!
# Mapping rows to instances

Column-backed properties read their columns, nested objects the columns below their names. An absent
or null cell stores nothing, and an object that nothing is stored in does not come into being; only
the object of the row itself always does.
-/

namespace ObjectRelational

set_option autoImplicit false

namespace RowMapper

variable {E : Type}

/-- Stores the cell of a property, unless it is absent or null. -/
def mapProperty (metadata : EntityMetadata E) (view : RowView) (target : Option Instance)
    (property : SimpleProperty) : Except MappingError (Option Instance) := do
  match ← metadata.atProperty property (property.converter.readColumn view property.column) with
  | none => return target
  | some value =>
      if value.isNull then return target
      else
        some <$> metadata.atProperty property (property.set (target.getD metadata.blank) value)

def mapSimple (metadata : EntityMetadata E) (view : RowView) :
    List SimpleProperty → Option Instance → Except MappingError (Option Instance)
  | [], target => .ok target
  | property :: rest, target => do
      mapSimple metadata view rest (← mapProperty metadata view target property)

mutual

/-- The object a view holds, if any cell stores something in it. -/
def mapView : RowMapper E → RowView → Except MappingError (Option Instance)
  | mk metadata nested, view => do
      let target ← mapSimple metadata view metadata.simple none
      mapNested metadata.blank nested view target

/-- Stores the nested objects of a view. -/
def mapNested (blank : Instance) :
    List (NestedProperty × RowMapper E) → RowView → Option Instance →
      Except MappingError (Option Instance)
  | [], _, target => .ok target
  | (property, mapper) :: rest, view, target => do
      match ← mapView mapper (view.under property.name) with
      | none => mapNested blank rest view target
      | some child =>
          mapNested blank rest view (some ((target.getD blank).withNested property.slot child))

end

/-- The object of a row. -/
def mapRow (mapper : RowMapper E) (view : RowView) : Except MappingError Instance := do
  return (← mapper.mapView view).getD mapper.metadata.blank

end RowMapper

end ObjectRelational
