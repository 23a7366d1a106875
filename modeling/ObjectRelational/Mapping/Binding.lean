import ObjectRelational.Mapping.RowMapper
import ObjectRelational.Query.Insert

/-!
# Binding instances

The column-backed properties of an instance as bound values with their placeholders, and the
insertion that writes them.
-/

namespace ObjectRelational

set_option autoImplicit false

/-- The value of a property as it is bound. -/
structure BoundValue where
  property : String
  column : String
  placeholder : String
  value : Value

namespace RowMapper

variable {E : Type}

def bindProperty (metadata : EntityMetadata E) (object : Instance) (property : SimpleProperty) :
    Except MappingError BoundValue := do
  let value ← metadata.atProperty property do
    property.converter.write (← property.get object)
  return ⟨property.name, property.column, property.converter.placeholder property.name, value⟩

def bindProperties (metadata : EntityMetadata E) (object : Instance) :
    List SimpleProperty → Except MappingError (List BoundValue)
  | [] => .ok []
  | property :: rest => do
      let bound ← bindProperty metadata object property
      return bound :: (← bindProperties metadata object rest)

/-- The bound values of an instance in the order of declaration. -/
def bind (mapper : RowMapper E) (object : Instance) : Except MappingError (List BoundValue) :=
  bindProperties mapper.metadata object mapper.metadata.simple

/-- The insertion of some bound values; every parameter is named after its property. -/
def insertion (mapper : RowMapper E) (bound : List BoundValue) : Insert :=
  bound.foldl (fun insert b => insert.bound b.column b.property b.placeholder b.value)
    (.ofTable mapper.metadata.table)

end RowMapper

end ObjectRelational
