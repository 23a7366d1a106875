import ObjectRelational.Mapping.Binding
import ObjectRelational.Mapping.Reading
import ObjectRelational.Session.Basic

/-!
# Repositories

Reading and writing the instances of a registered entity type.
-/

namespace ObjectRelational.Repository

set_option autoImplicit false

variable {E C : Type} [DecidableEq E]

/-- The mapper of a registered entity type. -/
def mapper (entity : E) : SessionM E C (RowMapper E) := do
  Session.requireRegistered entity
  Session.mapper entity

/-- Maps rows to instances, up to the first that fails. -/
def mapRows (mapper : RowMapper E) : List Row → Except MappingError (List Instance)
  | [] => .ok []
  | row :: rest => do
      let object ← mapper.mapRow row.view
      return object :: (← mapRows mapper rest)

variable [Connection C]

/-- Runs a selection and maps every row. -/
def runSelect (mapper : RowMapper E) (select : Select) : SessionM E C (List Instance) := do
  let statement ← Session.rendering select.render
  let rows ← Session.connected (Connection.query statement)
  Session.converted (mapRows mapper rows)

/-- The instances that a selection reads. -/
def find (entity : E) (select : Select) : SessionM E C (List Instance) := do
  runSelect (← mapper entity) select

/-- All instances of an entity type. -/
def findAll (entity : E) : SessionM E C (List Instance) := do
  let mapper ← mapper entity
  runSelect mapper mapper.select

/-- The first instance with an identifier, which is bound by the converter of its property. -/
def findById (entity : E) (id : Value) : SessionM E C (Option Instance) := do
  let mapper ← mapper entity
  let property ← Session.configured mapper.metadata.id
  let condition := (Condition.equals property.column id).withType property.type.token
  let found ← runSelect mapper ((mapper.select.filter condition).withLimit 1)
  return found.head?

/-- Inserts an instance, every column bound by its converter, and gives the number of affected
rows. -/
def insert (entity : E) (object : Instance) : SessionM E C Nat := do
  let mapper ← mapper entity
  let bound ← Session.converted (mapper.bind object)
  let statement ← Session.rendering (mapper.insertion bound).render
  Session.connected (Connection.execute statement)

end ObjectRelational.Repository
