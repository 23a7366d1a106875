import ObjectRelational.Entity.Declaration

/-!
# Row mappers

The metadata of an entity type: its column-backed properties with their columns and converters, and
the mappers of its nested objects. A mapper gives the selection that reads its columns, with a join
for every nested object that declares one.
-/

namespace ObjectRelational

set_option autoImplicit false

/-- A column-backed property with its converter. -/
structure SimpleProperty where
  name : String
  slot : String
  column : String
  type : ColumnType
  optional : Bool
  converter : Converter

/-- A nested property apart from the mapper of its objects. -/
structure NestedProperty where
  name : String
  slot : String
  join? : Option JoinDecl
  deriving DecidableEq, Repr

/-- What is known of an entity type but its nested objects. -/
structure EntityMetadata (E : Type) where
  entity : E
  /-- The short name of the entity type. -/
  typeName : String
  table : String
  idProperty : String
  simple : List SimpleProperty
  associations : List (AssociationDecl E)
  blank : Instance

inductive RowMapper (E : Type) where
  | mk (metadata : EntityMetadata E) (nested : List (NestedProperty × RowMapper E))

namespace SimpleProperty

/-- The canonical value of a property. -/
def get (property : SimpleProperty) (object : Instance) : Except MappingError Value :=
  let held := object.column property.slot
  if property.optional then property.type.writeOptional held else property.type.write held

/-- What a property holds for what a converter has read. -/
def accept (property : SimpleProperty) (value : Value) : Except MappingError Value :=
  if property.optional then property.type.readOptional value else property.type.read value

def set (property : SimpleProperty) (object : Instance) (value : Value) :
    Except MappingError Instance := do
  return object.withColumn property.slot (← property.accept value)

end SimpleProperty

namespace EntityMetadata

variable {E : Type}

def simpleProperty? (metadata : EntityMetadata E) (name : String) : Option SimpleProperty :=
  metadata.simple.find? fun property => property.name = name

def association? (metadata : EntityMetadata E) (name : String) : Option (AssociationDecl E) :=
  metadata.associations.find? fun association => association.property = name

/-- The identifier property. -/
def id (metadata : EntityMetadata E) : Except ConfigError SimpleProperty :=
  match metadata.simpleProperty? metadata.idProperty with
  | some property => .ok property
  | none => .error (.missingIdProperty metadata.typeName metadata.idProperty)

def columnNames (metadata : EntityMetadata E) : List String :=
  metadata.simple.map SimpleProperty.column

/-- Names the property a conversion failed on. -/
def atProperty {α : Type} (metadata : EntityMetadata E) (property : SimpleProperty) :
    Except MappingError α → Except MappingError α :=
  Except.mapError (.property metadata.typeName property.name property.column)

end EntityMetadata

namespace RowMapper

variable {E : Type}

def metadata : RowMapper E → EntityMetadata E
  | mk metadata _ => metadata

def nested : RowMapper E → List (NestedProperty × RowMapper E)
  | mk _ nested => nested

/-! ## Selecting -/

/-- The path of a property below another path, if there is one. -/
def pathBelow (parent : Option String) (name : String) : String :=
  match parent with
  | some path => Path.column path name
  | none => name

mutual

/-- The joins of a mapper below a path, depth first in the order of declaration. -/
def joins (parent : Option String) : RowMapper E → List Join
  | mk _ nested => nestedJoins parent nested

/-- The joins of some nested properties; below one that declares none there are none. -/
def nestedJoins (parent : Option String) : List (NestedProperty × RowMapper E) → List Join
  | [] => []
  | (property, mapper) :: rest =>
      match property.join? with
      | none => nestedJoins parent rest
      | some join =>
          let path := pathBelow parent property.name
          ⟨join.kind, mapper.metadata.table, path, join.localColumn, join.remoteColumn,
            mapper.metadata.columnNames⟩ :: joins (some path) mapper ++ nestedJoins parent rest

end

/-- The selection of all columns with the declared joins. -/
def select (mapper : RowMapper E) : Select :=
  { Select.ofTable mapper.metadata.table with
    columns := mapper.metadata.columnNames
    joins := joins none mapper }

/-- The columns of some properties. -/
def columnsOf (metadata : EntityMetadata E) : List String → Except ConfigError (List String)
  | [] => .ok []
  | name :: rest =>
      match metadata.simpleProperty? name with
      | some property => do return property.column :: (← columnsOf metadata rest)
      | none => .error (.unknownProperty metadata.typeName name)

/-- The selection of some properties only, without joins. -/
def selectProperties (mapper : RowMapper E) (names : List String) : Except ConfigError Select := do
  return (Select.ofTable mapper.metadata.table).withColumns (← columnsOf mapper.metadata names)

end RowMapper

end ObjectRelational
