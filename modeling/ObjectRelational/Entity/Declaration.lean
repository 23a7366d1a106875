import ObjectRelational.Association.Descriptor
import ObjectRelational.ColumnType.Native
import ObjectRelational.Entity.Instance
import ObjectRelational.Query.Select

/-!
# Entity declarations

An entity type declares its table, its properties and its associations. A property is backed by a
column or is a nested object of another entity type, and it addresses one slot of the instances. A
schema is a finite set of entity types with their declarations; entity types are the elements of a
type of names `E`.
-/

namespace ObjectRelational

set_option autoImplicit false

/-- How the table of a nested object is joined: the columns of the enclosing and of the joined
table that must agree. -/
structure JoinDecl where
  kind : JoinKind
  localColumn : String
  remoteColumn : String
  deriving DecidableEq, Repr

inductive PropertyKind (E : Type) where
  /-- A column of a type, which may hold null if it is optional. -/
  | column (type : ColumnType) (optional : Bool)
  | nested (entity : E)

structure PropertyDecl (E : Type) where
  name : String
  slot : String
  /-- The name of the column, if it does not follow the naming convention. -/
  column? : Option String
  join? : Option JoinDecl
  kind : PropertyKind E

structure AssociationDecl (E : Type) where
  property : String
  /-- The slot of the collection. -/
  slot : String
  child : E
  foreignKey? : Option String
  columns : List String

structure EntityDecl (E : Type) where
  /-- The full name of the entity type. -/
  typeName : String
  table : String
  idProperty : String
  properties : List (PropertyDecl E)
  associations : List (AssociationDecl E)
  /-- An instance as it is before anything is stored in it. -/
  blank : Instance

/-- Finitely many entity types with their declarations. -/
structure Schema (E : Type) where
  entities : List E
  complete : ∀ entity : E, entity ∈ entities
  declaration : E → EntityDecl E

/-! ## Declaring -/

namespace PropertyDecl

variable {E : Type}

/-- A property that always has a value. -/
def field (slot : String) (type : ColumnType) (name : String) : PropertyDecl E :=
  ⟨name, slot, none, none, .column type false⟩

/-- A property that may be null. -/
def optional (slot : String) (type : ColumnType) (name : String) : PropertyDecl E :=
  ⟨name, slot, none, none, .column type true⟩

/-- A nested object. -/
def nested (slot : String) (entity : E) (name : String) : PropertyDecl E :=
  ⟨name, slot, none, none, .nested entity⟩

def inColumn (property : PropertyDecl E) (column : String) : PropertyDecl E :=
  { property with column? := some column }

/-- Joins the table of a nested object whenever the entity is selected. -/
def joined (property : PropertyDecl E) (kind : JoinKind) (localColumn remoteColumn : String) :
    PropertyDecl E :=
  { property with join? := some ⟨kind, localColumn, remoteColumn⟩ }

end PropertyDecl

namespace EntityDecl

variable {E : Type}

/-- An instance whose fields have their initial values, without optional values, nested objects
and children. -/
def blankOf (properties : List (PropertyDecl E)) : Instance :=
  properties.foldl (fun object property =>
    match property.kind with
    | .column type false => object.withColumn property.slot type.native.initial
    | _ => object) .empty

/-- A declaration with the blank instance of its properties. -/
def ofProperties (typeName table idProperty : String) (properties : List (PropertyDecl E))
    (associations : List (AssociationDecl E)) : EntityDecl E :=
  ⟨typeName, table, idProperty, properties, associations, blankOf properties⟩

/-- The token of an entity type. -/
def token (declaration : EntityDecl E) : TypeToken :=
  ⟨declaration.typeName, .structured, none⟩

def shortName (declaration : EntityDecl E) : String :=
  declaration.token.shortName

end EntityDecl

namespace AssociationDecl

variable {E : Type}

def descriptor (association : AssociationDecl E) (schema : Schema E) : AssociationDescriptor where
  property := association.property
  foreignKey? := association.foreignKey?
  columns := association.columns
  child := (schema.declaration association.child).token
  childTable := (schema.declaration association.child).table

end AssociationDecl

end ObjectRelational
