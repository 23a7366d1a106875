import ObjectRelational.ColumnType.Token
import ObjectRelational.Table

/-!
# Type registries

Which types a dialect stores as named enumerations, as composites and as documents. Types are known
by the names of their tokens.
-/

namespace ObjectRelational

set_option autoImplicit false

structure Registry where
  enums : Table String String
  composites : Table String String
  documents : List String
  deriving DecidableEq, Repr

namespace Registry

def empty : Registry := ⟨[], [], []⟩

/-- The database type of an enumeration. -/
def enumType? (registry : Registry) (token : TypeToken) : Option String :=
  registry.enums.get? token.name

/-- The database type of a composite. -/
def compositeType? (registry : Registry) (token : TypeToken) : Option String :=
  registry.composites.get? token.name

def isDocument (registry : Registry) (token : TypeToken) : Bool :=
  token.name ∈ registry.documents

def registerEnum (registry : Registry) (token : TypeToken) (databaseType : String) : Registry :=
  { registry with enums := registry.enums.put token.name databaseType }

def registerComposite (registry : Registry) (token : TypeToken) (databaseType : String) :
    Registry :=
  { registry with composites := registry.composites.put token.name databaseType }

def registerDocument (registry : Registry) (token : TypeToken) : Registry :=
  { registry with documents := token.name :: registry.documents }

/-- Records a database type for an enumeration that has none. -/
def rememberEnum (registry : Registry) (token : TypeToken) (databaseType : String) : Registry :=
  { registry with enums := registry.enums.putNew token.name databaseType }

end Registry

end ObjectRelational
