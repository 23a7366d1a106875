import ObjectRelational.ColumnType.Token

/-!
# One-to-many associations

What an association declares: the property that holds the collection, the child entity, the child's
property that refers to the parent, and the child properties to fetch.
-/

namespace ObjectRelational

set_option autoImplicit false

structure AssociationDescriptor where
  property : String
  /-- The child's property with the parent's identifier. -/
  foreignKey? : Option String
  /-- The child properties to fetch; without any all are fetched. -/
  columns : List String
  child : TypeToken
  childTable : String
  deriving DecidableEq, Repr

namespace AssociationDescriptor

/-- The properties to fetch, none standing for all. The foreign key is always among them, since
children are told apart by it. -/
def fetchProperties (descriptor : AssociationDescriptor) : Option (List String) :=
  if descriptor.columns = [] then none
  else
    match descriptor.foreignKey? with
    | some key =>
        if key ∈ descriptor.columns then some descriptor.columns
        else some (descriptor.columns ++ [key])
    | none => some descriptor.columns

end AssociationDescriptor

end ObjectRelational
