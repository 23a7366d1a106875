import ObjectRelational.Table
import ObjectRelational.Value.Basic

/-!
# Instances

The state of one object: the values its columns hold, its nested objects and its collections, each
in a named slot. A column that was never set is null, a nested object that was never set is absent,
and a collection that was never set is empty.
-/

namespace ObjectRelational

set_option autoImplicit false

inductive Instance where
  | mk (columns : List (String × Value)) (nested : List (String × Instance))
      (collections : List (String × List Instance))
  deriving Inhabited

namespace Instance

def empty : Instance := mk [] [] []

/-! ## Reading -/

def column : Instance → String → Value
  | mk columns _ _, slot => (Table.get? columns slot).getD .null

def nested? : Instance → String → Option Instance
  | mk _ nested _, slot => Table.get? nested slot

def collection : Instance → String → List Instance
  | mk _ _ collections, slot => (Table.get? collections slot).getD []

/-! ## Changing one slot -/

def withColumn : Instance → String → Value → Instance
  | mk columns nested collections, slot, value =>
      mk (Table.put columns slot value) nested collections

def withNested : Instance → String → Instance → Instance
  | mk columns nested collections, slot, child =>
      mk columns (Table.put nested slot child) collections

def withCollection : Instance → String → List Instance → Instance
  | mk columns nested collections, slot, children =>
      mk columns nested (Table.put collections slot children)

/-- Appends a child to a collection. -/
def pushChild (parent : Instance) (slot : String) (child : Instance) : Instance :=
  parent.withCollection slot (parent.collection slot ++ [child])

/-! ## Reading after changing -/

@[simp]
theorem column_withColumn (i : Instance) (slot other : String) (value : Value) :
    (i.withColumn slot value).column other = if slot = other then value else i.column other := by
  cases i
  simp only [withColumn, column, Table.get?_put]
  split <;> rfl

@[simp]
theorem nested?_withColumn (i : Instance) (slot other : String) (value : Value) :
    (i.withColumn slot value).nested? other = i.nested? other := by
  cases i; rfl

@[simp]
theorem collection_withColumn (i : Instance) (slot other : String) (value : Value) :
    (i.withColumn slot value).collection other = i.collection other := by
  cases i; rfl

@[simp]
theorem column_withNested (i : Instance) (slot other : String) (child : Instance) :
    (i.withNested slot child).column other = i.column other := by
  cases i; rfl

@[simp]
theorem nested?_withNested (i : Instance) (slot other : String) (child : Instance) :
    (i.withNested slot child).nested? other =
      if slot = other then some child else i.nested? other := by
  cases i
  simp only [withNested, nested?, Table.get?_put]

@[simp]
theorem collection_withNested (i : Instance) (slot other : String) (child : Instance) :
    (i.withNested slot child).collection other = i.collection other := by
  cases i; rfl

@[simp]
theorem column_withCollection (i : Instance) (slot other : String) (children : List Instance) :
    (i.withCollection slot children).column other = i.column other := by
  cases i; rfl

@[simp]
theorem nested?_withCollection (i : Instance) (slot other : String) (children : List Instance) :
    (i.withCollection slot children).nested? other = i.nested? other := by
  cases i; rfl

@[simp]
theorem collection_withCollection (i : Instance) (slot other : String)
    (children : List Instance) :
    (i.withCollection slot children).collection other =
      if slot = other then children else i.collection other := by
  cases i
  simp only [withCollection, collection, Table.get?_put]
  split <;> rfl

/-- Of two collections stored in one slot the second counts. -/
@[simp]
theorem withCollection_withCollection (i : Instance) (slot : String)
    (first second : List Instance) :
    (i.withCollection slot first).withCollection slot second = i.withCollection slot second := by
  cases i
  simp only [withCollection, Table.put_put]

end Instance

end ObjectRelational
