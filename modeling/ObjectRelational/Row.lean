import ObjectRelational.Value.Basic

/-!
# Result rows

A row pairs column names with values. Of several columns of one name the last is found, and a view
below a path finds the columns whose names continue that path after a dot.
-/

namespace ObjectRelational

set_option autoImplicit false

/-- The names of the columns of a result. -/
structure Columns where
  names : List String
  deriving DecidableEq, Repr

namespace Columns

/-- The last position of a name, counted on from `start`. -/
def lastPosition? (name : String) : Nat → List String → Option Nat
  | _, [] => none
  | start, n :: rest =>
      match lastPosition? name (start + 1) rest with
      | some i => some i
      | none => if n = name then some start else none

def position? (columns : Columns) (name : String) : Option Nat :=
  lastPosition? name 0 columns.names

end Columns

/-- How columns of a row are looked up. -/
abbrev RowView : Type := String → Option Value

/-- The columns below a path, found by the part of their names after it. -/
def RowView.under (view : RowView) (path : String) : RowView :=
  fun column => view (path ++ "." ++ column)

/-- A row of a result; there may be more names than values or the other way round. -/
structure Row where
  columns : Columns
  values : List Value

namespace Row

def ofPairs (pairs : List (String × Value)) : Row :=
  ⟨⟨pairs.map Prod.fst⟩, pairs.map Prod.snd⟩

def get? (row : Row) (index : Nat) : Option Value :=
  row.values[index]?

def named? (row : Row) (name : String) : Option Value :=
  (row.columns.position? name).bind row.get?

def view (row : Row) : RowView :=
  row.named?

end Row

end ObjectRelational
