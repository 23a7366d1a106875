import ObjectRelational.Query.Statement

/-!
# Insertions

An insertion binds values to the columns of one new row. A value is bound as it is, by the converter
of its type, or has been bound already.
-/

namespace ObjectRelational

set_option autoImplicit false

/-- How the value of a column is bound. -/
inductive Binding where
  | plain (value : Value)
  | typed (value : Value) (token : TypeToken)
  | bound (placeholder : String) (value : Value)

structure Assignment where
  column : String
  parameter : String
  binding : Binding

structure Insert where
  table : String
  assignments : List Assignment

namespace Insert

def ofTable (table : String) : Insert :=
  ⟨table, []⟩

def isEmpty (insert : Insert) : Bool :=
  insert.assignments.isEmpty

def assign (insert : Insert) (assignment : Assignment) : Insert :=
  { insert with assignments := insert.assignments ++ [assignment] }

/-- Binds a value as it is, to a parameter named after the column. -/
def value (insert : Insert) (column : String) (value : Value) : Insert :=
  insert.assign ⟨column, column, .plain value⟩

/-- Binds a value by the converter of its type, to a parameter named after the column. -/
def typed (insert : Insert) (column : String) (value : Value) (token : TypeToken) : Insert :=
  insert.assign ⟨column, column, .typed value token⟩

/-- Takes over a value that has been bound. -/
def bound (insert : Insert) (column parameter placeholder : String) (value : Value) : Insert :=
  insert.assign ⟨column, parameter, .bound placeholder value⟩

/-! ## Rendering -/

/-- The placeholder and parameter of an assignment. -/
def bindAssignment (assignment : Assignment) : Rendering (String × Parameter) :=
  match assignment.binding with
  | .plain value => Rendering.converted (bindValue none assignment.parameter value)
  | .typed value token => do
      let converter ← Rendering.converterFor token
      Rendering.converted (bindValue (some converter) assignment.parameter value)
  | .bound placeholder value => pure (placeholder, ⟨assignment.parameter, value⟩)

def bindAll : List Assignment → Rendering (List (String × Parameter))
  | [] => pure []
  | assignment :: rest => do
      let bound ← bindAssignment assignment
      return bound :: (← bindAll rest)

/-- The SQL of an insertion with its placeholders; without columns the row has its defaults. -/
def sql (insert : Insert) (placeholders : List String) : Sql :=
  match insert.assignments with
  | [] => [.text "INSERT INTO ", .name insert.table, .text " DEFAULT VALUES"]
  | assignments =>
      [.text "INSERT INTO ", .name insert.table, .text " ("]
        ++ Sql.separated ", " (assignments.map fun assignment => [.name assignment.column])
        ++ .text ") VALUES (" :: Sql.separated ", " (placeholders.map fun p => [.text p])
        ++ [.text ")"]

/-- The statement of an insertion. -/
def render (insert : Insert) : Rendering Statement := do
  let bound ← bindAll insert.assignments
  Rendering.statement (insert.sql (bound.map Prod.fst)) (bound.map Prod.snd)

end Insert

end ObjectRelational
