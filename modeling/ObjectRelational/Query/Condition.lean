import ObjectRelational.Query.Statement

/-!
# Conditions

Conditions on a column: a comparison, membership in a list, or a test for null. Parameters are
numbered on through a statement: `p` with the number of the parameter for a comparison, and with the
number of the first and the place in the list for membership.
-/

namespace ObjectRelational

set_option autoImplicit false

inductive Comparison where
  | eq
  | ne
  | lt
  | le
  | gt
  | ge
  | like
  deriving DecidableEq, Repr

namespace Comparison

def sql : Comparison → String
  | .eq => "="
  | .ne => "<>"
  | .lt => "<"
  | .le => "<="
  | .gt => ">"
  | .ge => ">="
  | .like => "LIKE"

end Comparison

/-- What a condition asks of its column. -/
inductive ColumnTest where
  | compare (comparison : Comparison) (value : Value)
  | oneOf (items : List Value)
  | isNull
  | isNotNull

namespace ColumnTest

/-- Membership in the items of an array; any other value is a list of its own. -/
def memberOf : Value → ColumnTest
  | .array items => .oneOf items
  | value => .oneOf [value]

end ColumnTest

/-- A test of a column of the root table, or of another table by its alias. The type of the column,
if given, says by which converter values are bound. -/
structure Condition where
  column : String
  test : ColumnTest
  alias? : Option String
  type? : Option TypeToken

namespace Condition

def ofTest (column : String) (test : ColumnTest) : Condition :=
  ⟨column, test, none, none⟩

def equals (column : String) (value : Value) : Condition :=
  ofTest column (.compare .eq value)

def oneOf (column : String) (items : List Value) : Condition :=
  ofTest column (.oneOf items)

def withType (condition : Condition) (token : TypeToken) : Condition :=
  { condition with type? := some token }

def on (condition : Condition) (tableAlias : String) : Condition :=
  { condition with alias? := some tableAlias }

/-! ## Rendering -/

def numberText (n : Nat) : String :=
  String.ofList (Text.digits n)

/-- The name of the parameter that follows a number of others. -/
def parameterName (taken : Nat) : String :=
  "p" ++ numberText (taken + 1)

/-- The name of the parameter of an item, in a list that follows a number of parameters. -/
def itemName (taken index : Nat) : String :=
  parameterName taken ++ "_" ++ numberText index

/-- Binds the items of a list, counted on from `index`. -/
def bindItems (converter : Option Converter) (taken : Nat) :
    Nat → List Value → Except MappingError (List (String × Parameter))
  | _, [] => .ok []
  | index, item :: rest => do
      let bound ← bindValue converter (itemName taken index) item
      return bound :: (← bindItems converter taken (index + 1) rest)

/-- A test of a column after a number of parameters, and the parameters it adds. Membership in an
empty list is never true. -/
def testSql (column : Sql) (converter : Option Converter) (taken : Nat) :
    ColumnTest → Except MappingError (Sql × List Parameter)
  | .isNull => .ok (column ++ [.text " IS NULL"], [])
  | .isNotNull => .ok (column ++ [.text " IS NOT NULL"], [])
  | .oneOf [] => .ok ([.text "1 = 0"], [])
  | .oneOf items => do
      let bound ← bindItems converter taken 0 items
      let placeholders := bound.map fun (placeholder, _) => [SqlPiece.text placeholder]
      return (column ++ .text " IN (" :: Sql.separated ", " placeholders ++ [.text ")"],
        bound.map Prod.snd)
  | .compare comparison value => do
      let (placeholder, parameter) ← bindValue converter (parameterName taken) value
      return (column ++ [.text (" " ++ comparison.sql ++ " "), .text placeholder], [parameter])

/-- The SQL of a condition in a statement on a root table. The converter of the column's type is
looked up also where no value is bound. -/
def render (condition : Condition) (root : String) (taken : Nat) :
    Rendering (Sql × List Parameter) := do
  let converter ← match condition.type? with
    | some token => some <$> Rendering.converterFor token
    | none => pure none
  let column := Sql.qualified (condition.alias?.getD root) condition.column
  Rendering.converted (testSql column converter taken condition.test)

/-- The SQL of some conditions, one after the other. -/
def renderAll (root : String) (taken : Nat) :
    List Condition → Rendering (List Sql × List Parameter)
  | [] => pure ([], [])
  | condition :: rest => do
      let (sql, parameters) ← condition.render root taken
      let (sqls, others) ← renderAll root (taken + parameters.length) rest
      return (sql :: sqls, parameters ++ others)

end Condition

end ObjectRelational
