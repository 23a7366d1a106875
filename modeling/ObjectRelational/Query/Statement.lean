import ObjectRelational.Dialect.Chain

/-!
# Statements

A statement is SQL with named parameters. Its text is put together from pieces: names, which are
quoted, and text, which is not. Putting a statement together looks up converters, so that it hands
the chain of dialects on.
-/

namespace ObjectRelational

set_option autoImplicit false

structure Parameter where
  name : String
  value : Value

structure Statement where
  sql : String
  parameters : List Parameter

namespace Statement

/-- The value of the first parameter of a name. -/
def parameter? (statement : Statement) (name : String) : Option Value :=
  (statement.parameters.find? fun parameter => parameter.name = name).map Parameter.value

end Statement

/-- A piece of SQL: text as it stands, or a name that is to be quoted. -/
inductive SqlPiece where
  | text (s : String)
  | name (s : String)
  deriving DecidableEq, Repr

abbrev Sql : Type := List SqlPiece

namespace Sql

def pieceChars (mark : Char) : SqlPiece → List Char
  | .text s => s.toList
  | .name s => Text.quoteChars mark s.toList

/-- The characters of some pieces, with names between marks. -/
def chars (mark : Char) (sql : Sql) : List Char :=
  sql.flatMap (pieceChars mark)

/-- The names among some pieces. -/
def names (sql : Sql) : List String :=
  sql.filterMap fun piece =>
    match piece with
    | .name s => some s
    | .text _ => none

/-- Pieces with a separator between them. -/
def separated (separator : String) : List Sql → Sql
  | [] => []
  | [sql] => sql
  | sql :: rest => sql ++ .text separator :: separated separator rest

/-- A column of a table or alias. -/
def qualified (table column : String) : Sql :=
  [.name table, .text ".", .name column]

end Sql

/-- A computation that looks up converters and can fail. -/
abbrev Rendering : Type → Type := EStateM Error Chain

namespace Rendering

/-- The converter of a type that needs a column. -/
def converterFor (token : TypeToken) : Rendering Converter := fun chain =>
  match chain.converterFor token with
  | (.ok converter, chain) => .ok converter chain
  | (.error e, chain) => .error (.config e) chain

/-- The result of a conversion. -/
def converted {α : Type} : Except MappingError α → Rendering α
  | .ok found => pure found
  | .error e => throw (.mapping e)

/-- The statement of some pieces and parameters. -/
def statement (sql : Sql) (parameters : List Parameter) : Rendering Statement := do
  return ⟨String.ofList (sql.chars (← get).head.dialect.quoteMark), parameters⟩

end Rendering

/-- The placeholder of a named value and the parameter it is bound to, by its converter if it has
one. -/
def bindValue (converter : Option Converter) (name : String) (value : Value) :
    Except MappingError (String × Parameter) :=
  match converter with
  | some converter => do return (converter.placeholder name, ⟨name, ← converter.write value⟩)
  | none => .ok (Converter.parameter name, ⟨name, value⟩)

end ObjectRelational
