import ObjectRelational.Query.Statement

/-!
# Connections

A connection runs statements: a query gives rows, an execution the number of affected rows, and
either can fail. `RecordingConnection` keeps tables in memory, answers every query with all rows of
the table it selects from, and records the statements it receives.
-/

namespace ObjectRelational

set_option autoImplicit false

/-- The operations of a connection with states in `C`. -/
class Connection (C : Type) where
  query : Statement → EStateM DatabaseError C (List Row)
  execute : Statement → EStateM DatabaseError C Nat

structure RecordingConnection where
  tables : Table String (List Row) := []
  /-- The error that every statement is answered with. -/
  failure : Option DatabaseError := none
  /-- The answer to executions. -/
  affected : Nat := 1
  /-- The statements received, the latest first. -/
  received : List Statement := []

namespace RecordingConnection

/-- What follows the first occurrence of a word. -/
def after? (word : List Char) : List Char → Option (List Char)
  | [] => none
  | c :: rest =>
      if word.isPrefixOf (c :: rest) then some ((c :: rest).drop word.length)
      else after? word rest

def isQuoteMark (c : Char) : Bool :=
  c = '"' || c = '\x60'

/-- The table a query selects from: the word after the first `FROM`, without quote marks. -/
def selectedTable (sql : String) : String :=
  let word := match after? " FROM ".toList sql.toList with
    | some rest => rest.takeWhile fun c => !Text.isBlank c
    | none => []
  String.ofList (word.filter fun c => !isQuoteMark c)

/-- Records a statement, and fails if a failure is set. -/
def receive (statement : Statement) : EStateM DatabaseError RecordingConnection Unit := do
  modify fun connection => { connection with received := statement :: connection.received }
  match (← get).failure with
  | some e => throw e
  | none => pure ()

instance : Connection RecordingConnection where
  query statement := do
    receive statement
    return (Table.get? (← get).tables (selectedTable statement.sql)).getD []
  execute statement := do
    receive statement
    return (← get).affected

end RecordingConnection

end ObjectRelational
