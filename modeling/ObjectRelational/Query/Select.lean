import ObjectRelational.Query.Condition

/-!
# Selections

A selection reads columns of a root table and of joined tables. A joined table has the path of a
nested property as its alias, and its columns come out under that path. A join hangs off the alias
one step up its path, or off the root table.
-/

namespace ObjectRelational

set_option autoImplicit false

inductive JoinKind where
  | inner
  | left
  deriving DecidableEq, Repr

structure Join where
  kind : JoinKind
  table : String
  path : String
  localColumn : String
  remoteColumn : String
  columns : List String
  deriving DecidableEq, Repr

inductive Direction where
  | ascending
  | descending
  deriving DecidableEq, Repr

/-- An ordering by a column of the root table. -/
structure OrderTerm where
  column : String
  direction : Direction
  deriving DecidableEq, Repr

structure Select where
  table : String
  /-- The columns of the root table; without any all are read. -/
  columns : List String
  joins : List Join
  conditions : List Condition
  orderings : List OrderTerm
  limit : Option Nat
  offset : Option Nat

/-! ## Paths -/

namespace Path

/-- The name of a column below a path. -/
def column (path name : String) : String :=
  path ++ "." ++ name

/-- What stands before the last dot of a text. -/
def beforeLastDot? (path : List Char) : Option (List Char) :=
  match path.reverse.dropWhile (· ≠ '.') with
  | [] => none
  | _ :: rest => some rest.reverse

/-- The path one step up, if there is one. -/
def parent? (path : String) : Option String :=
  (beforeLastDot? path.toList).map String.ofList

end Path

namespace JoinKind

def sql : JoinKind → String
  | .inner => "INNER JOIN"
  | .left => "LEFT JOIN"

end JoinKind

namespace Join

/-- The alias of the table that a join hangs off. -/
def parent (join : Join) (root : String) : String :=
  (Path.parent? join.path).getD root

/-- The columns of a join as they are selected. -/
def selected (join : Join) : List Sql :=
  join.columns.map fun column =>
    Sql.qualified join.path column ++ [.text " AS ", .name (Path.column join.path column)]

def sql (join : Join) (root : String) : Sql :=
  [.text (" " ++ join.kind.sql ++ " "), .name join.table, .text " AS ", .name join.path,
    .text " ON "]
    ++ Sql.qualified (join.parent root) join.localColumn
    ++ .text " = " :: Sql.qualified join.path join.remoteColumn

end Join

namespace Direction

def sql : Direction → String
  | .ascending => "ASC"
  | .descending => "DESC"

end Direction

namespace Select

/-- Everything in a table. -/
def ofTable (table : String) : Select :=
  ⟨table, [], [], [], [], none, none⟩

def withColumns (select : Select) (columns : List String) : Select :=
  { select with columns }

def join (select : Select) (join : Join) : Select :=
  { select with joins := select.joins ++ [join] }

/-- Adds a condition that must hold besides the others. -/
def filter (select : Select) (condition : Condition) : Select :=
  { select with conditions := select.conditions ++ [condition] }

def orderBy (select : Select) (ordering : OrderTerm) : Select :=
  { select with orderings := select.orderings ++ [ordering] }

def withLimit (select : Select) (limit : Nat) : Select :=
  { select with limit := some limit }

def withOffset (select : Select) (offset : Nat) : Select :=
  { select with offset := some offset }

/-! ## Rendering -/

/-- The columns of the root table as they are selected. -/
def rootSelected (select : Select) : List Sql :=
  match select.columns with
  | [] => [[.name select.table, .text ".*"]]
  | columns => columns.map fun column =>
      Sql.qualified select.table column ++ [.text " AS ", .name column]

/-- The selection up to its joins. -/
def fromSql (select : Select) : Sql :=
  .text "SELECT " ::
    Sql.separated ", " (select.rootSelected ++ select.joins.flatMap Join.selected)
    ++ [.text " FROM ", .name select.table]
    ++ select.joins.flatMap fun join => join.sql select.table

def whereSql : List Sql → Sql
  | [] => []
  | conditions => .text " WHERE " :: Sql.separated " AND " conditions

def orderSql (table : String) : List OrderTerm → Sql
  | [] => []
  | orderings =>
      .text " ORDER BY " :: Sql.separated ", " (orderings.map fun ordering =>
        Sql.qualified table ordering.column ++ [.text (" " ++ ordering.direction.sql)])

def countSql (keyword : String) : Option Nat → Sql
  | none => []
  | some n => [.text (" " ++ keyword ++ " " ++ Condition.numberText n)]

/-- What follows the conditions of a selection. -/
def tailSql (select : Select) : Sql :=
  orderSql select.table select.orderings ++ countSql "LIMIT" select.limit
    ++ countSql "OFFSET" select.offset

/-- The statement of a selection. -/
def render (select : Select) : Rendering Statement := do
  let (conditions, parameters) ← Condition.renderAll select.table 0 select.conditions
  Rendering.statement (select.fromSql ++ whereSql conditions ++ select.tailSql) parameters

end Select

end ObjectRelational
