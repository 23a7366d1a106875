/-!
# Type tokens

A token names a type and says what kind it is, which is all that converters are chosen by.
-/

namespace ObjectRelational

set_option autoImplicit false

/-- The scalars that every database client understands. -/
inductive ScalarKind where
  | bool
  | smallint
  | int
  | bigint
  | single
  | double
  | decimal
  | text
  | bytes
  | date
  | time
  | timestamp
  | instant
  | json
  deriving DecidableEq, Repr

inductive TypeKind where
  | scalar (kind : ScalarKind)
  | uuid
  | point
  /-- An enumeration by its literals. -/
  | enumeration (literals : List String)
  /-- A composite, a document record or an entity. -/
  | structured
  deriving DecidableEq, Repr

namespace ScalarKind

def label : ScalarKind → String
  | .bool => "Bool"
  | .smallint => "SmallInt"
  | .int => "Int"
  | .bigint => "BigInt"
  | .single => "Float"
  | .double => "Double"
  | .decimal => "Decimal"
  | .text => "Text"
  | .bytes => "Bytes"
  | .date => "Date"
  | .time => "Time"
  | .timestamp => "Timestamp"
  | .instant => "TimestampTz"
  | .json => "Json"

end ScalarKind

namespace TypeKind

def label : TypeKind → String
  | .scalar kind => "scalar " ++ kind.label
  | .uuid => "uuid"
  | .point => "point"
  | .enumeration _ => "enum"
  | .structured => "struct"

/-- The literals of an enumeration. -/
def literals? : TypeKind → Option (List String)
  | .enumeration literals => some literals
  | _ => none

end TypeKind

/-- A type by its full name, which is its identity, its kind, and the name of its database type
if it declares one. -/
structure TypeToken where
  name : String
  kind : TypeKind
  databaseType : Option String
  deriving DecidableEq, Repr

namespace TypeToken

/-- The part of a list after the last pair of colons; `found` is the part since the last pair met
so far. -/
def afterColons (found : List Char) : List Char → List Char
  | ':' :: ':' :: rest => afterColons rest rest
  | _ :: rest => afterColons found rest
  | [] => found

/-- The last segment of a path of names. -/
def lastSegment (path : String) : String :=
  String.ofList (afterColons path.toList path.toList)

def shortName (token : TypeToken) : String :=
  lastSegment token.name

/-- Whether two tokens stand for the same type. -/
def same (a b : TypeToken) : Bool :=
  a.name = b.name

end TypeToken

end ObjectRelational
