import ObjectRelational.Dialect.Basic

/-!
# The standard dialects

The baseline that every chain ends with, and the dialects of the supported engines.
-/

namespace ObjectRelational.Dialect

set_option autoImplicit false

/-- The spatial reference system of longitudes and latitudes. -/
def defaultSrid : Int := 4326

/-- The baseline converter of a scalar. -/
def baselineScalar : ScalarKind → Converter
  | .bool => .passThrough "bool"
  | .smallint => .passThrough "smallint"
  | .int => .passThrough "integer"
  | .bigint => .passThrough "bigint"
  | .single => .passThrough "real"
  | .double => .passThrough "double"
  | .decimal => .passThrough "decimal"
  | .text => .passThrough "text"
  | .bytes => .passThrough "bytes"
  | .date => .passThrough "date"
  | .time => .passThrough "time"
  | .timestamp => .passThrough "timestamp"
  | .instant => .passThrough "timestamptz"
  | .json => .json .plain

/-- Plain SQL: scalars are handed through, enumerations are literals, UUIDs are text, and
composites and points have no storage. -/
def generic : Dialect where
  name := "generic"
  native
    | .uuid => some (.uuid .text)
    | _ => none
  enumeration typeName literals _ := some (.enumeration typeName literals none)
  scalar kind := some (baselineScalar kind)

/-- An enumeration with a database type; others are left to the next link. -/
def namedEnumeration (typeName : String) (literals : List String) (databaseType : Option String) :
    Option Converter :=
  databaseType.map fun name => .enumeration typeName literals (some name)

/-- Composites, binary documents, named enumerations, native UUIDs and points. -/
def postgres : Dialect where
  name := "postgres"
  composite _ databaseType := .ok (.composite databaseType)
  document := .json .binary
  native
    | .uuid => some (.uuid .native)
    | .point => some .pointPair
    | .scalar .json => some (.json .binary)
    | _ => none
  enumeration := namedEnumeration

/-- Points as geometries; it stores registered types as the engine it extends does. -/
def postgis (srid : Int) : Dialect where
  name := "postgis"
  composite _ databaseType := .ok (.composite databaseType)
  document := .json .binary
  native
    | .point => some (.pointGeometry srid)
    | _ => none
  enumeration := namedEnumeration

/-- Documents by a cast, UUIDs as text, points as geometries, enumerations as literals, and no
composites. -/
def mysql (srid : Int) : Dialect where
  name := "mysql"
  quoteMark := '\x60'
  document := .json .cast
  native
    | .uuid => some (.uuid .text)
    | .point => some (.pointGeometry srid)
    | .scalar .json => some (.json .cast)
    | _ => none
  enumeration typeName literals _ := some (.enumeration typeName literals none)

end ObjectRelational.Dialect
