import ObjectRelational.ColumnType.Composite
import ObjectRelational.ColumnType.Token
import ObjectRelational.Json.Record

/-!
# Column types

The types a property can have. Values of a column type are held in canonical form, as values of one
kind: integers of the type's width, enumeration literals as text, composites as records, document
records as documents with all their fields. A type of its own brings the form it holds its values in
and both conversions, each of which can fail.
-/

namespace ObjectRelational

set_option autoImplicit false

/-- The conversions of a type of its own. -/
structure Codec where
  /-- The held form of a canonical value. -/
  read : Value → Scalar.Result Value
  /-- The canonical value of a held form. -/
  write : Value → Scalar.Result Value

inductive NativeType where
  | bool
  | integer (width : IntWidth)
  | single
  | double
  | text
  | bytes
  | date
  | time
  | timestamp
  | instant
  | json
  | uuid
  | point
  | enumeration (literals : List String)
  | composite (type : CompositeType)
  | document (shape : RecordShape)
  | custom (codec : Codec)

namespace NativeType

/-- The first instant of 1970. -/
def epoch : Timestamp where
  date := ⟨1970, 1, 1, by decide, by decide, by decide, by decide⟩
  time := ⟨0, 0, 0, 0, by decide, by decide, by decide, by decide⟩

/-- The value of a property before anything is stored in it: zero, empty, the first instant of
1970 or the first literal. Composites, document records and types of their own have none. -/
def initial : NativeType → Value
  | .bool => .bool false
  | .integer width => .integer width ⟨0, by cases width <;> decide⟩
  | .single => .single (.zero .single)
  | .double => .double (.zero .double)
  | .text => .text ""
  | .bytes => .bytes []
  | .date => .date epoch.date
  | .time => .time epoch.time
  | .timestamp => .timestamp epoch
  | .instant => .instant ⟨epoch⟩
  | .json => .json .null
  | .uuid => .uuid .nil
  | .point => .point ⟨.zero .double, .zero .double⟩
  | .enumeration (literal :: _) => .text literal
  | .enumeration [] => .null
  | .composite _ => .null
  | .document _ => .null
  | .custom _ => .null

end NativeType

/-- A column type with the token it is known by. -/
structure ColumnType where
  token : TypeToken
  native : NativeType

namespace ColumnType

def ofDocument (found : Option (List (String × Json))) : Scalar.Result Value :=
  match found with
  | some fields => .ok (.json (Json.ofMembers fields))
  | none => .error .malformedDocument

/-- Builds the form of a value that is held, or says why the value is not of the type. -/
def read (type : ColumnType) (value : Value) : Scalar.Result Value :=
  match type.native with
  | .bool => (Scalar.toBool value).map .bool
  | .integer width => (Scalar.toInteger width value).map (.integer width)
  | .single => (Scalar.toSingle value).map .single
  | .double => (Scalar.toDouble value).map .double
  | .text => (Scalar.toText value).map .text
  | .bytes => (Scalar.toBytes value).map .bytes
  | .date => (Scalar.toDate value).map .date
  | .time => (Scalar.toTime value).map .time
  | .timestamp => (Scalar.toTimestamp value).map .timestamp
  | .instant => (Scalar.toInstant value).map .instant
  | .json => (Scalar.toJson value).map .json
  | .uuid => (Scalar.toUuid value).map .uuid
  | .point => (Scalar.toPoint value).map .point
  | .enumeration literals =>
      match value.untyped with
      | .text s =>
          if s ∈ literals then .ok (.text s)
          else .error (.invalidLiteral type.token.name s)
      | found => Scalar.mismatch "enum literal" found
  | .composite composite => (composite.read value).map .record
  | .document shape =>
      match value.untyped with
      | .json j => ofDocument (shape.ofJson? j)
      | .text s => ofDocument (shape.read? s)
      | found => Scalar.mismatch "json document" found
  | .custom codec => codec.read value

/-- Builds an optional value: null stands for none. -/
def readOptional (type : ColumnType) (value : Value) : Scalar.Result Value :=
  if value.isNull then .ok .null else type.read value

/-- The canonical value of what is held. -/
def write (type : ColumnType) (held : Value) : Scalar.Result Value :=
  match type.native with
  | .custom codec => codec.write held
  | _ => .ok held

/-- The canonical value of what may be none. -/
def writeOptional (type : ColumnType) (held : Value) : Scalar.Result Value :=
  if held.isNull then .ok .null else type.write held

end ColumnType

end ObjectRelational
