import ObjectRelational.ColumnType.Scalar

/-!
# Composite types

A composite type lists its fields with their scalar types; an optional field may be null. A record
value is read field by field, and what is left over at the end is an error.
-/

namespace ObjectRelational

set_option autoImplicit false

/-- The scalar types of composite fields. -/
inductive FieldKind where
  | integer (width : IntWidth)
  | double
  | bool
  | text
  deriving DecidableEq, Repr

structure FieldType where
  kind : FieldKind
  optional : Bool
  deriving DecidableEq, Repr

namespace FieldKind

/-- Reads a field that is not null. -/
def read (kind : FieldKind) (value : Value) : Scalar.Result Value :=
  match kind with
  | .integer width => (Scalar.toInteger width value).map (.integer width)
  | .double => (Scalar.toDouble value).map .double
  | .bool => (Scalar.toBool value).map .bool
  | .text => (Scalar.toText value).map .text

end FieldKind

namespace FieldType

/-- Reads a field; null stands for a missing optional one. -/
def read (type : FieldType) (value : Value) : Scalar.Result Value :=
  if type.optional ∧ value.isNull then .ok .null else type.kind.read value

end FieldType

/-- The fields of a record that are still to be read. -/
structure RecordReader where
  typeName : String
  fields : List Value

namespace RecordReader

def ofValue (typeName : String) (value : Value) : Scalar.Result RecordReader :=
  match value.untyped with
  | .record fields => .ok ⟨typeName, fields⟩
  | found => Scalar.mismatch "record" found

/-- Reads the next field by its type; a field that is refused has still been taken. -/
def next (reader : RecordReader) (name : String) (type : FieldType) :
    Scalar.Result Value × RecordReader :=
  let path := reader.typeName ++ "." ++ name
  match reader.fields with
  | [] => (.error (.malformedComposite path .tooFewFields), reader)
  | field :: rest =>
      ((type.read field).mapError (.malformedField path), { reader with fields := rest })

/-- Refuses fields that were not read. -/
def finish (reader : RecordReader) : Scalar.Result Unit :=
  match reader.fields.length with
  | 0 => .ok ()
  | count => .error (.malformedComposite reader.typeName (.trailingFields count))

/-- Reads named fields one after the other. -/
def readAll (reader : RecordReader) :
    List (String × FieldType) → Scalar.Result (List Value × RecordReader)
  | [] => .ok ([], reader)
  | (name, type) :: rest =>
      match reader.next name type with
      | (.error e, _) => .error e
      | (.ok value, reader) => do
          let (values, reader) ← readAll reader rest
          return (value :: values, reader)

end RecordReader

/-- A composite type by its name in messages and its fields in order. -/
structure CompositeType where
  name : String
  fields : List (String × FieldType)

/-- Builds a composite from a record value. -/
def CompositeType.read (type : CompositeType) (value : Value) : Scalar.Result (List Value) := do
  let (values, rest) ← (← RecordReader.ofValue type.name value).readAll type.fields
  rest.finish
  return values

end ObjectRelational
