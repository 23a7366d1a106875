import ObjectRelational.ColumnType.Scalar
import ObjectRelational.Composite.Text
import ObjectRelational.Row
import ObjectRelational.Spatial.PointText

/-!
# Converters

A converter takes the values of a column from the form in which a database client hands them back to
their canonical form, and from there to the form in which they are bound, and it writes the
placeholder of a bound value.

* `Converter.read` gives the canonical form of a stored value;
* `Converter.write` gives the bound form of a canonical value;
* `Converter.placeholder` casts a named parameter as the stored form needs it.
-/

namespace ObjectRelational

set_option autoImplicit false

/-- How a document is bound: as it is, as a binary document, or by a cast. -/
inductive JsonStyle where
  | plain
  | binary
  | cast
  deriving DecidableEq, Repr

/-- How a UUID is bound. -/
inductive UuidStyle where
  | native
  | text
  deriving DecidableEq, Repr

inductive Converter where
  /-- Hands values through; its label names it. -/
  | passThrough (label : String)
  /-- An enumeration by its literals, in a named database type or as plain text. -/
  | enumeration (typeName : String) (literals : List String) (databaseType : Option String)
  | composite (databaseType : String)
  | json (style : JsonStyle)
  | uuid (style : UuidStyle)
  /-- A point as a pair of coordinates. -/
  | pointPair
  /-- A point as a geometry of a spatial reference system. -/
  | pointGeometry (srid : Int)
  deriving DecidableEq, Repr

namespace Converter

abbrev Result : Type := Except MappingError Value

def name : Converter → String
  | passThrough label => label
  | enumeration .. => "enum"
  | composite _ => "composite"
  | json _ => "json"
  | uuid _ => "uuid"
  | pointPair => "point"
  | pointGeometry _ => "wkt point"

/-! ## Parts -/

def checkLiteral (typeName : String) (literals : List String) (literal : String) :
    Except MappingError Value :=
  if literal ∈ literals then .ok (.text literal) else .error (.invalidLiteral typeName literal)

/-- Bytes as a list of pairs of hexadecimal digits. -/
def hexList (bytes : List UInt8) : String :=
  "[" ++ ", ".intercalate (bytes.map fun b => String.ofList (Text.byteHex b)) ++ "]"

/-- The UUID in a value that is one, or its text or bytes. -/
def uuidOf : Value → Except MappingError Uuid
  | .uuid u => .ok u
  | .text s =>
      match Uuid.read? (Text.trim s.toList) with
      | some u => .ok u
      | none => .error (.invalidText "uuid" s)
  | .bytes b =>
      match Uuid.ofBytes? b with
      | some u => .ok u
      | none => .error (.invalidText "uuid" (hexList b))
  | found => Scalar.mismatch "uuid" found

def jsonOf (found : Option Json) : Except MappingError Value :=
  match found with
  | some j => .ok (.json j)
  | none => .error .malformedDocument

def pointOf (input : String) (found : Option Point) : Except MappingError Value :=
  match found with
  | some p => .ok (.point p)
  | none => .error (.malformedPoint input)

/-- A point without finite coordinates has no text that reads back. -/
def requireFinite (p : Point) : Except MappingError Point :=
  if p.IsFinite then .ok p else .error (.malformedPoint p.text)

/-! ## Reading and writing -/

/-- The canonical form of a stored value. Null stays null. -/
def read (converter : Converter) (stored : Value) : Except MappingError Value :=
  match converter, stored.untyped with
  | .passThrough _, value => .ok value
  | _, .null => .ok .null
  | .enumeration typeName literals _, .text s => checkLiteral typeName literals s
  | .enumeration .., found => Scalar.mismatch "enum literal" found
  | .composite _, .text s => (Composite.parse s).map .record
  | .composite _, .record fields => .ok (.record fields)
  | .composite _, found => Scalar.mismatch "composite text" found
  | .json _, .json j => .ok (.json j)
  | .json _, .text s => jsonOf (Json.read? s)
  | .json _, .bytes b => jsonOf (Json.readBytes? b)
  | .json _, found => Scalar.mismatch "json document" found
  | .uuid _, value => (uuidOf value).map .uuid
  | .pointPair, .point p => .ok (.point p)
  | .pointPair, .text s => pointOf s (Spatial.readPair? s)
  | .pointPair, found => Scalar.mismatch "point" found
  | .pointGeometry _, .point p => .ok (.point p)
  | .pointGeometry _, .text s => pointOf s (Spatial.readGeometry? s)
  | .pointGeometry _, found => Scalar.mismatch "wkt point" found

/-- The bound form of a canonical value. Null stays null; what is handed through keeps its type
wrappers. -/
def write (converter : Converter) (native : Value) : Except MappingError Value :=
  match converter, native.untyped with
  | .passThrough _, _ => .ok native
  | _, .null => .ok .null
  | .enumeration typeName literals databaseType, .text s => do
      let literal ← checkLiteral typeName literals s
      return match databaseType with
        | some name => .typed name literal
        | none => literal
  | .enumeration .., found => Scalar.mismatch "enum literal" found
  | .composite databaseType, .record fields => do
      return .typed databaseType (.text (← Composite.encode fields))
  | .composite _, found => Scalar.mismatch "record" found
  | .json .binary, .json j => .ok (.typed "jsonb" (.text j.text))
  | .json _, .json j => .ok (.text j.text)
  | .json _, found => Scalar.mismatch "json document" found
  | .uuid .native, value => (uuidOf value).map .uuid
  | .uuid .text, value => (uuidOf value).map fun u => .text u.text
  | .pointPair, .point p => do return .typed "point" (.text (← requireFinite p).text)
  | .pointPair, found => Scalar.mismatch "point" found
  | .pointGeometry _, .point p => do return .text (Spatial.geometryText (← requireFinite p))
  | .pointGeometry _, found => Scalar.mismatch "point" found

/-- Reads a column of a row, if the row has it. -/
def readColumn (converter : Converter) (view : RowView) (column : String) :
    Except MappingError (Option Value) :=
  match view column with
  | none => .ok none
  | some stored => (converter.read stored).map some

/-! ## Placeholders -/

/-- A named parameter in a statement. -/
def parameter (name : String) : String :=
  ":" ++ name

/-- A named parameter cast to a type. -/
def castParameter (name databaseType : String) : String :=
  "(" ++ parameter name ++ ")::" ++ databaseType

/-- The placeholder of a named parameter. -/
def placeholder (converter : Converter) (name : String) : String :=
  match converter with
  | .passThrough _ => parameter name
  | .enumeration _ _ (some databaseType) => castParameter name databaseType
  | .enumeration _ _ none => parameter name
  | .composite databaseType => castParameter name databaseType
  | .json .plain => parameter name
  | .json .binary => castParameter name "jsonb"
  | .json .cast => "CAST(" ++ parameter name ++ " AS JSON)"
  | .uuid .native => castParameter name "uuid"
  | .uuid .text => parameter name
  | .pointPair => castParameter name "point"
  | .pointGeometry srid => "ST_GeomFromText(" ++ parameter name ++ ", " ++ Number.intText srid ++ ")"

end Converter

end ObjectRelational
