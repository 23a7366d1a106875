import ObjectRelational.Calendar.Reading
import ObjectRelational.Error
import ObjectRelational.Json.Reading
import ObjectRelational.Number.Decimal
import ObjectRelational.Text.Blank
import ObjectRelational.Value.Basic

/-!
# Reading scalars

Each scalar type builds its values from the values a database may hand back for it. All of them look
through type wrappers, and most also read text, without the white space at its ends.
-/

namespace ObjectRelational.Scalar

set_option autoImplicit false

abbrev Result (α : Type) : Type := Except MappingError α

def mismatch {α : Type} (expected : String) (found : Value) : Result α :=
  .error (.typeMismatch expected found.kindName)

/-- Reads trimmed text; the error shows the text as it was. -/
def parse {α : Type} (expected : String) (read : List Char → Option α) (s : String) : Result α :=
  match read (Text.trim s.toList) with
  | some found => .ok found
  | none => .error (.invalidText expected s)

def trueTexts : List String := ["t", "true", "TRUE", "1"]

def falseTexts : List String := ["f", "false", "FALSE", "0"]

def readBool? (text : List Char) : Option Bool :=
  if String.ofList text ∈ trueTexts then some true
  else if String.ofList text ∈ falseTexts then some false
  else none

def toBool (value : Value) : Result Bool :=
  match value.untyped with
  | .bool b => .ok b
  | .integer _ n => .ok (n.val ≠ 0)
  | .text s => parse "boolean" readBool? s
  | found => mismatch "boolean" found

/-- The name of an integer type in messages. -/
def integerLabel : IntWidth → String
  | .tinyint => "tinyint"
  | .smallint => "smallint"
  | .int => "integer"
  | .bigint => "bigint"

/-- An integer in the range of a width. -/
def readBounded? (width : IntWidth) (text : List Char) : Option (BoundedInt width) :=
  (Number.readInt? text).bind (BoundedInt.ofInt? width)

def toInteger (width : IntWidth) (value : Value) : Result (BoundedInt width) :=
  match value.untyped with
  | .text s => parse (integerLabel width) (readBounded? width) s
  | .decimal s => parse (integerLabel width) (readBounded? width) s
  | .integer _ n =>
      match BoundedInt.ofInt? width n.val with
      | some m => .ok m
      | none => .error (.invalidText (integerLabel width) (Number.intText n.val))
  | found => mismatch (integerLabel width) found

/-- A number of a format, with what becomes of the numbers of each format. -/
def toFloat (label : String) (format : BinaryFormat) (ofSingle : Single → BinaryFloat format)
    (ofDouble : Double → BinaryFloat format) (value : Value) : Result (BinaryFloat format) :=
  match value.untyped with
  | .single x => .ok (ofSingle x)
  | .double x => .ok (ofDouble x)
  | .text s => parse label (Number.readFloat? format) s
  | .decimal s => parse label (Number.readFloat? format) s
  | .integer _ n => .ok (.ofInt format n.val)
  | found => mismatch label found

/-- Single numbers are taken as they are, bit for bit; double numbers are rounded. -/
def toSingle : Value → Result Single :=
  toFloat "real" .single id fun x => x.convert .single

/-- Double numbers are taken as they are, bit for bit; single numbers are widened. -/
def toDouble : Value → Result Double :=
  toFloat "double precision" .double (fun x => x.convert .double) id

def toText (value : Value) : Result String :=
  match value.untyped with
  | .text s => .ok s
  | .decimal s => .ok s
  | found => mismatch "text" found

def toBytes (value : Value) : Result (List UInt8) :=
  match value.untyped with
  | .bytes b => .ok b
  | found => mismatch "bytes" found

/-! ## Dates and times -/

def parseWhole {α : Type} (expected : String) (read : String → Option α) (s : String) : Result α :=
  parse expected (fun text => read (String.ofList text)) s

def toDate (value : Value) : Result Date :=
  match value.untyped with
  | .date d => .ok d
  | .text s => parseWhole "date" Calendar.readDate? s
  | found => mismatch "date" found

def toTime (value : Value) : Result TimeOfDay :=
  match value.untyped with
  | .time t => .ok t
  | .text s => parseWhole "time" Calendar.readTime? s
  | found => mismatch "time" found

def toTimestamp (value : Value) : Result Timestamp :=
  match value.untyped with
  | .timestamp t => .ok t
  | .text s => parseWhole "timestamp" Calendar.readTimestamp? s
  | found => mismatch "timestamp" found

def toInstant (value : Value) : Result Instant :=
  match value.untyped with
  | .instant i => .ok i
  | .text s => parseWhole "timestamptz" Calendar.readInstant? s
  | found => mismatch "timestamptz" found

/-! ## Documents, identifiers and points -/

def toJson (value : Value) : Result Json :=
  match value.untyped with
  | .json j => .ok j
  | .text s =>
      match Json.read? s with
      | some j => .ok j
      | none => .error .malformedDocument
  | found => mismatch "json" found

/-- Bytes as a list of decimal numbers. -/
def byteList (bytes : List UInt8) : String :=
  "[" ++ ", ".intercalate (bytes.map fun b => String.ofList (Text.digits b.toNat)) ++ "]"

def toUuid (value : Value) : Result Uuid :=
  match value.untyped with
  | .uuid u => .ok u
  | .text s => parse "uuid" Uuid.read? s
  | .bytes b =>
      match Uuid.ofBytes? b with
      | some u => .ok u
      | none => .error (.invalidText "uuid" (byteList b))
  | found => mismatch "uuid" found

def toPoint (value : Value) : Result Point :=
  match value.untyped with
  | .point p => .ok p
  | found => mismatch "point" found

end ObjectRelational.Scalar
