import ObjectRelational.Json.Reading

/-!
# Records in documents

A record type lists its fields with their shapes. It is read from an object, where a field may be
missing if it has a value for that and members of other names are passed over, or from an array of
the fields in order. In a text no field may appear twice.
-/

namespace ObjectRelational

set_option autoImplicit false

/-- What a field of a record may hold. -/
inductive JsonShape where
  | string
  | boolean
  | integer (least greatest : Int)
  | choice (names : List String)
  | list (item : JsonShape)
  | optional (content : JsonShape)

namespace JsonShape

/-- The integer a shape accepts. -/
def bounded? (least greatest : Int) : JsonNumber → Option Json
  | .integer n => if least ≤ n ∧ n ≤ greatest then some (.number (.integer n)) else none
  | .float _ => none

def chosen? (names : List String) (name : String) : Option Json :=
  if name ∈ names then some (.string name) else none

/-- The content of a shape in a document. A choice is a name, or an object with the name as its
only key and null as value. -/
def ofJson? : JsonShape → Json → Option Json
  | .string, .string s => some (.string s)
  | .boolean, .bool b => some (.bool b)
  | .integer least greatest, .number n => bounded? least greatest n
  | .choice names, .string name => chosen? names name
  | .choice names, .object [(name, .null)] => chosen? names name
  | .list item, .array items => (items.mapM (ofJson? item)).map .array
  | .optional _, .null => some .null
  | .optional content, j => ofJson? content j
  | _, _ => none

/-- The content of a shape in a written document. -/
def ofWritten? : JsonShape → WrittenJson → Option Json
  | .string, .string pieces => (StringPiece.string? pieces).map .string
  | .boolean, .bool b => some (.bool b)
  | .integer least greatest, .number literal => literal.number?.bind (bounded? least greatest)
  | .choice names, .string pieces => (StringPiece.string? pieces).bind (chosen? names)
  | .choice names, .object [(pieces, .null)] => (StringPiece.string? pieces).bind (chosen? names)
  | .list item, .array items => (items.mapM (ofWritten? item)).map .array
  | .optional _, .null => some .null
  | .optional content, w => ofWritten? content w
  | _, _ => none

end JsonShape

/-- A field of a record: its content, and what it holds where an object lacks it or an array ends
before it. -/
structure RecordField where
  name : String
  shape : JsonShape
  ifMissing : Option Json
  ifShort : Option Json

/-- The fields of a record in order. -/
abbrev RecordShape : Type := List RecordField

namespace RecordShape

/-- The fields with what is found for them, in order. -/
def complete? (shape : RecordShape) (found : String → Option Json) :
    Option (List (String × Json)) :=
  shape.mapM fun field =>
    match found field.name with
    | some content => some (field.name, content)
    | none => field.ifMissing.map fun content => (field.name, content)

/-- The fields of an array in order; it must not be longer than the record. -/
def ofItems? {α : Type} (read : JsonShape → α → Option Json) :
    RecordShape → List α → Option (List (String × Json))
  | [], [] => some []
  | [], _ :: _ => none
  | field :: fields, [] => do
      let content ← field.ifShort
      return (field.name, content) :: (← ofItems? read fields [])
  | field :: fields, item :: items => do
      let content ← read field.shape item
      return (field.name, content) :: (← ofItems? read fields items)

/-- The members of an object that are fields, read in order. -/
def membersOfJson? (shape : RecordShape) :
    List (String × Json) → Option (List (String × Json))
  | [] => some []
  | (key, value) :: rest =>
      match shape.find? fun field => field.name = key with
      | none => membersOfJson? shape rest
      | some field => do
          let content ← field.shape.ofJson? value
          return (key, content) :: (← membersOfJson? shape rest)

/-- The members of a written object that are fields. A field that appears twice is refused; a
member that is no field needs a proper key and is passed over. -/
def membersOfWritten? (shape : RecordShape) :
    List (List StringPiece × WrittenJson) → Option (List (String × Json))
  | [] => some []
  | (pieces, value) :: rest => do
      let key ← StringPiece.string? pieces
      match shape.find? fun field => field.name = key with
      | none => membersOfWritten? shape rest
      | some field =>
          let content ← field.shape.ofWritten? value
          let others ← membersOfWritten? shape rest
          if others.any fun member => member.1 = key then none
          else return (key, content) :: others

/-- The fields of a record in a document. -/
def ofJson? (shape : RecordShape) : Json → Option (List (String × Json))
  | .object members => do
      let found ← membersOfJson? shape members
      complete? shape fun name => found.lookup name
  | .array items => ofItems? JsonShape.ofJson? shape items
  | _ => none

/-- The fields of a record in a written document. -/
def ofWritten? (shape : RecordShape) : WrittenJson → Option (List (String × Json))
  | .object members => do
      let found ← membersOfWritten? shape members
      complete? shape fun name => found.lookup name
  | .array items => ofItems? JsonShape.ofWritten? shape items
  | _ => none

/-- The fields of a record in a text. -/
def read? (shape : RecordShape) (text : String) : Option (List (String × Json)) :=
  (WrittenJson.read? text.toList).bind (ofWritten? shape)

end RecordShape

end ObjectRelational
