import ObjectRelational.ColumnType.Native
import ObjectRelational.Converter

/-! # Errors of conversions

A conversion says what is wrong with a value and not which property the value is for. Where a
property is named, it is by what reads or writes the property; only a type of its own can come with
errors that name one already.

* `Unnamed`: a computation names no property when it fails;
* `ColumnType.unnamed_read`, `Converter.unnamed_read`: neither of the two conversions of a cell does.
-/

namespace ObjectRelational

set_option autoImplicit false

/-! ## Errors and properties -/

/-- An error that names no property. -/
@[simp]
def MappingError.IsConversion : MappingError → Prop
  | .property .. => False
  | _ => True

/-- A computation that names no property when it fails. -/
def Unnamed {α : Type} (answer : Except MappingError α) : Prop :=
  ∀ e, answer = .error e → e.IsConversion

section Unnamed

variable {α β : Type}

@[simp]
theorem unnamed_ok (a : α) : Unnamed (.ok a) := nofun

@[simp]
theorem unnamed_error_iff {e : MappingError} : Unnamed (.error e : Except _ α) ↔ e.IsConversion := by
  simp [Unnamed]

@[simp]
theorem unnamed_map_iff {answer : Except MappingError α} {f : α → β} :
    Unnamed (answer.map f) ↔ Unnamed answer := by
  cases answer <;> simp [Except.map]

theorem unnamed_mapError {f : MappingError → MappingError} (h : ∀ e, (f e).IsConversion)
    (answer : Except MappingError α) : Unnamed (answer.mapError f) := by
  cases answer with
  | ok a => exact unnamed_ok a
  | error e => exact unnamed_error_iff.2 (h e)

theorem Unnamed.bind {answer : Except MappingError α} {next : α → Except MappingError β}
    (h : Unnamed answer) (hnext : ∀ a, Unnamed (next a)) : Unnamed (answer >>= next) := by
  cases answer with
  | ok a => exact hnext a
  | error e => exact unnamed_error_iff.2 (h e rfl)

end Unnamed

namespace Scalar

@[simp]
theorem unnamed_mismatch {α : Type} (expected : String) (found : Value) :
    Unnamed (mismatch (α := α) expected found) := by
  simp [mismatch]

@[simp]
theorem unnamed_parse {α : Type} (expected : String) (read : List Char → Option α) (s : String) :
    Unnamed (parse expected read s) := by
  unfold parse
  split <;> simp

@[simp]
theorem unnamed_toBool (value : Value) : Unnamed (toBool value) := by
  unfold toBool
  split <;> simp

@[simp]
theorem unnamed_toInteger (width : IntWidth) (value : Value) : Unnamed (toInteger width value) := by
  unfold toInteger
  split
  case h_3 => split <;> simp
  all_goals simp

@[simp]
theorem unnamed_toFloat (label : String) (format : BinaryFormat)
    (ofSingle : Single → BinaryFloat format) (ofDouble : Double → BinaryFloat format)
    (value : Value) : Unnamed (toFloat label format ofSingle ofDouble value) := by
  unfold toFloat
  split <;> simp

@[simp]
theorem unnamed_toText (value : Value) : Unnamed (toText value) := by
  unfold toText
  split <;> simp

@[simp]
theorem unnamed_toBytes (value : Value) : Unnamed (toBytes value) := by
  unfold toBytes
  split <;> simp

@[simp]
theorem unnamed_toDate (value : Value) : Unnamed (toDate value) := by
  unfold toDate parseWhole
  split <;> simp

@[simp]
theorem unnamed_toTime (value : Value) : Unnamed (toTime value) := by
  unfold toTime parseWhole
  split <;> simp

@[simp]
theorem unnamed_toTimestamp (value : Value) : Unnamed (toTimestamp value) := by
  unfold toTimestamp parseWhole
  split <;> simp

@[simp]
theorem unnamed_toInstant (value : Value) : Unnamed (toInstant value) := by
  unfold toInstant parseWhole
  split <;> simp

@[simp]
theorem unnamed_toJson (value : Value) : Unnamed (toJson value) := by
  unfold toJson
  split
  case h_2 => split <;> simp
  all_goals simp

@[simp]
theorem unnamed_toUuid (value : Value) : Unnamed (toUuid value) := by
  unfold toUuid
  split
  case h_3 => split <;> simp
  all_goals simp

@[simp]
theorem unnamed_toPoint (value : Value) : Unnamed (toPoint value) := by
  unfold toPoint
  split <;> simp

end Scalar

/-! ## Composites -/

theorem RecordReader.unnamed_readAll (reader : RecordReader) (fields : List (String × FieldType)) :
    Unnamed (reader.readAll fields) := by
  induction fields generalizing reader with
  | nil => exact unnamed_ok _
  | cons field rest ih =>
    obtain ⟨name, type⟩ := field
    have hnext : Unnamed (reader.next name type).1 := by
      unfold next
      split
      · simp
      · -- The error of a field is put inside the path of the field.
        next field _ _ =>
        refine unnamed_mapError (fun _ => ?_) _
        trivial
    unfold readAll
    split
    · next e _ heq =>
      rw [heq] at hnext
      exact unnamed_error_iff.2 (hnext e rfl)
    · exact (ih _).bind fun _ => unnamed_ok _

theorem CompositeType.unnamed_read (type : CompositeType) (value : Value) :
    Unnamed (type.read value) := by
  have hrecord : Unnamed (RecordReader.ofValue type.name value) := by
    unfold RecordReader.ofValue
    split <;> simp
  refine hrecord.bind fun reader => (reader.unnamed_readAll type.fields).bind fun found => ?_
  have hfinish : Unnamed found.2.finish := by
    unfold RecordReader.finish
    split <;> simp
  exact hfinish.bind fun _ => unnamed_ok _

/-! ## Columns -/

/-- Only a type of its own can fail with the error of a property. -/
theorem ColumnType.unnamed_read {type : ColumnType} (h : ∀ codec, type.native ≠ .custom codec)
    (value : Value) : Unnamed (type.read value) := by
  have hdocument : ∀ found, Unnamed (ofDocument found) := by
    intro found
    unfold ofDocument
    split <;> simp
  unfold read
  split
  case h_14 =>
    split
    · split <;> simp
    · simp
  case h_15 => simpa using CompositeType.unnamed_read _ value
  case h_16 => split <;> simp [hdocument]
  case h_17 codec hcodec => exact absurd hcodec (h codec)
  all_goals simp [Scalar.toSingle, Scalar.toDouble]

theorem Converter.unnamed_read (converter : Converter) (stored : Value) :
    Unnamed (converter.read stored) := by
  have hliteral : ∀ typeName literals literal, Unnamed (checkLiteral typeName literals literal) := by
    intro typeName literals literal
    unfold checkLiteral
    split <;> simp
  have hcomposite : ∀ input, Unnamed (Composite.parse input) := by
    intro input
    unfold Composite.parse
    split
    · simp
    · split <;> simp
  have hdocument : ∀ found, Unnamed (jsonOf found) := by
    intro found
    unfold jsonOf
    split <;> simp
  have hpoint : ∀ input found, Unnamed (pointOf input found) := by
    intro input found
    unfold pointOf
    split <;> simp
  have huuid : ∀ value, Unnamed (uuidOf value) := by
    intro value
    unfold uuidOf
    split
    case h_2 | h_3 => split <;> simp
    all_goals simp
  unfold read
  split <;> simp [hliteral, hcomposite, hdocument, hpoint, huuid]

end ObjectRelational
