import ObjectRelational.ColumnType.Native
import ObjectRelational.Converter
import ObjectRelational.Proofs.Composite.Text
import ObjectRelational.Proofs.Spatial.PointText

/-! # Stored values come back

A converter that suits a column type stores what the type holds in a form that gives it back. Most
forms are the values themselves; identifiers, points and composites can be stored as text, and there
every part reads back from its own text.

* `NativeType.Holds`: what a type holds;
* `Value.Alike`: equality, but for which of the values it is that are no number;
* `Converter.Suits`: the converters that store the values of a type;
* `Converter.Suits.survives`: a value with a text reads back from the form it is stored in.
-/

namespace ObjectRelational

set_option autoImplicit false

/-! ## What types hold -/

/-- Equality, but for which of the values it is that are no number. -/
inductive Value.Alike : Value → Value → Prop
  | refl (value : Value) : Alike value value
  | nan {x y : Double} (hx : x.IsNaN) (hy : y.IsNaN) : Alike (.double x) (.double y)
  | record {fields others : List Value} (h : List.Forall₂ Alike fields others) :
      Alike (.record fields) (.record others)

theorem Value.Alike.eq_text {literal : String} {back : Value} (h : (Value.text literal).Alike back) :
    back = .text literal := by
  cases h
  rfl

theorem Value.alike_double {x y : Double} (h : x.Alike y) : (Value.double x).Alike (.double y) := by
  rcases h with rfl | ⟨hx, hy⟩
  · exact .refl _
  · exact .nan hx hy

/-- A field holds the values of its kind. -/
inductive FieldKind.Holds : FieldKind → Value → Prop
  | integer {width : IntWidth} (n : BoundedInt width) : Holds (.integer width) (.integer width n)
  | double (x : Double) : Holds .double (.double x)
  | bool (b : Bool) : Holds .bool (.bool b)
  | text (s : String) : Holds .text (.text s)

/-- An optional field may also hold null. -/
def FieldType.Holds (type : FieldType) (value : Value) : Prop :=
  type.optional = true ∧ value = .null ∨ type.kind.Holds value

namespace NativeType

/-- What a type holds. Documents and types of their own are left out. -/
inductive Holds : NativeType → Value → Prop
  | bool (b : Bool) : Holds .bool (.bool b)
  | integer {width : IntWidth} (n : BoundedInt width) : Holds (.integer width) (.integer width n)
  | single (x : Single) : Holds .single (.single x)
  | double (x : Double) : Holds .double (.double x)
  | text (s : String) : Holds .text (.text s)
  | bytes (b : List UInt8) : Holds .bytes (.bytes b)
  | date (d : Date) : Holds .date (.date d)
  | time (t : TimeOfDay) : Holds .time (.time t)
  | timestamp (t : Timestamp) : Holds .timestamp (.timestamp t)
  | instant (i : Instant) : Holds .instant (.instant i)
  | uuid (u : Uuid) : Holds .uuid (.uuid u)
  | point (p : Point) : Holds .point (.point p)
  | enumeration {literals : List String} {literal : String} (h : literal ∈ literals) :
      Holds (.enumeration literals) (.text literal)
  | composite {type : CompositeType} {fields : List Value}
      (h : List.Forall₂ (fun named value => named.2.Holds value) type.fields fields) :
      Holds (.composite type) (.record fields)

/-- The kind of type that the token of a native type names, but for documents and types of their
own. -/
def kind? : NativeType → Option TypeKind
  | .bool => some (.scalar .bool)
  | .integer .tinyint => none
  | .integer .smallint => some (.scalar .smallint)
  | .integer .int => some (.scalar .int)
  | .integer .bigint => some (.scalar .bigint)
  | .single => some (.scalar .single)
  | .double => some (.scalar .double)
  | .text => some (.scalar .text)
  | .bytes => some (.scalar .bytes)
  | .date => some (.scalar .date)
  | .time => some (.scalar .time)
  | .timestamp => some (.scalar .timestamp)
  | .instant => some (.scalar .instant)
  | .uuid => some .uuid
  | .point => some .point
  | .enumeration literals => some (.enumeration literals)
  | .composite _ => some .structured
  | .json | .document _ | .custom _ => none

theorem eq_uuid_of_kind? {native : NativeType} (h : native.kind? = some .uuid) : native = .uuid := by
  unfold kind? at h
  split at h <;> first | rfl | cases h

theorem eq_point_of_kind? {native : NativeType} (h : native.kind? = some .point) :
    native = .point := by
  unfold kind? at h
  split at h <;> first | rfl | cases h

theorem eq_enumeration_of_kind? {native : NativeType} {literals : List String}
    (h : native.kind? = some (.enumeration literals)) : native = .enumeration literals := by
  unfold kind? at h
  split at h <;> cases h
  rfl

theorem kind?_ne_json (native : NativeType) : native.kind? ≠ some (.scalar .json) := by
  unfold kind?
  split <;> nofun

end NativeType

/-! ## Scalars in text -/

namespace Scalar

theorem toBool_text (b : Bool) :
    toBool (.text (String.ofList [if b then 't' else 'f'])) = .ok b := by
  cases b <;> rfl

theorem toInteger_text {width : IntWidth} (n : BoundedInt width) :
    toInteger width (.text (String.ofList (Number.intChars n.val))) = .ok n := by
  have htrim : Text.trim (Number.intChars n.val) = Number.intChars n.val := by
    refine Text.trim_of_forall fun c hc => ?_
    rcases Number.mem_intChars hc with hdigit | rfl
    · exact Text.isBlank_of_isDigit hdigit
    · decide
  have hread : readBounded? width (Number.intChars n.val) = some n := by
    rw [readBounded?, Number.readInt?_intChars]
    exact BoundedInt.ofInt?_val n
  change parse _ _ _ = _
  rw [parse, String.toList_ofList, htrim, hread]

theorem toDouble_text (x : Double) :
    ∃ y, toDouble (.text (String.ofList (Number.floatChars .plain x))) = .ok y ∧
      x.Alike y := by
  have htrim : Text.trim (Number.floatChars .plain x) = Number.floatChars .plain x := by
    refine Text.trim_of_forall fun c hc => ?_
    rcases Number.mem_floatChars BinaryFormat.covered_double hc with hdigit | hname
    · exact Text.isBlank_of_isDigit hdigit
    · have hall : ∀ c ∈ ['.', '-', 'N', 'a', 'i', 'n', 'f'], Text.isBlank c = false := by
        rw [← List.forall_iff_forall_mem]
        decide
      exact hall c hname
  obtain ⟨y, hread, halike⟩ := Number.readFloat?_floatChars BinaryFormat.covered_double x
  refine ⟨y, ?_, halike⟩
  change parse _ _ _ = _
  rw [parse, String.toList_ofList, htrim, hread]

end Scalar

/-! ## Fields of composites -/

open Composite (Decodes encodeField encodeFields fieldValue)

/-- A field of a kind is written as a text from which the kind reads it back. -/
theorem FieldKind.Holds.encoded {kind : FieldKind} {value : Value} (h : kind.Holds value) :
    ∃ text found back, encodeField value = .ok text ∧ Decodes text (some found) ∧
      kind.read (.text (String.ofList found)) = .ok back ∧ value.Alike back := by
  cases h with
  | integer n =>
    refine ⟨_, _, .integer _ n, rfl, (Composite.bare_intChars n.val).decodes, ?_, .refl _⟩
    rw [FieldKind.read, Scalar.toInteger_text]
    rfl
  | double x =>
    obtain ⟨y, hread, halike⟩ := Scalar.toDouble_text x
    refine ⟨_, _, .double y, rfl,
      (Composite.bare_floatChars BinaryFormat.covered_double x).decodes, ?_,
      Value.alike_double halike⟩
    rw [FieldKind.read, hread]
    rfl
  | bool b =>
    refine ⟨_, _, .bool b, rfl, (Composite.bare_bool b).decodes, ?_, .refl _⟩
    rw [FieldKind.read, Scalar.toBool_text]
    rfl
  | text s =>
    refine ⟨_, _, .text s, rfl, Composite.decodes_quoted s, ?_, .refl _⟩
    rw [String.ofList_toList]
    rfl

theorem FieldType.Holds.encoded {type : FieldType} {value : Value} (h : type.Holds value) :
    ∃ text found back, encodeField value = .ok text ∧ Decodes text found ∧
      type.read (fieldValue found) = .ok back ∧ value.Alike back := by
  rcases h with ⟨hoptional, rfl⟩ | h
  · exact ⟨[], none, .null, rfl, Composite.decodes_nil, if_pos ⟨hoptional, rfl⟩, .refl _⟩
  · obtain ⟨text, found, back, htext, hdecodes, hread, halike⟩ := h.encoded
    refine ⟨text, some found, back, htext, hdecodes, ?_, halike⟩
    rw [FieldType.read, if_neg]
    · exact hread
    · rintro ⟨-, hnull⟩
      cases hnull

/-- Fields of named types are written as texts from which they read back in their order. -/
theorem encodeFields_of_holds {types : List (String × FieldType)} {fields : List Value}
    (h : List.Forall₂ (fun named value => named.2.Holds value) types fields) (typeName : String) :
    ∃ texts found back, encodeFields fields = .ok texts ∧ texts.length = types.length ∧
      List.Forall₂ Decodes texts found ∧
      RecordReader.readAll ⟨typeName, found.map fieldValue⟩ types = .ok (back, ⟨typeName, []⟩) ∧
      List.Forall₂ Value.Alike fields back := by
  -- Each named type takes the slot of its own field off the front of the record.
  induction h with
  | nil => exact ⟨[], [], [], rfl, rfl, .nil, rfl, .nil⟩
  | @cons named value types fields hfield _ ih =>
    obtain ⟨text, slot, back, htext, hdecodes, hread, halike⟩ := hfield.encoded
    obtain ⟨texts, found, others, htexts, hlength, hall, hreads, halikes⟩ := ih
    refine ⟨text :: texts, slot :: found, back :: others, ?_, congrArg (· + 1) hlength,
      .cons hdecodes hall, ?_, .cons halike halikes⟩
    · rw [encodeFields, htext, htexts]
      rfl
    · have hnext : RecordReader.next ⟨typeName, fieldValue slot :: found.map fieldValue⟩ named.1
          named.2 = (.ok back, ⟨typeName, found.map fieldValue⟩) := by
        rw [RecordReader.next]
        dsimp only
        rw [hread]
        rfl
      rw [List.map_cons, RecordReader.readAll, hnext]
      dsimp only
      rw [hreads]
      rfl

/-! ## Converters -/

namespace Converter

/-- The converters that store the values of a type. -/
inductive Suits : Converter → NativeType → Prop
  | passThrough {native : NativeType} (label : String)
      (h : ∃ kind, native.kind? = some (.scalar kind)) : Suits (.passThrough label) native
  | enumeration (typeName : String) (literals : List String) (databaseType : Option String) :
      Suits (.enumeration typeName literals databaseType) (.enumeration literals)
  | composite (databaseType : String) (type : CompositeType) :
      Suits (.composite databaseType) (.composite type)
  | uuid (style : UuidStyle) : Suits (.uuid style) .uuid
  | pointPair : Suits .pointPair .point
  | pointGeometry (srid : Int) : Suits (.pointGeometry srid) .point

/-- A value is stored, and what is stored reads back as it. -/
def Survives (converter : Converter) (type : ColumnType) (held : Value) : Prop :=
  ∃ stored canonical back, converter.write held = .ok stored ∧
    converter.read stored = .ok canonical ∧ canonical.isNull = false ∧
    type.read canonical = .ok back ∧ held.Alike back

theorem read_of_holds {type : ColumnType} {held : Value} (holds : type.native.Holds held)
    (hplain : ∀ composite, type.native ≠ .composite composite) :
    type.read held = .ok held ∧ held.untyped = held ∧ held.isNull = false := by
  obtain ⟨token, native⟩ := type
  dsimp only at holds hplain
  cases holds with
  | integer n =>
    refine ⟨?_, rfl, rfl⟩
    simp [ColumnType.read, Scalar.toInteger, Value.untyped, Except.map]
  | enumeration h =>
    refine ⟨?_, rfl, rfl⟩
    simp [ColumnType.read, Value.untyped, h]
  | composite h => exact absurd rfl (hplain _)
  | _ => exact ⟨rfl, rfl, rfl⟩

theorem write_of_holds {type : ColumnType} {held : Value} (holds : type.native.Holds held) :
    type.write held = .ok held ∧ held.isNull = false := by
  obtain ⟨token, native⟩ := type
  dsimp only at holds
  cases holds <;> exact ⟨rfl, rfl⟩

/-- Outside composites it is enough that the converter gives the value itself back. -/
theorem survives_of_read {converter : Converter} {type : ColumnType} {held : Value} (stored : Value)
    (holds : type.native.Holds held) (hplain : ∀ composite, type.native ≠ .composite composite)
    (hwrite : converter.write held = .ok stored) (hread : converter.read stored = .ok held) :
    converter.Survives type held := by
  obtain ⟨hself, -, hnull⟩ := read_of_holds holds hplain
  exact ⟨stored, held, held, hwrite, hread, hnull, hself, .refl held⟩

theorem survives_enumeration (typeName : String) (databaseType : Option String) (token : TypeToken)
    {literals : List String} {literal : String} (h : literal ∈ literals) :
    (enumeration typeName literals databaseType).Survives ⟨token, .enumeration literals⟩
      (.text literal) := by
  have hcheck : checkLiteral typeName literals literal = .ok (.text literal) := if_pos h
  cases databaseType with
  | none =>
    have hwrite : (enumeration typeName literals none).write (.text literal) =
        (checkLiteral typeName literals literal >>= fun found => .ok found) := rfl
    rw [hcheck] at hwrite
    exact survives_of_read (.text literal) (.enumeration h) nofun hwrite hcheck
  | some name =>
    have hwrite : (enumeration typeName literals (some name)).write (.text literal) =
        (checkLiteral typeName literals literal >>= fun found => .ok (.typed name found)) := rfl
    rw [hcheck] at hwrite
    exact survives_of_read (.typed name (.text literal)) (.enumeration h) nofun hwrite hcheck

theorem uuidOf_text (u : Uuid) : uuidOf (.text u.text) = .ok u := by
  have htrim : Text.trim u.text.toList = u.chars := by
    rw [Uuid.text, String.toList_ofList]
    exact Text.trim_of_forall fun c => Uuid.isBlank_of_mem_chars
  rw [uuidOf, htrim, Uuid.read?_chars]

theorem survives_uuid (style : UuidStyle) (token : TypeToken) (u : Uuid) :
    (uuid style).Survives ⟨token, .uuid⟩ (.uuid u) := by
  cases style with
  | native => exact survives_of_read (.uuid u) (.uuid u) nofun rfl rfl
  | text =>
    have hread : (uuid .text).read (.text u.text) = (uuidOf (.text u.text)).map .uuid := rfl
    rw [uuidOf_text] at hread
    exact survives_of_read (.text u.text) (.uuid u) nofun rfl hread

theorem write_pointPair (p : Point) : pointPair.write (.point p) =
    (requireFinite p >>= fun p => .ok (.typed "point" (.text p.text))) := rfl

theorem write_pointGeometry (srid : Int) (p : Point) : (pointGeometry srid).write (.point p) =
    (requireFinite p >>= fun p => .ok (.text (Spatial.geometryText p))) := rfl

/-- The two converters of points. -/
theorem Suits.point_cases {converter : Converter} (h : converter.Suits .point) :
    converter = .pointPair ∨ ∃ srid, converter = .pointGeometry srid := by
  cases h with
  | passThrough label h =>
    obtain ⟨kind, hkind⟩ := h
    cases hkind
  | pointPair => exact .inl rfl
  | pointGeometry srid => exact .inr ⟨srid, rfl⟩

/-- A finite point reads back from the text it is written as. -/
theorem Suits.read_write_point {converter : Converter} (suits : converter.Suits .point) {p : Point}
    (h : p.IsFinite) : ∃ stored, converter.write (.point p) = .ok stored ∧
      converter.read stored = .ok (.point p) := by
  obtain rfl | ⟨srid, rfl⟩ := suits.point_cases
  · have hread : Converter.pointPair.read (.typed "point" (.text p.text)) =
        pointOf p.text (Spatial.readPair? p.text) := rfl
    rw [Spatial.readPair?_text h] at hread
    rw [write_pointPair, requireFinite, if_pos h]
    exact ⟨_, rfl, hread⟩
  · have hread : (Converter.pointGeometry srid).read (.text (Spatial.geometryText p)) =
        pointOf (Spatial.geometryText p) (Spatial.readGeometry? (Spatial.geometryText p)) := rfl
    rw [Spatial.readGeometry?_geometryText h] at hread
    rw [write_pointGeometry, requireFinite, if_pos h]
    exact ⟨_, rfl, hread⟩

/-- A point that is not finite is not stored. -/
theorem Suits.write_infinite {converter : Converter} (suits : converter.Suits .point) {p : Point}
    (h : ¬ p.IsFinite) : converter.write (.point p) = .error (.malformedPoint p.text) := by
  obtain rfl | ⟨srid, rfl⟩ := suits.point_cases
  · rw [write_pointPair, requireFinite, if_neg h]
    rfl
  · rw [write_pointGeometry, requireFinite, if_neg h]
    rfl

theorem survives_composite (databaseType : String) (token : TypeToken) {type : CompositeType}
    (hne : type.fields ≠ []) {fields : List Value}
    (h : List.Forall₂ (fun named value => named.2.Holds value) type.fields fields) :
    (composite databaseType).Survives ⟨token, .composite type⟩ (.record fields) := by
  obtain ⟨texts, found, back, htexts, hlength, hdecodes, hread, halike⟩ :=
    encodeFields_of_holds h type.name
  have hne' : texts ≠ [] := by
    rintro rfl
    exact hne (List.eq_nil_of_length_eq_zero hlength.symm)
  obtain ⟨text, henclose, hparse⟩ := Composite.parse_enclose hdecodes hne'
  have hencode : Composite.encode fields = .ok (String.ofList text) := by
    rw [Composite.encode, htexts]
    change (Composite.enclose texts >>= _) = _
    rw [henclose]
    rfl
  refine ⟨.typed databaseType (.text (String.ofList text)), .record (found.map fieldValue),
    .record back, ?_, ?_, rfl, ?_, .record halike⟩
  · change (Composite.encode fields >>= _) = _
    rw [hencode]
    rfl
  · change (Composite.parse (String.ofList text)).map Value.record = _
    rw [hparse]
    rfl
  · change (type.read (.record (found.map fieldValue))).map Value.record = _
    have hall : type.read (.record (found.map fieldValue)) = .ok back := by
      change (RecordReader.readAll ⟨type.name, found.map fieldValue⟩ type.fields >>= _) = _
      rw [hread]
      rfl
    rw [hall]
    rfl

/-- What a type holds survives in every converter that suits the type; a point must be finite. -/
theorem Suits.survives {converter : Converter} {type : ColumnType}
    (suits : converter.Suits type.native)
    (hfields : ∀ composite, type.native = .composite composite → composite.fields ≠ [])
    {held : Value} (holds : type.native.Holds held) (hfinite : ∀ p, held = .point p → p.IsFinite) :
    converter.Survives type held := by
  obtain ⟨token, native⟩ := type
  dsimp only at suits hfields holds
  cases suits with
  | passThrough label h =>
    obtain ⟨kind, hkind⟩ := h
    have hplain : ∀ composite, native ≠ .composite composite := by
      rintro composite rfl
      cases hkind
    obtain ⟨-, huntyped, -⟩ := @read_of_holds ⟨token, native⟩ held holds hplain
    exact survives_of_read held holds hplain rfl (congrArg Except.ok huntyped)
  | enumeration typeName literals databaseType =>
    cases holds with
    | enumeration h => exact survives_enumeration typeName databaseType token h
  | composite databaseType type =>
    cases holds with
    | composite h => exact survives_composite databaseType token (hfields type rfl) h
  | uuid style =>
    cases holds with
    | uuid u => exact survives_uuid style token u
  | pointPair =>
    cases holds with
    | point p =>
      obtain ⟨stored, hwrite, hread⟩ := Suits.pointPair.read_write_point (hfinite p rfl)
      exact survives_of_read stored (.point p) nofun hwrite hread
  | pointGeometry srid =>
    cases holds with
    | point p =>
      obtain ⟨stored, hwrite, hread⟩ := (Suits.pointGeometry srid).read_write_point (hfinite p rfl)
      exact survives_of_read stored (.point p) nofun hwrite hread

end Converter

end ObjectRelational
