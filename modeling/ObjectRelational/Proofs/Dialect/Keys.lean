import ObjectRelational.Proofs.Dialect.Storage
import ObjectRelational.Proofs.Mapping.Cells
import ObjectRelational.Value.Key

/-! # Keys come back

An identifier is written by one converter and read back by another: the one was looked up when a
statement was put together, the other when a mapper was built, and types may have been registered in
between. Every pair of converters that an engine can give for a type brings the key back, or one of
them fails.

* `Converter.Possible`: the converters that an engine can give for a type, whatever is registered;
* `Converter.Suits.key_eq`: what one suitable converter has written and another reads;
* `ColumnType.KeyedBy`: the native type that the keys of a column type come from;
* `ColumnType.KeyedBy.key_of_restored`: the key of a value that was written and read back.
-/

namespace ObjectRelational

set_option autoImplicit false

/-! ## Keys of like values -/

namespace Value

theorem display_of_alike {value other : Value} (h : value.Alike other) :
    value.display = other.display := by
  induction h using Value.Alike.rec
    (motive_2 := fun fields others _ => displayItems fields = displayItems others) with
  | refl value => rfl
  | @nan x y hx hy =>
    have hname : ∀ x : Double, x.IsNaN → Number.floatText .plain x = "NaN" :=
      fun x hx => congrArg String.ofList (if_pos hx)
    rw [display, display, hname x hx, hname y hy]
  | record _ ih => rw [display, display, ih]
  | nil => rfl
  | cons hfirst hrest ihfirst ihrest =>
    cases hrest with
    | nil => exact ihfirst
    | cons hsecond hrest =>
      change _ ++ "," ++ displayItems (_ :: _) = _ ++ "," ++ displayItems (_ :: _)
      rw [ihfirst, ihrest]

theorem key_record {fields others : List Value} (h : List.Forall₂ Alike fields others) :
    (record fields).key = (record others).key :=
  congrArg ValueKey.other (display_of_alike (.record h))

end Value

/-! ## Possible converters -/

/-- The values of one type are matched with those of the other: it is the same, or both are of
integers. -/
def NativeType.Comparable (kept key : NativeType) : Prop :=
  kept = key ∨ ∃ width other, kept = .integer width ∧ key = .integer other

namespace Converter

/-- What a converter reads does not depend on the type wrappers of a cell. -/
theorem read_congr (converter : Converter) {cell stored : Value}
    (h : cell.untyped = stored.untyped) : converter.read cell = converter.read stored := by
  unfold read
  rw [h]

/-- The converters that an engine can give for a type: those that suit it, and, if it is registered
for what it is not, those of composites and documents. -/
inductive Possible (converter : Converter) (native : NativeType) : Prop
  | suits (h : converter.Suits native)
  | composite (databaseType : String) (h : converter = .composite databaseType)
  | json (style : JsonStyle) (h : converter = .json style)

variable {native kept : NativeType} {writer reader : Converter} {cell canonical : Value}

theorem suits_of_write (possible : writer.Possible native) (comparable : kept.Comparable native)
    {value stored : Value} (holds : kept.Holds value) (hwrite : writer.write value = .ok stored) :
    writer.Suits native := by
  cases possible with
  | suits h => exact h
  | composite databaseType hwriter =>
    subst hwriter
    cases holds with
    | composite hfields =>
      obtain rfl | ⟨width, other, hkept, -⟩ := comparable
      · exact .composite ..
      · cases hkept
    | _ => cases hwrite
  | json style hwriter =>
    subst hwriter
    cases style <;> cases holds <;> cases hwrite

theorem record_of_read {databaseType : String}
    (hread : (composite databaseType).read cell = .ok canonical) (h : canonical.isNull = false) :
    ∃ fields, canonical = .record fields := by
  unfold read at hread
  cases huntyped : cell.untyped with
  | text s =>
    rw [huntyped] at hread
    obtain ⟨fields, -, rfl⟩ := Composite.map_eq_ok hread
    exact ⟨fields, rfl⟩
  | record fields =>
    rw [huntyped] at hread
    cases hread
    exact ⟨fields, rfl⟩
  | _ =>
    rw [huntyped] at hread
    cases hread
    try cases h

theorem json_of_read {style : JsonStyle} (hread : (json style).read cell = .ok canonical)
    (h : canonical.isNull = false) : ∃ j, canonical = .json j := by
  have hdocument : ∀ found, jsonOf found = .ok canonical → ∃ j, canonical = .json j := by
    rintro (_ | j) hfound <;> cases hfound
    exact ⟨j, rfl⟩
  unfold read at hread
  cases huntyped : cell.untyped with
  | json j =>
    rw [huntyped] at hread
    cases hread
    exact ⟨j, rfl⟩
  | text s =>
    rw [huntyped] at hread
    exact hdocument _ hread
  | bytes b =>
    rw [huntyped] at hread
    exact hdocument _ hread
  | _ =>
    rw [huntyped] at hread
    cases hread
    try cases h

theorem suits_of_read (possible : reader.Possible native) (hkind : native.kind? ≠ none)
    (hread : reader.read cell = .ok canonical) (hnull : canonical.isNull = false)
    {token : TypeToken} {back : Value}
    (hback : (ColumnType.mk token native).read canonical = .ok back) : reader.Suits native := by
  cases possible with
  | suits h => exact h
  | composite databaseType hreader =>
    subst hreader
    obtain ⟨fields, rfl⟩ := record_of_read hread hnull
    cases native with
    | composite type => exact .composite ..
    | json | document | custom => exact absurd rfl hkind
    | _ => cases hback
  | json style hreader =>
    subst hreader
    obtain ⟨j, rfl⟩ := json_of_read hread hnull
    cases native with
    | json | document | custom => exact absurd rfl hkind
    | _ => cases hback

/-! ## One converter reading what another has written -/

variable {value stored back : Value}

theorem canonical_of_enumeration {typeName other literal : String} {literals : List String}
    {databaseType another : Option String} (hmem : literal ∈ literals)
    (hwrite : (enumeration typeName literals databaseType).write (.text literal) = .ok stored)
    (hread : (enumeration other literals another).read stored = .ok canonical) :
    canonical = .text literal := by
  have hcheck : ∀ name, checkLiteral name literals literal = .ok (.text literal) :=
    fun _ => if_pos hmem
  have huntyped : stored.untyped = .text literal := by
    cases databaseType <;>
    · change (checkLiteral typeName literals literal >>= _) = _ at hwrite
      rw [hcheck] at hwrite
      cases hwrite
      rfl
  have hreads : (enumeration other literals another).read stored =
      (enumeration other literals another).read (.text literal) := read_congr _ huntyped
  rw [hreads] at hread
  change checkLiteral other literals literal = _ at hread
  rw [hcheck] at hread
  exact (Except.ok.inj hread).symm

theorem canonical_of_uuid {style other : UuidStyle} {u : Uuid}
    (hwrite : (uuid style).write (.uuid u) = .ok stored)
    (hread : (uuid other).read stored = .ok canonical) : canonical = .uuid u := by
  cases style with
  | native =>
    cases hwrite
    cases hread
    rfl
  | text =>
    cases hwrite
    change (uuidOf (.text u.text)).map Value.uuid = _ at hread
    rw [uuidOf_text] at hread
    exact (Except.ok.inj hread).symm

/-- Neither form of a point is mistaken for the other. -/
theorem canonical_of_point {p : Point} (hw : writer.Suits .point) (hr : reader.Suits .point)
    (hwrite : writer.write (.point p) = .ok stored) (hread : reader.read stored = .ok canonical) :
    canonical = .point p := by
  have hfinite : p.IsFinite := by
    by_contra h
    rw [hw.write_infinite h] at hwrite
    cases hwrite
  have hpair : ∀ text, stored.untyped = .text text → pointPair.read stored =
      pointOf text (Spatial.readPair? text) := fun text h => by simp only [read, h]
  have hgeometry : ∀ text srid, stored.untyped = .text text → (pointGeometry srid).read stored =
      pointOf text (Spatial.readGeometry? text) := fun text srid h => by simp only [read, h]
  obtain rfl | ⟨srid, rfl⟩ := hw.point_cases
  · rw [write_pointPair, requireFinite, if_pos hfinite] at hwrite
    have htext : stored.untyped = .text p.text := by
      cases hwrite
      rfl
    obtain rfl | ⟨other, rfl⟩ := hr.point_cases
    · rw [hpair _ htext, Spatial.readPair?_text hfinite] at hread
      exact (Except.ok.inj hread).symm
    · rw [hgeometry _ _ htext, Spatial.readGeometry?_text] at hread
      cases hread
  · rw [write_pointGeometry, requireFinite, if_pos hfinite] at hwrite
    have htext : stored.untyped = .text (Spatial.geometryText p) := by
      cases hwrite
      rfl
    obtain rfl | ⟨other, rfl⟩ := hr.point_cases
    · rw [hpair _ htext, Spatial.readPair?_geometryText] at hread
      cases hread
    · rw [hgeometry _ _ htext, Spatial.readGeometry?_geometryText hfinite] at hread
      exact (Except.ok.inj hread).symm

/-- Outside composites one suitable converter reads the value that another has written. -/
theorem Suits.canonical_eq (hw : writer.Suits native) (hr : reader.Suits native)
    (holds : native.Holds value) (hplain : ∀ composite, native ≠ .composite composite)
    (hwrite : writer.write value = .ok stored) (hread : reader.read stored = .ok canonical) :
    canonical = value := by
  cases hr with
  | passThrough label h =>
    obtain ⟨kind, hkind⟩ := h
    have huntyped : value.untyped = value := by
      cases holds with
      | composite => exact absurd rfl (hplain _)
      | _ => rfl
    cases hw with
    | passThrough =>
      cases hwrite
      cases hread
      exact huntyped
    | _ => cases hkind
  | enumeration other literals another =>
    cases holds with
    | enumeration hmem =>
      cases hw with
      | passThrough label h =>
        obtain ⟨kind, hkind⟩ := h
        cases hkind
      | enumeration => exact canonical_of_enumeration hmem hwrite hread
  | composite databaseType type => exact absurd rfl (hplain type)
  | uuid other =>
    cases holds with
    | uuid u =>
      cases hw with
      | passThrough label h =>
        obtain ⟨kind, hkind⟩ := h
        cases hkind
      | uuid => exact canonical_of_uuid hwrite hread
  | pointPair =>
    cases holds with
    | point p => exact canonical_of_point hw .pointPair hwrite hread
  | pointGeometry srid =>
    cases holds with
    | point p => exact canonical_of_point hw (.pointGeometry srid) hwrite hread

theorem Suits.composite_cases {type : CompositeType} (h : reader.Suits (.composite type)) :
    ∃ databaseType, reader = .composite databaseType := by
  cases h with
  | passThrough label h =>
    obtain ⟨kind, hkind⟩ := h
    cases hkind
  | composite databaseType => exact ⟨databaseType, rfl⟩

theorem Suits.key_of_composite {token : TypeToken} {type : CompositeType}
    (hw : writer.Suits (.composite type)) (hr : reader.Suits (.composite type))
    (holds : (NativeType.composite type).Holds value) (hwrite : writer.write value = .ok stored)
    (hread : reader.read stored = .ok canonical)
    (hback : (ColumnType.mk token (.composite type)).read canonical = .ok back) :
    back.key = value.key := by
  obtain ⟨databaseType, rfl⟩ := hw.composite_cases
  obtain ⟨other, rfl⟩ := hr.composite_cases
  cases holds with
  | @composite _ fields hfields =>
    by_cases hempty : type.fields = []
    · obtain ⟨values, hvalues, rfl⟩ := Composite.map_eq_ok hback
      have hnone : values = [] := by
        rw [CompositeType.read, hempty] at hvalues
        obtain ⟨fieldReader, -, hvalues⟩ := except_bind_ok hvalues
        change (fieldReader.finish >>= fun _ => .ok []) = _ at hvalues
        obtain ⟨-, -, hpure⟩ := except_bind_ok hvalues
        exact (Except.ok.inj hpure).symm
      rw [hempty] at hfields
      cases hfields
      rw [hnone]
    · obtain ⟨text, found, again, hwrites, hreads, -, hbacks, halike⟩ :=
        survives_composite databaseType token hempty hfields
      have hreader : (Converter.composite other).read stored =
          (Converter.composite databaseType).read stored := by
        unfold Converter.read
        cases stored.untyped <;> rfl
      rw [hreader] at hread
      cases hwrites.symm.trans hwrite
      cases hreads.symm.trans hread
      cases hbacks.symm.trans hback
      cases halike with
      | refl => rfl
      | record halike => exact (Value.key_record halike).symm

/-- What a type makes of a value that was written and read back has the key of that value. -/
theorem Suits.key_eq {token : TypeToken} (hw : writer.Suits native) (hr : reader.Suits native)
    (holds : native.Holds value) (hwrite : writer.write value = .ok stored)
    (hread : reader.read stored = .ok canonical)
    (hback : (ColumnType.mk token native).read canonical = .ok back) : back.key = value.key := by
  by_cases hcomposite : ∃ type, native = .composite type
  · obtain ⟨type, rfl⟩ := hcomposite
    exact hw.key_of_composite hr holds hwrite hread hback
  · have hplain : ∀ type, native ≠ .composite type := fun type h => hcomposite ⟨type, h⟩
    obtain rfl := hw.canonical_eq hr holds hplain hwrite hread
    obtain ⟨hself, -, -⟩ := @read_of_holds ⟨token, native⟩ _ holds hplain
    cases hself.symm.trans hback
    rfl

end Converter

/-! ## Column types with keys -/

namespace ColumnType

/-- The keys of a column type are those of a native type: what it reads is what the native type
reads, and goes back to a value of the same key. -/
structure KeyedBy (type : ColumnType) (native : NativeType) : Prop where
  kind : native.kind? = some type.token.kind
  reads : ∀ value back, type.read value = .ok back → back.isNull = false ∧
    ∃ plain, (ColumnType.mk type.token native).read value = .ok plain ∧
      ∀ canonical, type.write back = .ok canonical → canonical.key = plain.key

theorem isNull_of_read {type : ColumnType} (hkind : type.native.kind? ≠ none) {value back : Value}
    (h : type.read value = .ok back) : back.isNull = false := by
  obtain ⟨token, native⟩ := type
  unfold read at h
  dsimp only at h hkind
  cases native with
  | enumeration literals =>
    dsimp only at h
    split at h
    · split at h <;> cases h
      rfl
    · cases h
  | json | document | custom => exact absurd rfl hkind
  | _ =>
    obtain ⟨found, -, rfl⟩ := Composite.map_eq_ok h
    rfl

/-- A native type that its token tells is keyed by itself. -/
theorem keyedBy_native {type : ColumnType} (kind : type.native.kind? = some type.token.kind) :
    type.KeyedBy type.native where
  kind := kind
  reads value back h := by
    have hkind : type.native.kind? ≠ none := kind ▸ Option.some_ne_none _
    refine ⟨isNull_of_read hkind h, back, h, fun canonical hwrite => ?_⟩
    unfold write at hwrite
    split at hwrite
    · next codec hcustom => exact absurd (congrArg NativeType.kind? hcustom) hkind
    · cases hwrite
      rfl

variable {type : ColumnType} {kept native : NativeType} {writer reader : Converter}
  {value stored cell canonical back final : Value}

theorem KeyedBy.key_of_integers {width other : IntWidth} {n : BoundedInt other}
    (hw : writer.Suits (.integer width)) (hr : reader.Suits (.integer width))
    (hwrite : writer.write (.integer other n) = .ok stored)
    (hread : reader.read stored = .ok canonical) {token : TypeToken}
    (hback : (ColumnType.mk token (.integer width)).read canonical = .ok back) :
    back.key = .int n.val := by
  cases hw
  cases hr
  cases hwrite
  cases hread
  change (Scalar.toInteger width (.integer other n)).map (Value.integer width) = _ at hback
  obtain ⟨m, hm, rfl⟩ := Composite.map_eq_ok hback
  simp only [Scalar.toInteger, Value.untyped, BoundedInt.ofInt?] at hm
  by_cases hrange : width.Holds n.val
  · rw [dif_pos hrange] at hm
    cases hm
    rfl
  · rw [dif_neg hrange] at hm
    cases hm

/-- Whatever two converters an engine can give for a type, the key comes back. -/
theorem KeyedBy.key_of_restored (keyed : type.KeyedBy native) (comparable : kept.Comparable native)
    (hw : writer.Possible native) (hr : reader.Possible native) (holds : kept.Holds value)
    (hwrite : writer.write value = .ok stored) (hcell : cell.untyped = stored.untyped)
    (hread : reader.read cell = .ok canonical) (hnull : canonical.isNull = false)
    (hback : type.read canonical = .ok back) (hfinal : type.write back = .ok final) :
    final.key = value.key := by
  have hkind : native.kind? ≠ none := keyed.kind ▸ Option.some_ne_none _
  obtain ⟨-, plain, hplain, hkey⟩ := keyed.reads canonical back hback
  rw [hkey final hfinal]
  have hwriter : writer.Suits native := Converter.suits_of_write hw comparable holds hwrite
  have hreader : reader.Suits native := Converter.suits_of_read hr hkind hread hnull hplain
  rw [reader.read_congr hcell] at hread
  obtain rfl | ⟨width, other, rfl, rfl⟩ := comparable
  · exact hwriter.key_eq hreader holds hwrite hread hplain
  · cases holds with
    | integer n => exact key_of_integers hwriter hreader hwrite hread hplain

end ColumnType

/-! ## Properties with keys -/

theorem SimpleProperty.key_of_cell {property : SimpleProperty} {kept native : NativeType}
    (keyed : property.type.KeyedBy native) (comparable : kept.Comparable native)
    {writer : Converter} (hw : writer.Possible native) (hr : property.converter.Possible native)
    {value stored cell final : Value} {object : Instance} (holds : kept.Holds value)
    (hwrite : writer.write value = .ok stored) (hcell : cell.untyped = stored.untyped)
    (hnull : cell.isNull = false)
    (hfrom : property.fromCell cell = .ok (object.column property.slot))
    (hget : property.get object = .ok final) : final.key = value.key := by
  obtain ⟨canonical, hread, haccept⟩ := except_bind_ok hfrom
  have hcanonical := Converter.isNull_of_read hread hnull
  have hback : property.type.read canonical = .ok (object.column property.slot) := by
    unfold SimpleProperty.accept ColumnType.readOptional at haccept
    simpa [hcanonical] using haccept
  have hheld := (keyed.reads canonical _ hback).1
  have hfinal : property.type.write (object.column property.slot) = .ok final := by
    unfold SimpleProperty.get ColumnType.writeOptional at hget
    simpa [hheld] using hget
  exact keyed.key_of_restored comparable hw hr holds hwrite hcell hread hcanonical hback hfinal

/-! ## Engines -/

theorem Dialect.Suitable.possible_of_answer {dialect : Dialect} (suitable : dialect.Suitable)
    {style : JsonStyle} (hdocument : dialect.document = .json style) {registered : Registered}
    {type : ColumnType} (kind : type.native.kind? = some type.token.kind) {converter : Converter}
    (h : dialect.answer registered type.token = .ok (some converter)) :
    converter.Possible type.native := by
  obtain ⟨databaseType?, document, enum?⟩ := registered
  cases databaseType? with
  | some databaseType =>
    unfold answer at h
    rw [suitable.answers] at h
    dsimp only at h
    cases hfound : dialect.composite type.token databaseType with
    | error e =>
      rw [hfound] at h
      cases h
    | ok found =>
      rw [hfound] at h
      cases h
      have hsuits := suitable.composite _ _ _ ⟨"", []⟩ hfound
      obtain ⟨name, hname⟩ := hsuits.composite_cases
      exact .composite name hname
  | none =>
    cases document with
    | true =>
      unfold answer at h
      rw [suitable.answers] at h
      cases h
      exact .json style hdocument
    | false => exact .suits (suitable.suits_of_answer kind rfl (fun hne => absurd rfl hne) h)

namespace Engine

theorem document_of_mem {engine : Engine} {srid : Int} {dialect : Dialect}
    (h : dialect ∈ engine.dialects srid) : ∃ style, dialect.document = .json style := by
  cases engine <;> simp only [dialects, List.mem_cons, List.not_mem_nil, or_false] at h
  · exact h ▸ ⟨_, rfl⟩
  · rcases h with rfl | rfl <;> exact ⟨_, rfl⟩
  · rcases h with rfl | rfl | rfl <;> exact ⟨_, rfl⟩
  · rcases h with rfl | rfl <;> exact ⟨_, rfl⟩

/-- What a chain of the dialects of an engine gives for a type is possible for it. -/
theorem possible_of_converterFor {engine : Engine} {srid : Int} {chain : Chain}
    (hdialects : chain.links.map Link.dialect = engine.dialects srid) {type : ColumnType}
    (kind : type.native.kind? = some type.token.kind) {converter : Converter}
    (h : (chain.converterFor type.token).1 = .ok converter) : converter.Possible type.native := by
  have hanswer : chain.answer type.token = .ok (some converter) := by
    rw [chain.converterFor_eq] at h
    split at h <;> cases h
    assumption
  obtain ⟨link, hlink, hfound⟩ := List.mem_map.1 (mem_of_firstAnswer hanswer)
  have hmem : link.dialect ∈ engine.dialects srid := hdialects ▸ List.mem_map_of_mem hlink
  obtain ⟨style, hstyle⟩ := document_of_mem hmem
  exact (suitable_of_mem hmem).possible_of_answer hstyle kind hfound

end Engine

end ObjectRelational
