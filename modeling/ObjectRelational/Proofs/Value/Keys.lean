import ObjectRelational.Proofs.Calendar.Text
import ObjectRelational.Proofs.Composite.Grammar
import ObjectRelational.Proofs.Dialect.Keys
import ObjectRelational.Proofs.Json.Text
import ObjectRelational.Proofs.Number.Widening

/-! # Values by their keys

The key of an identifier is its value, a number among all numbers of its kind, or its text. Numbers
lose nothing in their keys, and the texts of dates, times, points and documents tell what they are.
Only the text of a composite does not: its fields stand between commas as they are, so that commas in
two of them move the end of one, and a null looks like the text `NULL`.

* `NativeType.Keeps`: what a type holds, documents included;
* `NativeType.Plain`: composites without such fields;
* `Value.Agree`: equality of identifiers, but for which of the values it is that are no number;
* `NativeType.Identifies.agree_of_key`: identifiers with one key agree.
-/

namespace ObjectRelational

set_option autoImplicit false

/-! ## Identifiers -/

/-- Equality, but for the widths of integers and for which of the values it is that are no number. -/
inductive Value.Agree : Value → Value → Prop
  | alike {a b : Value} (h : a.Alike b) : Agree a b
  | integer {v w : IntWidth} {m : BoundedInt v} {n : BoundedInt w} (h : m.val = n.val) :
      Agree (.integer v m) (.integer w n)
  | single {x y : Single} (h : x.Alike y) : Agree (.single x) (.single y)
  | point {p q : Point} (hx : p.x.Alike q.x) (hy : p.y.Alike q.y) : Agree (.point p) (.point q)

/-- A field that is not taken for null. -/
def FieldType.Plain (type : FieldType) (value : Value) : Prop :=
  type.optional = true → value ≠ .text "NULL"

/-- No field of a composite is taken for null, and no text but the one at a free place has a comma. -/
def CompositeType.Plain (type : CompositeType) (free : Nat) (fields : List Value) : Prop :=
  List.Forall₂ (fun named value => named.2.Plain value) type.fields fields ∧
    ∀ i s, fields[i]? = some (.text s) → i ≠ free → ',' ∉ s.toList

namespace NativeType

/-- What a type holds, documents included, whose numbers are never infinite or no numbers. Types of
their own are left out. -/
inductive Keeps : NativeType → Value → Prop
  | held {native : NativeType} {value : Value} (h : native.Holds value) : Keeps native value
  | json {j : Json} (h : j.Finite) : Keeps .json (.json j)
  | document (shape : RecordShape) {j : Json} (h : j.Finite) : Keeps (.document shape) (.json j)

/-- Composites are plain; there is nothing to ask of other values. -/
def Plain (free : Nat) : NativeType → Value → Prop
  | .composite type, .record fields => type.Plain free fields
  | _, _ => True

/-- What an identifier of a type can be: null, or a value that the type holds. -/
def Identifies (native : NativeType) (free : Nat) (value : Value) : Prop :=
  value = .null ∨ native.Keeps value ∧ native.Plain free value

end NativeType

/-! ## Texts of fields -/

theorem BoundedInt.eq_of_val {width : IntWidth} {m n : BoundedInt width} (h : m.val = n.val) :
    m = n := by
  cases m
  cases n
  cases h
  rfl

/-- A number has neither a comma nor the second letter of `NULL` in its text. -/
theorem not_mem_floatChars {c : Char} (h : c = ',' ∨ c = 'U') (x : Double) :
    c ∉ Number.floatChars .plain x := by
  intro hc
  rcases Number.mem_floatChars BinaryFormat.covered_double hc with hdigit | hname <;>
    rcases h with rfl | rfl <;> simp_all

namespace FieldKind

variable {kind : FieldKind} {a b : Value}

theorem not_mem_intText {c : Char} (h : c = ',' ∨ c = 'U') (n : Int) :
    c ∉ (Number.intText n).toList := by
  rw [Number.intText, String.toList_ofList]
  intro hc
  rcases Number.mem_intChars hc with hdigit | hminus <;> rcases h with rfl | rfl <;> simp_all

theorem not_mem_floatText {c : Char} (h : c = ',' ∨ c = 'U') (x : Double) :
    c ∉ (Number.floatText .plain x).toList := by
  rw [Number.floatText, String.toList_ofList]
  exact not_mem_floatChars h x

theorem Holds.not_comma (h : kind.Holds a) (hplain : ∀ s, a = .text s → ',' ∉ s.toList) :
    ',' ∉ a.display.toList := by
  cases h with
  | integer n => exact not_mem_intText (.inl rfl) n.val
  | double x => exact not_mem_floatText (.inl rfl) x
  | bool b => cases b <;> decide
  | text s => exact hplain s rfl

theorem Holds.display_ne_null (h : kind.Holds a) (hplain : a ≠ .text "NULL") :
    a.display ≠ "NULL" := by
  intro hnull
  have hmem : 'U' ∈ a.display.toList := by
    rw [hnull]
    decide
  cases h with
  | integer n => exact not_mem_intText (.inr rfl) n.val hmem
  | double x => exact not_mem_floatText (.inr rfl) x hmem
  | bool b => cases b <;> exact absurd hnull (by decide)
  | text s => exact hplain (congrArg Value.text hnull)

theorem Holds.alike_of_display (ha : kind.Holds a) (hb : kind.Holds b)
    (h : a.display = b.display) : a.Alike b := by
  cases ha with
  | integer m =>
    cases hb with
    | integer n =>
      obtain rfl : m = n := BoundedInt.eq_of_val
        (Number.intChars_injective (String.ofList_injective h))
      exact .refl _
  | double x =>
    cases hb with
    | double y =>
      exact Value.alike_double
        (Number.alike_of_floatChars BinaryFormat.covered_double (String.ofList_injective h))
  | bool b =>
    cases hb with
    | bool b' =>
      cases b <;> cases b' <;> first | exact .refl _ | exact absurd h (by decide)
  | text s =>
    cases hb with
    | text t =>
      obtain rfl : s = t := h
      exact .refl _

end FieldKind

namespace FieldType

variable {type : FieldType} {a b : Value}

theorem Holds.not_comma (h : type.Holds a) (hplain : ∀ s, a = .text s → ',' ∉ s.toList) :
    ',' ∉ a.display.toList := by
  rcases h with ⟨-, rfl⟩ | h
  · decide
  · exact h.not_comma hplain

theorem Holds.alike_of_display (ha : type.Holds a) (hb : type.Holds b) (hplain : type.Plain a)
    (hplain' : type.Plain b) (h : a.display = b.display) : a.Alike b := by
  have hnull : ∀ {c : Value}, type.optional = true → type.kind.Holds c → type.Plain c →
      c.display ≠ "NULL" := by
    intro c hoptional hc hplain
    exact hc.display_ne_null (hplain hoptional)
  rcases ha with ⟨hoptional, rfl⟩ | ha <;> rcases hb with ⟨hoptional', rfl⟩ | hb
  · exact .refl _
  · exact absurd h.symm (hnull hoptional hb hplain')
  · exact absurd h (hnull hoptional' ha hplain)
  · exact ha.alike_of_display hb h

end FieldType

/-! ## Texts of points -/

theorem Point.alike_of_text {p q : Point} (h : p.text = q.text) : p.x.Alike q.x ∧ p.y.Alike q.y := by
  have hcomma : ∀ x : Double, ',' ∉ Number.floatChars .plain x := not_mem_floatChars (.inl rfl)
  have htexts := congrArg String.toList h
  rw [Spatial.toList_text, Spatial.toList_text] at htexts
  obtain ⟨hx, hrest⟩ := Text.append_mark_inj (hcomma p.x) (hcomma q.x) (List.cons.inj htexts).2
  exact ⟨Number.alike_of_floatChars BinaryFormat.covered_double hx,
    Number.alike_of_floatChars BinaryFormat.covered_double (List.append_cancel_right hrest)⟩

/-! ## Texts of composites -/

namespace Value

open Composite (joinFields)

theorem displayItems_toList (fields : List Value) :
    (displayItems fields).toList = joinFields (fields.map fun field => field.display.toList) := by
  induction fields with
  | nil => rfl
  | cons field fields ih =>
    cases fields with
    | nil => rfl
    | cons second fields =>
      have hdisplay : displayItems (field :: second :: fields) =
          field.display ++ "," ++ displayItems (second :: fields) := rfl
      rw [hdisplay]
      simp only [String.toList_append, ih, List.append_assoc]
      rfl

theorem display_record (fields : List Value) : (record fields).display.toList =
    '(' :: (joinFields (fields.map fun field => field.display.toList) ++ [')']) := by
  rw [display, String.toList_append, String.toList_append, displayItems_toList]
  rfl

section Records

variable {types : List (String × FieldType)} {fields others : List Value}

/-- Fields of the same types that are not taken for null, with the same texts. -/
theorem alike_of_displays
    (hfields : List.Forall₂ (fun named value => named.2.Holds value) types fields)
    (hothers : List.Forall₂ (fun named value => named.2.Holds value) types others)
    (hplain : List.Forall₂ (fun named value => named.2.Plain value) types fields)
    (hplain' : List.Forall₂ (fun named value => named.2.Plain value) types others)
    (h : fields.map display = others.map display) : List.Forall₂ Alike fields others := by
  induction hfields generalizing others with
  | nil =>
    cases hothers
    exact .nil
  | cons hfield _ ih =>
    cases hothers with
    | cons hother hothers =>
      cases hplain with
      | cons hfirst hplain =>
        cases hplain' with
        | cons hfirst' hplain' =>
          obtain ⟨htext, htexts⟩ := List.cons.inj h
          exact .cons (hfield.alike_of_display hother hfirst hfirst' htext)
            (ih hothers hplain hplain' htexts)

theorem not_comma_of_fields {free : Nat}
    (hfields : List.Forall₂ (fun named value => named.2.Holds value) types fields)
    (hcommas : ∀ i s, fields[i]? = some (.text s) → i ≠ free → ',' ∉ s.toList) :
    ∀ i text, (fields.map fun field => field.display.toList)[i]? = some text → i ≠ free →
      ',' ∉ text := by
  intro i text htext hne
  rw [List.getElem?_map] at htext
  obtain ⟨field, hfield, rfl⟩ := Option.map_eq_some_iff.1 htext
  obtain ⟨hi, rfl⟩ := List.getElem?_eq_some_iff.1 hfield
  have hholds := hfields.get (by rwa [hfields.length_eq]) hi
  exact hholds.not_comma fun s hs => hcommas i s (by rw [hfield, ← hs]; rfl) hne

theorem alike_of_display_record {type : CompositeType} {free : Nat}
    (hfields : List.Forall₂ (fun named value => named.2.Holds value) type.fields fields)
    (hothers : List.Forall₂ (fun named value => named.2.Holds value) type.fields others)
    (hplain : type.Plain free fields) (hplain' : type.Plain free others)
    (h : (record fields).display = (record others).display) : List.Forall₂ Alike fields others := by
  have htexts := congrArg String.toList h
  rw [display_record, display_record] at htexts
  have hjoin := List.append_cancel_right (List.cons.inj htexts).2
  have hlength : fields.length = others.length := hfields.length_eq.symm.trans hothers.length_eq
  have hequal := Composite.joinFields_inj (by simpa using hlength)
    (not_comma_of_fields hfields hplain.2) (not_comma_of_fields hothers hplain'.2) hjoin
  have hinjective : Function.Injective String.toList := fun _ _ => String.toList_injective
  refine alike_of_displays hfields hothers hplain.1 hplain'.1 (List.map_injective_iff.2 hinjective ?_)
  rwa [List.map_map, List.map_map]

end Records

end Value

/-! ## Keys -/

namespace NativeType

variable {native : NativeType} {free : Nat} {a b : Value}

theorem Holds.agree_of_key (ha : native.Holds a) (hb : native.Holds b)
    (hplain : native.Plain free a) (hplain' : native.Plain free b) (h : a.key = b.key) :
    a.Agree b := by
  cases ha with
  | integer n =>
    cases hb
    exact .integer (ValueKey.int.inj h)
  | single x =>
    cases hb
    exact .single (BinaryFloat.alike_of_convert BinaryFormat.single_widens_double
      (ValueKey.float.inj h))
  | date d =>
    cases hb with
    | date d' =>
      obtain rfl : d = d' := Date.chars_injective (String.ofList_injective (ValueKey.other.inj h))
      exact .alike (.refl _)
  | time t =>
    cases hb with
    | time t' =>
      obtain rfl : t = t' :=
        TimeOfDay.chars_injective (String.ofList_injective (ValueKey.other.inj h))
      exact .alike (.refl _)
  | timestamp t =>
    cases hb with
    | timestamp t' =>
      obtain rfl : t = t' := Timestamp.charsWith_injective (by decide) (by decide) (by decide)
        (String.ofList_injective (ValueKey.other.inj h))
      exact .alike (.refl _)
  | instant i =>
    cases hb with
    | instant i' =>
      obtain rfl : i = i' :=
        Instant.chars_injective (String.ofList_injective (ValueKey.other.inj h))
      exact .alike (.refl _)
  | point p =>
    cases hb with
    | point q =>
      obtain ⟨hx, hy⟩ := Point.alike_of_text (ValueKey.other.inj h)
      exact .point hx hy
  | composite hfields =>
    cases hb with
    | composite hothers =>
      exact .alike (.record (Value.alike_of_display_record hfields hothers hplain hplain'
        (ValueKey.other.inj h)))
  -- The keys of all others are the values themselves.
  | _ =>
    cases hb
    cases h
    exact .alike (.refl _)

theorem Keeps.agree_of_key (ha : native.Keeps a) (hb : native.Keeps b)
    (hplain : native.Plain free a) (hplain' : native.Plain free b) (h : a.key = b.key) :
    a.Agree b := by
  have hjson : ∀ {j k : Json}, j.Finite → k.Finite → (Value.json j).key = (Value.json k).key →
      (Value.json j).Agree (.json k) := by
    intro j k hj hk h
    obtain rfl := Json.text_inj hj hk (ValueKey.other.inj h)
    exact .alike (.refl _)
  cases ha with
  | held ha =>
    cases hb with
    | held hb => exact ha.agree_of_key hb hplain hplain' h
    | json hk => cases ha
    | document shape hk => cases ha
  | json hj =>
    cases hb with
    | held hb => cases hb
    | json hk => exact hjson hj hk h
  | document shape hj =>
    cases hb with
    | held hb => cases hb
    | document _ hk => exact hjson hj hk h

theorem Keeps.key_ne_null (h : native.Keeps a) : a.key ≠ .null := by
  cases h with
  | held h => cases h <;> nofun
  | _ => nofun

theorem Keeps.eq_integer {width : IntWidth} (h : (integer width).Keeps a) :
    ∃ n, a = .integer width n := by
  cases h with
  | held h =>
    cases h with
    | integer n => exact ⟨n, rfl⟩

theorem Keeps.write {type : ColumnType} (h : type.native.Keeps a) :
    type.write a = .ok a ∧ a.isNull = false := by
  obtain ⟨token, native⟩ := type
  dsimp only at h
  cases h with
  | held h => exact Converter.write_of_holds h
  | json h => exact ⟨rfl, rfl⟩
  | document shape h => exact ⟨rfl, rfl⟩

/-- What identifies is written as it is. -/
theorem Identifies.write {type : ColumnType} (h : type.native.Identifies free a) :
    type.writeOptional a = .ok a := by
  rcases h with rfl | ⟨h, -⟩
  · rfl
  · obtain ⟨hwrite, hnull⟩ := h.write
    rw [ColumnType.writeOptional, hnull, hwrite]
    rfl

/-- Identifiers of one type, or both of integers, agree if they have one key. -/
theorem Identifies.agree_of_key {other : NativeType} (comparable : native.Comparable other)
    (ha : native.Identifies free a) (hb : other.Identifies free b) (h : a.key = b.key) :
    a.Agree b := by
  rcases ha with rfl | ⟨ha, hplain⟩
  · rcases hb with rfl | ⟨hb, -⟩
    · exact .alike (.refl _)
    · exact absurd h.symm hb.key_ne_null
  · rcases hb with rfl | ⟨hb, hplain'⟩
    · exact absurd h ha.key_ne_null
    · obtain rfl | ⟨width, width', rfl, rfl⟩ := comparable
      · exact ha.agree_of_key hb hplain hplain' h
      · obtain ⟨m, rfl⟩ := ha.eq_integer
        obtain ⟨n, rfl⟩ := hb.eq_integer
        exact .integer (ValueKey.int.inj h)

end NativeType

end ObjectRelational
