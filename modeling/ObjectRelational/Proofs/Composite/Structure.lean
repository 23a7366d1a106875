import ObjectRelational.Proofs.Composite.Grammar
import ObjectRelational.Proofs.Composite.Levels

/-! # The fields that a composite keeps apart

Text, calendar values, uuids, documents and records are quoted, and the text of a truth value, of an
integer or of a floating-point number has no comma, quote or backslash in it. A decimal is a text of
any form that stands bare, so a composite keeps its fields if and only if its decimals are plain.

* `Composite.reading`: what a field is to be read as, null or the text it is rendered as;
* `Composite.encodeField_cases`: null, a decimal, or a text that reads as a field;
* `Composite.not_shifted`, `Composite.bare_of_slot`: a bare text that is read as itself is plain;
* `Composite.parse_encode_iff`: the composites whose fields are read as they were rendered.
-/

namespace ObjectRelational.Composite

set_option autoImplicit false

/-! ## Renderings -/

/-- The text of a field in a composite, without quotes and without escapes. -/
def rendering (field : Value) : String :=
  match field.untyped with
  | .bool b => if b then "t" else "f"
  | .record fields =>
      match encode fields with
      | .ok text => text
      | .error _ => ""
  | value => value.display

/-- The text of a field that is not null. -/
def rendering? (field : Value) : Option (List Char) :=
  if field.isNull then none else some (rendering field).toList

/-- What a field is to be read as. -/
def reading (field : Value) : Value :=
  if field.isNull then .null else .text (rendering field)

theorem fieldValue_rendering? (field : Value) : fieldValue (rendering? field) = reading field := by
  unfold rendering? reading
  split
  · rfl
  · rw [fieldValue, String.ofList_toList]

theorem fieldValue_injective : Function.Injective fieldValue := by
  intro found found' h
  cases found with
  | none => cases found' <;> simp_all [fieldValue]
  | some text =>
    cases found' with
    | none => simp [fieldValue] at h
    | some text' =>
      have htext := congrArg String.toList (Value.text.inj h)
      rw [String.toList_ofList, String.toList_ofList] at htext
      rw [htext]

/-- No decimal has a comma, a quote or a backslash in it, or is empty. -/
def PlainDecimal (field : Value) : Prop :=
  ∀ s, field.untyped = .decimal s → Bare s.toList

/-! ## What a field is written as -/

theorem rendering?_untyped (field : Value) : rendering? field.untyped = rendering? field := by
  simp only [rendering?, rendering, Value.isNull_untyped, Value.untyped_untyped]

theorem decodes_of_quoted {text : List Char} {s : String} {found : Option (List Char)}
    (hfound : found = some s.toList) (h : Except.ok (ε := MappingError) (quoted s) = .ok text) :
    Decodes text found := by
  obtain rfl := Except.ok.inj h
  rw [hfound]
  exact decodes_quoted s

theorem decodes_of_bare {bare text : List Char} {found : Option (List Char)} (hbare : Bare bare)
    (hfound : found = some bare) (h : Except.ok (ε := MappingError) bare = .ok text) :
    Decodes text found := by
  obtain rfl := Except.ok.inj h
  rw [hfound]
  exact hbare.decodes

theorem rendering?_float {format : BinaryFormat} {x : BinaryFloat format} {field : Value}
    (hnull : field.isNull = false) (h : rendering field = Number.floatText .plain x) :
    rendering? field = some (Number.floatChars .plain x) := by
  rw [rendering?, hnull, h, Number.floatText, String.toList_ofList]
  rfl

/-- A field is null, a decimal, or written as a text that reads as a field. -/
theorem encodeField_cases {field : Value} {text : List Char} (h : encodeField field = .ok text) :
    (field.untyped = .null ∧ text = []) ∨ (∃ s, field.untyped = .decimal s ∧ text = s.toList) ∨
      ((∀ s, field.untyped ≠ .decimal s) ∧ Decodes text (rendering? field)) := by
  induction field using Value.rec (motive_2 := fun _ => True) with
  | typed name value ih => exact ih h
  | null =>
    cases h
    exact .inl ⟨rfl, rfl⟩
  | decimal s =>
    cases h
    exact .inr (.inl ⟨s, rfl, rfl⟩)
  | bool b =>
    refine .inr (.inr ⟨by rintro _ ⟨⟩, decodes_of_bare (bare_bool b) ?_ h⟩)
    cases b <;> rfl
  | integer width n =>
    refine .inr (.inr ⟨by rintro _ ⟨⟩, decodes_of_bare (bare_intChars n.val) ?_ h⟩)
    exact congrArg some String.toList_ofList
  | single x =>
    have hbare := bare_floatChars BinaryFormat.covered_single x
    exact .inr (.inr ⟨by rintro _ ⟨⟩, decodes_of_bare hbare (rendering?_float rfl rfl) h⟩)
  | double x =>
    have hbare := bare_floatChars BinaryFormat.covered_double x
    exact .inr (.inr ⟨by rintro _ ⟨⟩, decodes_of_bare hbare (rendering?_float rfl rfl) h⟩)
  | text s => exact .inr (.inr ⟨by rintro _ ⟨⟩, decodes_of_quoted rfl h⟩)
  | date d => exact .inr (.inr ⟨by rintro _ ⟨⟩, decodes_of_quoted rfl h⟩)
  | time t => exact .inr (.inr ⟨by rintro _ ⟨⟩, decodes_of_quoted rfl h⟩)
  | timestamp t => exact .inr (.inr ⟨by rintro _ ⟨⟩, decodes_of_quoted rfl h⟩)
  | instant i => exact .inr (.inr ⟨by rintro _ ⟨⟩, decodes_of_quoted rfl h⟩)
  | uuid u => exact .inr (.inr ⟨by rintro _ ⟨⟩, decodes_of_quoted rfl h⟩)
  | json j => exact .inr (.inr ⟨by rintro _ ⟨⟩, decodes_of_quoted rfl h⟩)
  | record fields =>
    rw [encodeField_record] at h
    obtain ⟨inner, hinner, rfl⟩ := map_eq_ok h
    have hrendering : rendering (.record fields) = inner := by
      simp only [rendering, Value.untyped, hinner]
    refine .inr (.inr ⟨by rintro _ ⟨⟩, ?_⟩)
    rw [rendering?, hrendering]
    exact decodes_quoted inner
  | bytes => cases h
  | array => cases h
  | point => cases h
  | _ => trivial

/-! ## Bare texts that are read as themselves -/

/-- A part is written as its character, or as its character after a mark that is no comma. -/
theorem QuotedPart.chars_eq (part : QuotedPart) :
    part.chars = [part.char] ∨ ∃ mark, mark ≠ ',' ∧ part.chars = [mark, part.char] := by
  cases part with
  | plain c h => exact .inl rfl
  | escaped c => exact .inr ⟨'\\', by decide, rfl⟩
  | doubledQuote => exact .inr ⟨'"', by decide, rfl⟩

theorem BarePart.chars_eq (part : BarePart) :
    part.chars = [part.char] ∨ ∃ mark, mark ≠ ',' ∧ part.chars = [mark, part.char] := by
  cases part with
  | plain c h => exact .inl rfl
  | escaped c => exact .inr ⟨'\\', by decide, rfl⟩

/-- Parts that are written as the end of a text do not stand for more than that end: what they stand
for would run ahead of what they are written as, up to the comma that the text lacks. -/
theorem not_shifted {α : Type} {chars : α → List Char} {char : α → Char}
    (hchars : ∀ part, chars part = [char part] ∨
      ∃ mark, mark ≠ ',' ∧ chars part = [mark, char part])
    {parts : List α} {ahead text rest tail : List Char} (hne : ahead ≠ [])
    (hahead : ',' ∉ ahead) (hrest : ∀ c ∈ rest.head?, c = ',')
    (hwritten : text ++ rest = parts.flatMap chars ++ tail)
    (hread : parts.map char = ahead ++ text) : False := by
  induction parts generalizing ahead text with
  | nil => simp_all
  | cons part parts ih =>
    obtain ⟨c, ahead, rfl⟩ := List.exists_cons_of_ne_nil hne
    obtain ⟨hc, hlater⟩ := List.cons.inj hread
    obtain ⟨hcomma, hplain⟩ : ',' ≠ c ∧ ',' ∉ ahead := by simpa using hahead
    rw [List.flatMap_cons, List.append_assoc] at hwritten
    rcases hchars part with hpart | ⟨mark, hmark, hpart⟩
    · rw [hpart, hc] at hwritten
      cases text with
      | nil =>
        obtain rfl : rest = _ := hwritten
        exact hcomma (hrest c rfl).symm
      | cons d text =>
        obtain ⟨rfl, htext⟩ := List.cons.inj hwritten
        have hnext : parts.map char = (ahead ++ [d]) ++ text := by
          rw [hlater, List.append_assoc]
          rfl
        exact ih (by simp) (by simpa using ⟨hplain, hcomma⟩) htext hnext
    · rw [hpart, hc] at hwritten
      match text with
      | [] =>
        obtain rfl : rest = _ := hwritten
        exact hmark (hrest mark rfl)
      | [d] =>
        obtain rfl : rest = _ := (List.cons.inj hwritten).2
        exact hcomma (hrest c rfl).symm
      | d :: e :: text =>
        obtain ⟨rfl, hsecond⟩ := List.cons.inj hwritten
        obtain ⟨rfl, htext⟩ := List.cons.inj hsecond
        have hnext : parts.map char = (ahead ++ [d, e]) ++ text := by
          rw [hlater, List.append_assoc]
          rfl
        exact ih (by simp) (by simpa using ⟨hplain, hmark.symm, hcomma⟩) htext hnext

theorem plain_of_bareParts {parts : List BarePart} {text rest tail : List Char}
    (hrest : ∀ c ∈ rest.head?, c = ',')
    (hwritten : text ++ rest = parts.flatMap BarePart.chars ++ tail)
    (hread : parts.map BarePart.char = text) :
    ∀ c ∈ text, c ≠ ',' ∧ c ≠ '"' ∧ c ≠ '\\' := by
  induction parts generalizing text with
  | nil =>
    subst hread
    simp
  | cons part parts ih =>
    subst hread
    rw [List.flatMap_cons, List.append_assoc, List.map_cons, List.cons_append] at hwritten
    cases part with
    | plain c h =>
      rw [List.map_cons, List.forall_mem_cons]
      exact ⟨h, ih (List.cons.inj hwritten).2 rfl⟩
    | escaped c =>
      -- The backslash is the character it escapes, and from there on the text runs ahead.
      obtain ⟨hc, hwritten⟩ := List.cons.inj hwritten
      obtain rfl : c = '\\' := hc
      cases parts with
      | nil =>
        obtain rfl : rest = _ := hwritten
        exact absurd (hrest '\\' rfl) (by decide)
      | cons next parts =>
        obtain ⟨hnext, htail⟩ := List.cons.inj hwritten
        have hread : (next :: parts).map BarePart.char = ['\\'] ++ parts.map BarePart.char := by
          rw [List.map_cons, hnext]
          rfl
        exact (not_shifted BarePart.chars_eq (by simp) (by simp) hrest htail hread).elim

/-- A text that is read as itself, up to a comma or the end, stands for itself. -/
theorem bare_of_slot {slot : Slot} {text rest tail : List Char} (hrest : ∀ c ∈ rest.head?, c = ',')
    (hwritten : text ++ rest = slot.chars ++ tail) (hread : slot.text? = some text) :
    Bare text := by
  cases slot with
  | empty => cases hread
  | quoted parts =>
    exfalso
    have hread := Option.some.inj hread
    simp only [Slot.chars, List.cons_append, List.append_assoc] at hwritten
    cases text with
    | nil =>
      obtain rfl : rest = _ := hwritten
      exact absurd (hrest '"' rfl) (by decide)
    | cons c text =>
      obtain ⟨rfl, htext⟩ := List.cons.inj hwritten
      have hahead : parts.map QuotedPart.char = ['"'] ++ text := hread
      exact not_shifted QuotedPart.chars_eq (by simp) (by simp) hrest htext hahead
  | bare first others =>
    obtain rfl := Option.some.inj hread
    exact ⟨by simp, plain_of_bareParts hrest hwritten rfl⟩

/-! ## All fields -/

theorem encodeFields_ok {fields : List Value} {texts : List (List Char)}
    (h : encodeFields fields = .ok texts) :
    List.Forall₂ (fun field text => encodeField field = .ok text) fields texts := by
  induction fields generalizing texts with
  | nil =>
    cases h
    exact .nil
  | cons field fields ih =>
    rw [encodeFields] at h
    cases hfield : encodeField field with
    | error e =>
      rw [hfield] at h
      cases h
    | ok text =>
      cases hfields : encodeFields fields with
      | error e =>
        rw [hfield, hfields] at h
        cases h
      | ok texts' =>
        rw [hfield, hfields] at h
        cases h
        exact .cons hfield (ih hfields)

theorem enclose_ok {texts : List (List Char)} {written : List Char}
    (h : enclose texts = .ok written) :
    texts ≠ [] ∧ written = '(' :: joinFields texts ++ [')'] := by
  cases texts with
  | nil => cases h
  | cons text texts => exact ⟨List.cons_ne_nil _ _, (Except.ok.inj h).symm⟩

theorem encode_ok {fields : List Value} {text : String} (h : encode fields = .ok text) :
    ∃ texts written, enclose texts = .ok written ∧ text = String.ofList written ∧
      List.Forall₂ (fun field text => encodeField field = .ok text) fields texts := by
  rw [encode] at h
  cases hfields : encodeFields fields with
  | error e =>
    rw [hfields] at h
    cases h
  | ok texts =>
    rw [hfields] at h
    change (enclose texts).map String.ofList = .ok text at h
    obtain ⟨written, henclose, rfl⟩ := map_eq_ok h
    exact ⟨texts, written, henclose, rfl, encodeFields_ok hfields⟩

/-- A field whose decimal, if it is one, is plain reads as its rendering. -/
theorem decodes_of_plain {field : Value} {text : List Char} (h : encodeField field = .ok text)
    (hplain : PlainDecimal field) : Decodes text (rendering? field) := by
  rw [← rendering?_untyped]
  rcases encodeField_cases h with ⟨hnull, rfl⟩ | ⟨s, hdecimal, rfl⟩ | ⟨-, hdecodes⟩
  · rw [hnull]
    exact decodes_nil
  · rw [hdecimal]
    exact (hplain s hdecimal).decodes
  · rw [rendering?_untyped]
    exact hdecodes

/-- Fields whose texts are spelled by slots of their renderings have plain decimals. -/
theorem plain_of_spelled {fields : List Value} {texts : List (List Char)} {slots : List Slot}
    (h : List.Forall₂ (fun field text => encodeField field = .ok text) fields texts)
    (hwritten : texts.flatMap (',' :: ·) = (slots.map Slot.chars).flatMap (',' :: ·))
    (hread : slots.map Slot.text? = fields.map rendering?) :
    ∀ field ∈ fields, PlainDecimal field := by
  induction h generalizing slots with
  | nil => simp
  | @cons field text fields texts hfield _ ih =>
    obtain ⟨slot, slots, rfl⟩ : ∃ slot others, slots = slot :: others := by
      cases slots with
      | nil => simp at hread
      | cons slot others => exact ⟨slot, others, rfl⟩
    obtain ⟨hslot, hread⟩ := List.cons.inj hread
    rw [List.map_cons, List.flatMap_cons, List.flatMap_cons] at hwritten
    have hwritten := (List.cons.inj hwritten).2
    have hplain : PlainDecimal field := by
      intro s hs
      rcases encodeField_cases hfield with ⟨hnull, -⟩ | ⟨s', hs', rfl⟩ | ⟨hne, -⟩
      · rw [hnull] at hs
        cases hs
      · obtain rfl : s' = s := by
          rw [hs'] at hs
          exact Value.decimal.inj hs
        rw [← rendering?_untyped, hs'] at hslot
        exact bare_of_slot (Text.head_commas texts) hwritten hslot
      · exact absurd hs (hne s)
    have hread' := decodes_of_plain hfield hplain (texts.flatMap (',' :: ·)) (Text.head_commas texts)
    obtain ⟨slot', htext, -⟩ := field_ok hread'
    obtain ⟨rfl, htail⟩ :=
      Slot.chars_append_inj (Text.head_commas _) (Text.head_commas _) (hwritten.symm.trans htext)
    exact List.forall_mem_cons.2 ⟨hplain, ih htail.symm hread⟩

/-- The text of a composite is read as one field for each of its fields, null for null and the text
of its rendering for any other, if and only if no decimal among them is empty or has a comma, a quote
or a backslash in it. -/
theorem parse_encode_iff {fields : List Value} {text : String} (h : encode fields = .ok text) :
    parse text = .ok (fields.map reading) ↔ ∀ field ∈ fields, PlainDecimal field := by
  obtain ⟨texts, written, henclose, rfl, hfields⟩ := encode_ok h
  obtain ⟨hne, hwritten⟩ := enclose_ok henclose
  have hreading : fields.map reading = (fields.map rendering?).map fieldValue := by
    rw [List.map_map]
    exact List.map_congr_left fun field _ => (fieldValue_rendering? field).symm
  constructor
  · intro hparse
    obtain ⟨slots, ⟨hslots, hspelled⟩, hvalues⟩ := parse_ok hparse
    have hread : slots.map Slot.text? = fields.map rendering? := by
      have hslot : slots.map Slot.value = (slots.map Slot.text?).map fieldValue := by
        rw [List.map_map]
        rfl
      rw [hreading, hslot] at hvalues
      exact (List.map_injective_iff.2 fieldValue_injective hvalues).symm
    rw [String.toList_ofList, hwritten, Text.trim_of_ends _ (by decide) (by decide)] at hspelled
    have hjoin := List.append_cancel_right (List.cons.inj hspelled).2
    refine plain_of_spelled hfields ?_ hread
    obtain ⟨first, others, rfl⟩ := List.exists_cons_of_ne_nil hne
    obtain ⟨slot, slots, rfl⟩ := List.exists_cons_of_ne_nil hslots
    rw [List.map_cons, joinFields_cons, joinFields_cons] at hjoin
    rw [List.map_cons, List.flatMap_cons, List.flatMap_cons]
    exact congrArg (',' :: ·) hjoin
  · intro hplain
    have hdecodes : List.Forall₂ Decodes texts (fields.map rendering?) := by
      have hboth := (List.forall₂_and_left _ _).2 ⟨hplain, hfields⟩
      rw [List.forall₂_map_right_iff]
      exact (hboth.imp fun _ _ hfield => decodes_of_plain hfield.2 hfield.1).flip
    obtain ⟨written', hwritten', hparse⟩ := parse_enclose hdecodes hne
    obtain rfl : written = written' := Except.ok.inj (henclose.symm.trans hwritten')
    rw [hparse, hreading]

/-- An amount, a quoted remark, a null and a record with a comma in it. -/
def invoice : List Value :=
  [.typed "numeric" (.decimal "-12.50"), .text "due \"now\"", .null, .record [.text "a,b", .null]]

theorem parse_encode_invoice :
    encode invoice = .ok "(-12.50,\"due \\\"now\\\"\",,\"(\\\"a,b\\\",)\")" ∧
      (∀ field ∈ invoice, PlainDecimal field) ∧
      parse "(-12.50,\"due \\\"now\\\"\",,\"(\\\"a,b\\\",)\")" = .ok (invoice.map reading) := by
  have hencode : encode invoice =
      .ok "(-12.50,\"due \\\"now\\\"\",,\"(\\\"a,b\\\",)\")" := by
    rfl
  have hplain : ∀ field ∈ invoice, PlainDecimal field := by
    have hamount : Bare "-12.50".toList := ⟨by decide, by simp⟩
    simpa [invoice, PlainDecimal, Value.untyped] using hamount
  exact ⟨hencode, hplain, (parse_encode_iff hencode).2 hplain⟩

/-- A decimal with a comma in it is one field when it is written, and two when it is read. -/
theorem encode_decimal_comma :
    encode [.decimal "1,2"] = .ok "(1,2)" ∧ [Value.decimal "1,2"].map reading = [.text "1,2"] ∧
      parse "(1,2)" = .ok [.text "1", .text "2"] := by
  have hspelled : Spells [.bare (.plain '1' (by decide)) [], .bare (.plain '2' (by decide)) []]
      "(1,2)" := ⟨by simp, by decide⟩
  exact ⟨rfl, rfl, hspelled.parse⟩

end ObjectRelational.Composite
