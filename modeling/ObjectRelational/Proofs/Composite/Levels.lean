import ObjectRelational.Proofs.Composite.Text

/-! # Composites within composites

A record among the fields of a composite is written as a quoted text that is a composite itself, so
that every level escapes what the levels in it have escaped already. Reading a composite undoes one
level and leaves the records in it as the texts they were written as. Whoever knows where the records
stand can go on reading these, down to the last level.

* `Nestable`: null, texts and records of them;
* `ReadsAs`: what a field is after one level has been read;
* `Layout.open?`: reading level by level, by where the records stand;
* `parse_encode`: one level read, and all of them.
-/

namespace ObjectRelational.Composite

set_option autoImplicit false

/-- Null, a text, or a record of such fields, of which there is at least one. -/
inductive Nestable : Value → Prop
  | null : Nestable .null
  | text (s : String) : Nestable (.text s)
  | record {fields : List Value} (hne : fields ≠ []) (hfields : ∀ field ∈ fields, Nestable field) :
      Nestable (.record fields)

/-- A field and what it is read as: a record as the text of its own composite, any other as
itself. -/
inductive ReadsAs : Value → Value → Prop
  | null : ReadsAs .null .null
  | text (s : String) : ReadsAs (.text s) (.text s)
  | record {fields : List Value} {text : String} (h : encode fields = .ok text) :
      ReadsAs (.record fields) (.text text)

/-! ## Reading level by level -/

/-- Where records stand: a field is none, or it is one with a layout of its own fields. -/
inductive Layout where
  | plain
  | record (fields : List Layout)

namespace Layout

mutual

def ofField : Value → Layout
  | .record fields => .record (ofFields fields)
  | _ => .plain

def ofFields : List Value → List Layout
  | [] => []
  | field :: rest => ofField field :: ofFields rest

end

mutual

/-- A field with the records in it read from their texts. -/
def open? : Layout → Value → Option Value
  | .plain, field => some field
  | .record layouts, .text text => do
      let fields ← openAll? layouts (← (parse text).toOption)
      return .record fields
  | .record _, _ => none

def openAll? : List Layout → List Value → Option (List Value)
  | [], [] => some []
  | layout :: layouts, field :: fields => do
      let value ← layout.open? field
      return value :: (← openAll? layouts fields)
  | [], _ :: _ => none
  | _ :: _, [] => none

end

end Layout

/-! ## One level -/

/-- A field is written as a text that reads as a field again, from which all of it is recovered. -/
structure Restores (field : Value) (text : List Char) (found : Option (List Char)) : Prop where
  encoded : encodeField field = .ok text
  decodes : Decodes text found
  reads : ReadsAs field (fieldValue found)
  opens : (Layout.ofField field).open? (fieldValue found) = some field

/-- A record is written as the quoted text of its own composite. -/
theorem encodeField_record (fields : List Value) :
    encodeField (.record fields) = (encode fields).map quoted := by
  rw [encodeField, encode]
  cases encodeFields fields with
  | error e => rfl
  | ok texts =>
    change (enclose texts >>= _) = (enclose texts >>= _).map quoted
    cases enclose texts <;> rfl

theorem restores_null : Restores .null [] none :=
  ⟨rfl, decodes_nil, .null, rfl⟩

theorem restores_text (s : String) : Restores (.text s) (quoted s) (some s.toList) := by
  have hvalue : fieldValue (some s.toList) = .text s := by
    rw [fieldValue, String.ofList_toList]
  refine ⟨rfl, decodes_quoted s, ?_, ?_⟩
  · rw [hvalue]
    exact .text s
  · rw [hvalue]
    rfl

/-- Fields that are restored one by one. -/
theorem fields_restored {fields : List Value}
    (h : ∀ field ∈ fields, ∃ text found, Restores field text found) :
    ∃ texts found, encodeFields fields = .ok texts ∧ List.Forall₂ Decodes texts found ∧
      List.Forall₂ ReadsAs fields (found.map fieldValue) ∧
      Layout.openAll? (Layout.ofFields fields) (found.map fieldValue) = some fields := by
  induction fields with
  | nil => exact ⟨[], [], rfl, .nil, .nil, rfl⟩
  | cons field rest ih =>
    rw [List.forall_mem_cons] at h
    obtain ⟨text, found, hfield⟩ := h.1
    obtain ⟨texts, others, hencoded, hdecodes, hreads, hopens⟩ := ih h.2
    refine ⟨text :: texts, found :: others, ?_, .cons hfield.decodes hdecodes,
      .cons hfield.reads hreads, ?_⟩
    · rw [encodeFields, hfield.encoded, hencoded]
      rfl
    · rw [Layout.ofFields, List.map_cons, Layout.openAll?, hfield.opens, hopens]
      rfl

/-- At least one field, each restored: the composite of them is written, and it is read. -/
theorem composite_restored {fields : List Value} (hne : fields ≠ [])
    (h : ∀ field ∈ fields, ∃ text found, Restores field text found) :
    ∃ text found, encode fields = .ok text ∧ parse text = .ok found ∧
      List.Forall₂ ReadsAs fields found ∧
      Layout.openAll? (Layout.ofFields fields) found = some fields := by
  obtain ⟨texts, found, hencoded, hdecodes, hreads, hopens⟩ := fields_restored h
  have htexts : texts ≠ [] := by
    rintro rfl
    cases hdecodes
    cases hreads
    exact hne rfl
  obtain ⟨text, hclosed, hparsed⟩ := parse_enclose hdecodes htexts
  refine ⟨String.ofList text, found.map fieldValue, ?_, hparsed, hreads, hopens⟩
  rw [encode, hencoded]
  change (enclose texts >>= fun text => pure (String.ofList text)) = _
  rw [hclosed]
  rfl

/-! ## All levels -/

theorem Nestable.restored {field : Value} (h : Nestable field) :
    ∃ text found, Restores field text found := by
  induction h with
  | null => exact ⟨[], none, restores_null⟩
  | text s => exact ⟨_, _, restores_text s⟩
  | @record fields hne _ ih =>
    obtain ⟨text, found, hencode, hparse, -, hopens⟩ := composite_restored hne ih
    -- The composite of the inner fields is a text like any other one level further out.
    have houter := restores_text text
    have hvalue : fieldValue (some text.toList) = .text text := by
      rw [fieldValue, String.ofList_toList]
    refine ⟨quoted text, some text.toList, ?_, houter.decodes, ?_, ?_⟩
    · rw [encodeField_record, hencode]
      rfl
    · rw [hvalue]
      exact .record hencode
    · rw [hvalue, Layout.ofField, Layout.open?, hparse]
      change (Layout.openAll? (Layout.ofFields fields) found >>= _) = _
      rw [hopens]
      rfl

/-- A composite of null fields, texts and records of them is written, and its text is read as one
field for each: null as null, a text as itself, and a record as the text of its own composite. Read
on level by level, it gives all of the fields back. -/
theorem parse_encode {fields : List Value} (hne : fields ≠ [])
    (h : ∀ field ∈ fields, Nestable field) :
    ∃ text found, encode fields = .ok text ∧ parse text = .ok found ∧
      List.Forall₂ ReadsAs fields found ∧
      Layout.openAll? (Layout.ofFields fields) found = some fields :=
  composite_restored hne fun field hmem => (h field hmem).restored

/-- A record in a record, with marks in its texts that are escaped at every level. -/
def letter : List Value :=
  [.text " to \"Zoë\" ", .null, .record [.text "", .record [.text "a\\b,(c)", .null], .text "\""]]

theorem parse_encode_letter :
    ∃ text found, encode letter = .ok text ∧ parse text = .ok found ∧
      List.Forall₂ ReadsAs letter found ∧
      Layout.openAll? (Layout.ofFields letter) found = some letter := by
  have hinner : ∀ field ∈ [Value.text "a\\b,(c)", .null], Nestable field := by
    simp [Nestable.text, Nestable.null]
  have houter : ∀ field ∈ [Value.text "", .record [.text "a\\b,(c)", .null], .text "\""],
      Nestable field := by
    simp [Nestable.text, Nestable.record (List.cons_ne_nil _ _) hinner]
  refine parse_encode (List.cons_ne_nil _ _) ?_
  simp [letter, Nestable.text, Nestable.null, Nestable.record (List.cons_ne_nil _ _) houter]

end ObjectRelational.Composite
