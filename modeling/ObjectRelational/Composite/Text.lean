import ObjectRelational.Error
import ObjectRelational.Text.Blank
import ObjectRelational.Value.Display

/-!
# Composite text

The text form of a composite: its fields in parentheses, separated by commas. A null field is empty.
A field with text is quoted, and a quote or backslash in it follows a backslash; truth values and
numbers stand bare. Reading also takes doubled quotes in a quoted field and escapes in a bare one,
and hands back every field that is not null as text.

* `Composite.encode` writes fields, `Composite.parse` reads them;
* `Composite.field` reads one field and leaves the rest of the text.
-/

namespace ObjectRelational.Composite

set_option autoImplicit false

/-! ## Writing -/

/-- Puts a backslash before every quote and backslash. -/
def escape : List Char → List Char
  | [] => []
  | c :: rest => if c = '"' ∨ c = '\\' then '\\' :: c :: escape rest else c :: escape rest

def quoted (text : String) : List Char :=
  '"' :: escape text.toList ++ ['"']

/-- Field texts with commas between them. -/
def joinFields : List (List Char) → List Char
  | [] => []
  | [text] => text
  | text :: rest => text ++ ',' :: joinFields rest

/-- Field texts in parentheses; there must be at least one. -/
def enclose : List (List Char) → Except MappingError (List Char)
  | [] => .error (.malformedComposite "()" .noFields)
  | texts => .ok ('(' :: joinFields texts ++ [')'])

/-- The error for a value that cannot be a field. -/
def unsupported (value : Value) : Except MappingError (List Char) :=
  .error (.malformedComposite value.display (.unsupportedField value.kindName))

mutual

/-- The text of one field. -/
def encodeField : Value → Except MappingError (List Char)
  | .null => .ok []
  | .typed _ value => encodeField value
  | .bool b => .ok [if b then 't' else 'f']
  | .integer _ n => .ok (Number.intChars n.val)
  | .single x => .ok (Number.floatChars .plain x)
  | .double x => .ok (Number.floatChars .plain x)
  | .decimal s => .ok s.toList
  | .text s => .ok (quoted s)
  | .date d => .ok (quoted d.text)
  | .time t => .ok (quoted t.text)
  | .timestamp t => .ok (quoted t.text)
  | .instant i => .ok (quoted i.text)
  | .uuid u => .ok (quoted u.text)
  | .json j => .ok (quoted j.text)
  | .record fields => do
      let inner ← enclose (← encodeFields fields)
      return quoted (String.ofList inner)
  | .bytes b => unsupported (.bytes b)
  | .array items => unsupported (.array items)
  | .point p => unsupported (.point p)

def encodeFields : List Value → Except MappingError (List (List Char))
  | [] => .ok []
  | field :: rest => do
      let text ← encodeField field
      return text :: (← encodeFields rest)

end

/-- The text of a composite; it needs at least one field. -/
def encode (fields : List Value) : Except MappingError String := do
  let text ← enclose (← encodeFields fields)
  return String.ofList text

/-! ## Reading -/

/-- The rest of a quoted field, up to its closing quote. -/
def quotedRest : List Char → Except CompositeFault (List Char × List Char)
  | [] => .error .unterminatedField
  | '\\' :: [] => .error .danglingEscape
  | '\\' :: c :: rest => (quotedRest rest).map fun (text, rest) => (c :: text, rest)
  | '"' :: '"' :: rest => (quotedRest rest).map fun (text, rest) => ('"' :: text, rest)
  | '"' :: rest => .ok ([], rest)
  | c :: rest => (quotedRest rest).map fun (text, rest) => (c :: text, rest)

/-- A bare field, up to a comma or the end. -/
def bareField : List Char → Except CompositeFault (List Char × List Char)
  | [] => .ok ([], [])
  | ',' :: rest => .ok ([], ',' :: rest)
  | '\\' :: [] => .error .danglingEscape
  | '\\' :: c :: rest => (bareField rest).map fun (text, rest) => (c :: text, rest)
  | '"' :: _ => .error .quoteInsideField
  | c :: rest => (bareField rest).map fun (text, rest) => (c :: text, rest)

/-- One field, or none if it is empty, and the text after it. -/
def field : List Char → Except CompositeFault (Option (List Char) × List Char)
  | [] => .ok (none, [])
  | ',' :: rest => .ok (none, ',' :: rest)
  | '"' :: rest => (quotedRest rest).map fun (text, rest) => (some text, rest)
  | text => (bareField text).map fun (text, rest) => (some text, rest)

theorem map_eq_ok {ε α β : Type} {f : α → β} {x : Except ε α} {b : β}
    (h : x.map f = .ok b) : ∃ a, x = .ok a ∧ f a = b := by
  cases x with
  | error e => simp [Except.map] at h
  | ok a => exact ⟨a, rfl, by simpa [Except.map] using h⟩

/-- A reader that puts a character before what it finds reaches no further than the rest. -/
theorem length_of_map_cons {c : Char} {found rest : List Char}
    {x : Except CompositeFault (List Char × List Char)} {n : Nat}
    (h : (x.map fun (text, rest) => (c :: text, rest)) = .ok (found, rest))
    (ih : ∀ {found rest}, x = .ok (found, rest) → rest.length ≤ n) : rest.length ≤ n := by
  obtain ⟨⟨text, r⟩, hx, he⟩ := map_eq_ok h
  simp only [Prod.mk.injEq] at he
  exact he.2 ▸ ih hx

theorem quotedRest_length {text found rest : List Char}
    (h : quotedRest text = .ok (found, rest)) : rest.length ≤ text.length := by
  fun_induction quotedRest text generalizing found rest with
  | case1 => simp at h
  | case2 => simp at h
  | case3 c r ih =>
    exact Nat.le_trans (length_of_map_cons h ih) (by simp only [List.length_cons]; omega)
  | case4 r ih =>
    exact Nat.le_trans (length_of_map_cons h ih) (by simp only [List.length_cons]; omega)
  | case5 r =>
    simp only [Except.ok.injEq, Prod.mk.injEq] at h
    simp [← h.2]
  | case6 c r _ _ _ _ ih =>
    exact Nat.le_trans (length_of_map_cons h ih) (by simp only [List.length_cons]; omega)

theorem bareField_length {text found rest : List Char}
    (h : bareField text = .ok (found, rest)) : rest.length ≤ text.length := by
  fun_induction bareField text generalizing found rest with
  | case1 => simp_all
  | case2 r => simp_all
  | case3 => simp at h
  | case4 c r ih =>
    exact Nat.le_trans (length_of_map_cons h ih) (by simp only [List.length_cons]; omega)
  | case5 => simp at h
  | case6 c r _ _ _ _ ih =>
    exact Nat.le_trans (length_of_map_cons h ih) (by simp only [List.length_cons]; omega)

theorem field_length {text rest : List Char} {found : Option (List Char)}
    (h : field text = .ok (found, rest)) : rest.length ≤ text.length := by
  unfold field at h
  split at h
  · simp_all
  · simp_all
  · next r =>
    obtain ⟨⟨t, r'⟩, hx, he⟩ := map_eq_ok h
    simp only [Prod.mk.injEq] at he
    exact Nat.le_trans (he.2 ▸ quotedRest_length hx) (by simp)
  · obtain ⟨⟨t, r'⟩, hx, he⟩ := map_eq_ok h
    simp only [Prod.mk.injEq] at he
    exact he.2 ▸ bareField_length hx

/-- All fields of a text between parentheses. -/
def fields (text : List Char) : Except CompositeFault (List (Option (List Char))) :=
  match _hfield : field text with
  | .error fault => .error fault
  | .ok (found, []) => .ok [found]
  | .ok (found, c :: rest) =>
      if c = ',' then (fields rest).map (found :: ·)
      else .error (.unexpectedAfterField c)
termination_by text.length
decreasing_by
  have := field_length _hfield
  simp only [List.length_cons] at this
  omega

/-- The text between an opening and a closing parenthesis. -/
def inner? : List Char → Option (List Char)
  | '(' :: rest => if rest.getLast? = some ')' then some rest.dropLast else none
  | _ => none

/-- A field as a value: null, or its text. -/
def fieldValue : Option (List Char) → Value
  | none => .null
  | some text => .text (String.ofList text)

/-- Reads the fields of a composite; white space around the parentheses does not count. -/
def parse (input : String) : Except MappingError (List Value) :=
  match inner? (Text.trim input.toList) with
  | none => .error (.malformedComposite input .notParenthesized)
  | some inner =>
      match fields inner with
      | .ok found => .ok (found.map fieldValue)
      | .error fault => .error (.malformedComposite input fault)

end ObjectRelational.Composite
