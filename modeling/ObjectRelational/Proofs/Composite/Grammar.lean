import Mathlib.Data.List.Forall2
import ObjectRelational.Proofs.Composite.Text
import ObjectRelational.Proofs.Text.Joining

/-! # The grammar of composite text

A composite is a list of slots between parentheses, with commas between them. A slot is empty,
quoted or bare. What a slot holds is said part by part, so that a text is spelled by the slots that
its parts make up, and reading it is a question of finding them.

* `Composite.Slot`: the slots, with how they are written and what they hold;
* `Composite.Spells`: the slots that a text is made of, apart from white space around it;
* `Composite.field_ok`, `Composite.fields_ok`: what is read was spelled;
* `Composite.Slot.chars_append_inj`, `Composite.joinFields_chars_inj`: and in one way only;
* `Composite.parse_of_spelling`: the texts that are read are those that slots spell.
-/

namespace ObjectRelational.Composite

set_option autoImplicit false

/-! ## Slots -/

/-- A part of a quoted slot. -/
inductive QuotedPart where
  | plain (c : Char) (h : c ≠ '"' ∧ c ≠ '\\')
  | escaped (c : Char)
  | doubledQuote

/-- A part of a bare slot. -/
inductive BarePart where
  | plain (c : Char) (h : c ≠ ',' ∧ c ≠ '"' ∧ c ≠ '\\')
  | escaped (c : Char)

inductive Slot where
  | empty
  | quoted (parts : List QuotedPart)
  | bare (first : BarePart) (rest : List BarePart)

namespace QuotedPart

def chars : QuotedPart → List Char
  | plain c _ => [c]
  | escaped c => ['\\', c]
  | doubledQuote => ['"', '"']

/-- The character a part stands for. -/
def char : QuotedPart → Char
  | plain c _ => c
  | escaped c => c
  | doubledQuote => '"'

end QuotedPart

namespace BarePart

def chars : BarePart → List Char
  | plain c _ => [c]
  | escaped c => ['\\', c]

def char : BarePart → Char
  | plain c _ => c
  | escaped c => c

end BarePart

namespace Slot

def chars : Slot → List Char
  | empty => []
  | quoted parts => '"' :: parts.flatMap QuotedPart.chars ++ ['"']
  | bare first rest => (first :: rest).flatMap BarePart.chars

/-- The text of a slot, without escapes; an empty one has none. -/
def text? : Slot → Option (List Char)
  | empty => none
  | quoted parts => some (parts.map QuotedPart.char)
  | bare first rest => some ((first :: rest).map BarePart.char)

/-- Null for an empty slot, else its text. -/
def value (slot : Slot) : Value :=
  match slot.text? with
  | none => .null
  | some text => .text (String.ofList text)

end Slot

/-- One or more slots in parentheses make up a text; white space at its ends does not count. -/
def Spells (slots : List Slot) (input : String) : Prop :=
  slots ≠ [] ∧ Text.trim input.toList = '(' :: joinFields (slots.map Slot.chars) ++ [')']

/-! ## Quoted slots -/

theorem quotedRest_part (part : QuotedPart) (rest : List Char) :
    quotedRest (part.chars ++ rest) =
      (quotedRest rest).map fun (text, rest) => (part.char :: text, rest) := by
  cases part with
  | plain c h =>
    obtain ⟨hquote, hbackslash⟩ := h
    change quotedRest (c :: rest) = _
    rw [quotedRest]
    · rfl
    all_goals simp_all
  | escaped c =>
    change quotedRest ('\\' :: c :: rest) = _
    rw [quotedRest]
    rfl
  | doubledQuote =>
    change quotedRest ('"' :: '"' :: rest) = _
    rw [quotedRest]
    rfl

theorem quotedRest_close (rest : List Char) (h : ∀ c ∈ rest.head?, c ≠ '"') :
    quotedRest ('"' :: rest) = .ok ([], rest) :=
  quotedRest_escape [] rest h

theorem quotedRest_parts (parts : List QuotedPart) (rest : List Char)
    (h : ∀ c ∈ rest.head?, c ≠ '"') :
    quotedRest (parts.flatMap QuotedPart.chars ++ '"' :: rest) =
      .ok (parts.map QuotedPart.char, rest) := by
  induction parts with
  | nil => exact quotedRest_close rest h
  | cons part parts ih =>
    rw [List.flatMap_cons, List.append_assoc, quotedRest_part, ih]
    rfl

/-- A reader that puts the character of a part before what it finds in a tail has read the part and
the parts of the tail; `close` is what stands between the parts and the rest. -/
theorem parts_of_map_cons {α : Type} {chars : α → List Char} {char : α → Char}
    (close : List Char → List Char) {x : Except CompositeFault (List Char × List Char)}
    {tail found rest : List Char} (part : α)
    (h : (x.map fun (text, rest) => (char part :: text, rest)) = .ok (found, rest))
    (ih : ∀ {found rest}, x = .ok (found, rest) →
      ∃ parts, tail = List.flatMap chars parts ++ close rest ∧ found = parts.map char) :
    ∃ parts, chars part ++ tail = List.flatMap chars parts ++ close rest ∧
      found = parts.map char := by
  obtain ⟨⟨text, rest'⟩, hx, heq⟩ := map_eq_ok h
  obtain ⟨rfl, rfl⟩ := Prod.mk.inj heq
  obtain ⟨parts, rfl, rfl⟩ := ih hx
  exact ⟨part :: parts, by simp, rfl⟩

theorem quotedRest_ok {text found rest : List Char} (h : quotedRest text = .ok (found, rest)) :
    ∃ parts, text = List.flatMap QuotedPart.chars parts ++ '"' :: rest ∧
      found = parts.map QuotedPart.char := by
  fun_induction quotedRest text generalizing found rest with
  | case1 => cases h
  | case2 => cases h
  | case3 c tail ih => exact parts_of_map_cons ('"' :: ·) (.escaped c) h ih
  | case4 tail ih => exact parts_of_map_cons ('"' :: ·) .doubledQuote h ih
  | case5 tail =>
    cases h
    exact ⟨[], rfl, rfl⟩
  | case6 c tail hend hescape _ hquote ih =>
    have hplain : c ≠ '"' ∧ c ≠ '\\' := by
      refine ⟨hquote, ?_⟩
      rintro rfl
      cases tail with
      | nil => exact hend rfl rfl
      | cons d tail => exact hescape d tail rfl rfl
    exact parts_of_map_cons ('"' :: ·) (.plain c hplain) h ih

theorem QuotedPart.chars_append_inj {part other : QuotedPart} {text text' : List Char}
    (h : part.chars ++ text = other.chars ++ text') : part = other ∧ text = text' := by
  cases part <;> cases other <;> simp_all [QuotedPart.chars]
  all_goals grind

theorem QuotedPart.chars_append_ne {part : QuotedPart} {text rest : List Char}
    (hrest : ∀ c ∈ rest.head?, c ≠ '"') : part.chars ++ text ≠ '"' :: rest := by
  intro h
  cases part with
  | plain c hplain => exact hplain.1 (List.cons.inj h).1
  | escaped c => exact absurd (List.cons.inj h).1 (by decide)
  | doubledQuote =>
    obtain rfl : '"' :: text = rest := (List.cons.inj h).2
    exact hrest '"' rfl rfl

/-- The quote that closes a slot is the first that is neither escaped nor doubled. -/
theorem quotedParts_inj {parts others : List QuotedPart} {rest rest' : List Char}
    (hrest : ∀ c ∈ rest.head?, c ≠ '"') (hrest' : ∀ c ∈ rest'.head?, c ≠ '"')
    (h : parts.flatMap QuotedPart.chars ++ '"' :: rest =
      others.flatMap QuotedPart.chars ++ '"' :: rest') : parts = others ∧ rest = rest' := by
  induction parts generalizing others with
  | nil =>
    cases others with
    | nil => exact ⟨rfl, (List.cons.inj h).2⟩
    | cons other others =>
      rw [List.flatMap_cons, List.append_assoc] at h
      exact absurd h.symm (QuotedPart.chars_append_ne hrest)
  | cons part parts ih =>
    rw [List.flatMap_cons, List.append_assoc] at h
    cases others with
    | nil => exact absurd h (QuotedPart.chars_append_ne hrest')
    | cons other others =>
      rw [List.flatMap_cons, List.append_assoc] at h
      obtain ⟨rfl, htail⟩ := QuotedPart.chars_append_inj h
      obtain ⟨rfl, rfl⟩ := ih htail
      exact ⟨rfl, rfl⟩

/-! ## Bare slots -/

theorem bareField_part (part : BarePart) (rest : List Char) :
    bareField (part.chars ++ rest) =
      (bareField rest).map fun (text, rest) => (part.char :: text, rest) := by
  cases part with
  | plain c h =>
    obtain ⟨hcomma, hquote, hbackslash⟩ := h
    change bareField (c :: rest) = _
    rw [bareField]
    · rfl
    all_goals simp_all
  | escaped c =>
    change bareField ('\\' :: c :: rest) = _
    rw [bareField]
    rfl

theorem bareField_parts (parts : List BarePart) (rest : List Char)
    (h : ∀ c ∈ rest.head?, c = ',') :
    bareField (parts.flatMap BarePart.chars ++ rest) = .ok (parts.map BarePart.char, rest) := by
  induction parts with
  | nil => exact bareField_append (by simp) h
  | cons part parts ih =>
    rw [List.flatMap_cons, List.append_assoc, bareField_part, ih]
    rfl

theorem bareField_ok {text found rest : List Char} (h : bareField text = .ok (found, rest)) :
    ∃ parts, text = List.flatMap BarePart.chars parts ++ rest ∧
      found = parts.map BarePart.char := by
  fun_induction bareField text generalizing found rest with
  | case1 =>
    cases h
    exact ⟨[], rfl, rfl⟩
  | case2 tail =>
    cases h
    exact ⟨[], rfl, rfl⟩
  | case3 => cases h
  | case4 c tail ih => exact parts_of_map_cons id (.escaped c) h ih
  | case5 => cases h
  | case6 c tail hcomma hend hescape hquote ih =>
    have hplain : c ≠ ',' ∧ c ≠ '"' ∧ c ≠ '\\' := by
      refine ⟨hcomma, hquote, ?_⟩
      rintro rfl
      cases tail with
      | nil => exact hend rfl rfl
      | cons d tail => exact hescape d tail rfl rfl
    exact parts_of_map_cons id (.plain c hplain) h ih

theorem BarePart.chars_append_inj {part other : BarePart} {text text' : List Char}
    (h : part.chars ++ text = other.chars ++ text') : part = other ∧ text = text' := by
  cases part <;> cases other <;> simp_all [BarePart.chars]
  all_goals grind

theorem BarePart.chars_append_ne {part : BarePart} {text rest : List Char}
    (hrest : ∀ c ∈ rest.head?, c = ',') : part.chars ++ text ≠ rest := by
  rintro rfl
  cases part with
  | plain c hplain => exact hplain.1 (hrest c rfl)
  | escaped c => exact absurd (hrest '\\' rfl) (by decide)

/-- A bare slot ends at the first comma that is not escaped. -/
theorem bareParts_inj {parts others : List BarePart} {rest rest' : List Char}
    (hrest : ∀ c ∈ rest.head?, c = ',') (hrest' : ∀ c ∈ rest'.head?, c = ',')
    (h : parts.flatMap BarePart.chars ++ rest = others.flatMap BarePart.chars ++ rest') :
    parts = others ∧ rest = rest' := by
  induction parts generalizing others with
  | nil =>
    cases others with
    | nil => exact ⟨rfl, h⟩
    | cons other others =>
      rw [List.flatMap_cons, List.append_assoc] at h
      exact absurd h.symm (BarePart.chars_append_ne hrest)
  | cons part parts ih =>
    rw [List.flatMap_cons, List.append_assoc] at h
    cases others with
    | nil => exact absurd h (BarePart.chars_append_ne hrest')
    | cons other others =>
      rw [List.flatMap_cons, List.append_assoc] at h
      obtain ⟨rfl, htail⟩ := BarePart.chars_append_inj h
      obtain ⟨rfl, rfl⟩ := ih htail
      exact ⟨rfl, rfl⟩

theorem BarePart.chars_append_ne_quote {part : BarePart} {text rest : List Char} :
    part.chars ++ text ≠ '"' :: rest := by
  intro h
  cases part with
  | plain c hplain => exact hplain.2.1 (List.cons.inj h).1
  | escaped c => exact absurd (List.cons.inj h).1 (by decide)

theorem bareField_comma {c : Char} {tail rest : List Char}
    (h : bareField (c :: tail) = .ok ([], rest)) : c = ',' := by
  rw [bareField.eq_def] at h
  split at h
  case h_2 heq => exact (List.cons.inj heq).1
  all_goals simp_all [Except.map]
  all_goals split at h <;> simp_all

/-! ## One slot -/

theorem field_bare {c : Char} {tail : List Char} (hcomma : c ≠ ',') (hquote : c ≠ '"') :
    field (c :: tail) =
      (bareField (c :: tail)).map fun (text, rest) => (some text, rest) := by
  rw [field]
  all_goals simp_all

theorem Slot.decodes (slot : Slot) : Decodes slot.chars slot.text? := by
  intro rest hrest
  cases slot with
  | empty => exact decodes_nil rest hrest
  | quoted parts =>
    have hend : ∀ c ∈ rest.head?, c ≠ '"' := by
      intro c hc
      rw [hrest c hc]
      decide
    have htext : (Slot.quoted parts).chars ++ rest =
        '"' :: (parts.flatMap QuotedPart.chars ++ '"' :: rest) := by
      simp [Slot.chars]
    rw [htext, field, quotedRest_parts parts rest hend]
    rfl
  | bare first others =>
    have hread := bareField_parts (first :: others) rest hrest
    change field ((first :: others).flatMap BarePart.chars ++ rest) = _
    have hfield : field ((first :: others).flatMap BarePart.chars ++ rest) =
        (bareField ((first :: others).flatMap BarePart.chars ++ rest)).map
          fun (text, rest) => (some text, rest) := by
      rw [List.flatMap_cons, List.append_assoc]
      cases first with
      | plain c h => exact field_bare h.1 h.2.1
      | escaped c => exact field_bare (by decide) (by decide)
    rw [hfield, hread]
    rfl

theorem field_ok {text rest : List Char} {found : Option (List Char)}
    (h : field text = .ok (found, rest)) :
    ∃ slot : Slot, text = slot.chars ++ rest ∧ found = slot.text? := by
  cases text with
  | nil =>
    cases h
    exact ⟨.empty, rfl, rfl⟩
  | cons c tail =>
    by_cases hcomma : c = ','
    · subst hcomma
      cases h
      exact ⟨.empty, rfl, rfl⟩
    · by_cases hquote : c = '"'
      · subst hquote
        obtain ⟨⟨found', rest'⟩, hread, heq⟩ := map_eq_ok h
        obtain ⟨rfl, rfl⟩ := Prod.mk.inj heq
        obtain ⟨parts, rfl, rfl⟩ := quotedRest_ok hread
        exact ⟨.quoted parts, by simp [Slot.chars], rfl⟩
      · rw [field_bare hcomma hquote] at h
        obtain ⟨⟨found', rest'⟩, hread, heq⟩ := map_eq_ok h
        obtain ⟨rfl, rfl⟩ := Prod.mk.inj heq
        obtain ⟨parts, htext, rfl⟩ := bareField_ok hread
        cases parts with
        | nil => exact absurd (bareField_comma hread) hcomma
        | cons first others => exact ⟨.bare first others, htext, rfl⟩

/-- The first character of a slot tells its kind, and what follows a slot tells where it ends. -/
theorem Slot.chars_append_inj {slot other : Slot} {rest rest' : List Char}
    (hrest : ∀ c ∈ rest.head?, c = ',') (hrest' : ∀ c ∈ rest'.head?, c = ',')
    (h : slot.chars ++ rest = other.chars ++ rest') : slot = other ∧ rest = rest' := by
  have hquote : ∀ {text rest : List Char}, (∀ c ∈ rest.head?, c = ',') → '"' :: text ≠ rest := by
    rintro text _ hcomma rfl
    exact absurd (hcomma '"' rfl) (by decide)
  have hend : ∀ {rest : List Char}, (∀ c ∈ rest.head?, c = ',') → ∀ c ∈ rest.head?, c ≠ '"' := by
    intro rest hcomma c hc
    rw [hcomma c hc]
    decide
  cases slot with
  | empty =>
    cases other with
    | empty => exact ⟨rfl, h⟩
    | quoted parts => exact absurd h.symm (hquote hrest)
    | bare first others =>
      simp only [Slot.chars, List.flatMap_cons, List.append_assoc] at h
      exact absurd h.symm (BarePart.chars_append_ne hrest)
  | quoted parts =>
    cases other with
    | empty => exact absurd h (hquote hrest')
    | quoted others =>
      simp only [Slot.chars, List.cons_append, List.append_assoc, List.nil_append] at h
      obtain ⟨rfl, rfl⟩ := quotedParts_inj (hend hrest) (hend hrest') (List.cons.inj h).2
      exact ⟨rfl, rfl⟩
    | bare first others =>
      simp only [Slot.chars, List.flatMap_cons, List.append_assoc] at h
      exact absurd h.symm BarePart.chars_append_ne_quote
  | bare first others =>
    cases other with
    | empty =>
      simp only [Slot.chars, List.flatMap_cons, List.append_assoc] at h
      exact absurd h (BarePart.chars_append_ne hrest')
    | quoted parts =>
      simp only [Slot.chars, List.flatMap_cons, List.append_assoc] at h
      exact absurd h BarePart.chars_append_ne_quote
    | bare first' others' =>
      obtain ⟨heq, rfl⟩ := bareParts_inj hrest hrest' h
      obtain ⟨rfl, rfl⟩ := List.cons.inj heq
      exact ⟨rfl, rfl⟩

/-! ## All slots -/

theorem joinFields_cons (text : List Char) (texts : List (List Char)) :
    joinFields (text :: texts) = text ++ texts.flatMap (',' :: ·) := by
  induction texts generalizing text with
  | nil => simp [joinFields]
  | cons second texts ih =>
    change text ++ ',' :: joinFields (second :: texts) = _
    rw [ih, List.flatMap_cons]
    rfl

theorem fields_slots {slots : List Slot} (hne : slots ≠ []) :
    fields (joinFields (slots.map Slot.chars)) = .ok (slots.map Slot.text?) := by
  have hdecodes : List.Forall₂ Decodes (slots.map Slot.chars) (slots.map Slot.text?) := by
    rw [List.forall₂_map_left_iff, List.forall₂_map_right_iff, List.forall₂_same]
    exact fun slot _ => slot.decodes
  exact fields_joinFields hdecodes (by simpa using hne)

theorem fields_ok {text : List Char} {found : List (Option (List Char))}
    (h : fields text = .ok found) :
    ∃ slots : List Slot, slots ≠ [] ∧ text = joinFields (slots.map Slot.chars) ∧
      found = slots.map Slot.text? := by
  fun_induction fields text generalizing found with
  | case1 text fault hfield => cases h
  | case2 text first hfield =>
    cases h
    obtain ⟨slot, rfl, rfl⟩ := field_ok hfield
    exact ⟨[slot], by simp, by simp [joinFields], rfl⟩
  | case3 text first rest hfield ih =>
    obtain ⟨others, hothers, rfl⟩ := map_eq_ok h
    obtain ⟨slot, rfl, rfl⟩ := field_ok hfield
    obtain ⟨slots, hne, rfl, rfl⟩ := ih hothers
    obtain ⟨second, slots, rfl⟩ := List.exists_cons_of_ne_nil hne
    exact ⟨slot :: second :: slots, by simp, rfl, rfl⟩
  | case4 text first c rest hfield hcomma => cases h

theorem joinFields_chars_inj {slots others : List Slot} (hne : slots ≠ []) (hne' : others ≠ [])
    (h : joinFields (slots.map Slot.chars) = joinFields (others.map Slot.chars)) :
    slots = others := by
  obtain ⟨slot, slots, rfl⟩ := List.exists_cons_of_ne_nil hne
  obtain ⟨other, others, rfl⟩ := List.exists_cons_of_ne_nil hne'
  have hslots : ∀ x y : Slot, Text.Separates (· = ',') Slot.chars x y := fun _ _ _ _ =>
    Slot.chars_append_inj
  have hend : slot.chars ++ ((slots.map Slot.chars).flatMap (',' :: ·) ++ []) =
      other.chars ++ ((others.map Slot.chars).flatMap (',' :: ·) ++ []) := by
    simpa only [List.map_cons, joinFields_cons, List.append_nil] using h
  exact (Text.Separates.joined (fun x _ y _ => hslots x y) rfl (by simp) (by simp) hend).1

/-- As many texts with commas in none but one of them, which it is being known. -/
theorem joinFields_inj {texts others : List (List Char)} {free : Nat}
    (hlength : texts.length = others.length)
    (h : ∀ i text, texts[i]? = some text → i ≠ free → ',' ∉ text)
    (h' : ∀ i text, others[i]? = some text → i ≠ free → ',' ∉ text)
    (heq : joinFields texts = joinFields others) : texts = others := by
  -- In front of the free text the first commas part the texts, and behind it the last ones do.
  induction texts generalizing others free with
  | nil => exact (List.length_eq_zero_iff.1 hlength.symm).symm
  | cons text texts ih =>
    obtain ⟨other, others, rfl⟩ := List.exists_cons_of_length_eq_add_one hlength.symm
    rw [List.length_cons, List.length_cons, Nat.add_right_cancel_iff] at hlength
    cases free with
    | zero =>
      have hbehind : ∀ {row : List (List Char)} {first : List Char},
          (∀ i t, (first :: row)[i]? = some t → i ≠ 0 → ',' ∉ t) → ∀ t ∈ row, ',' ∉ t := by
        intro row first hrow t ht
        obtain ⟨i, hi⟩ := List.mem_iff_getElem?.1 ht
        exact hrow (i + 1) t hi (Nat.succ_ne_zero i)
      rw [joinFields_cons, joinFields_cons] at heq
      obtain ⟨rfl, rfl⟩ := Text.last_commas_inj hlength (hbehind h) (hbehind h') heq
      rfl
    | succ free =>
      have htext := h 0 text rfl (Nat.succ_ne_zero free).symm
      have hother := h' 0 other rfl (Nat.succ_ne_zero free).symm
      cases texts with
      | nil =>
        obtain rfl := List.length_eq_zero_iff.1 hlength.symm
        exact congrArg (fun t => [t]) heq
      | cons second texts =>
        obtain ⟨second', others, rfl⟩ := List.exists_cons_of_length_eq_add_one hlength.symm
        obtain ⟨rfl, hrest⟩ := Text.append_mark_inj htext hother heq
        rw [ih hlength (fun i t hi hne => h (i + 1) t hi (Nat.succ_ne_succ_iff.2 hne))
          (fun i t hi hne => h' (i + 1) t hi (Nat.succ_ne_succ_iff.2 hne)) hrest]

theorem inner?_eq_some {text inner : List Char} :
    inner? text = some inner ↔ text = '(' :: inner ++ [')'] := by
  constructor
  · intro h
    unfold inner? at h
    split at h
    · next rest =>
      split at h
      · next hlast =>
        obtain rfl := Option.some.inj h
        rw [List.cons_append, List.dropLast_append_getLast? _ hlast]
      · cases h
    · cases h
  · rintro rfl
    simp [inner?]

/-! ## The whole text -/

theorem Spells.unique {slots others : List Slot} {input : String} (h : Spells slots input)
    (h' : Spells others input) : slots = others := by
  have htext := (List.cons.inj (h.2.symm.trans h'.2)).2
  exact joinFields_chars_inj h.1 h'.1 (List.append_cancel_right htext)

theorem Spells.parse {slots : List Slot} {input : String} (h : Spells slots input) :
    parse input = .ok (slots.map Slot.value) := by
  rw [Composite.parse, inner?_eq_some.2 h.2]
  dsimp only
  rw [fields_slots h.1]
  dsimp only
  rw [List.map_map]
  rfl

theorem parse_ok {input : String} {values : List Value} (h : parse input = .ok values) :
    ∃ slots, Spells slots input ∧ values = slots.map Slot.value := by
  rw [parse] at h
  split at h
  · cases h
  · next inner hinner =>
    split at h
    · next found hfound =>
      obtain ⟨slots, hne, rfl, rfl⟩ := fields_ok hfound
      obtain rfl := Except.ok.inj h
      refine ⟨slots, ⟨hne, inner?_eq_some.1 hinner⟩, ?_⟩
      rw [List.map_map]
      rfl
    · cases h

theorem parse_error {input : String} {e : MappingError} (h : parse input = .error e) :
    ∃ fault, e = .malformedComposite input fault := by
  rw [parse] at h
  split at h
  · exact ⟨_, (Except.error.inj h).symm⟩
  · split at h
    · cases h
    · exact ⟨_, (Except.error.inj h).symm⟩

/-- A text is read as a composite if and only if slots spell it, which then are the only ones; what
is read is their values. Any other text is refused, with the text as it was given. -/
theorem parse_of_spelling (input : String) :
    (∀ values, parse input = .ok values ↔
      ∃ slots, Spells slots input ∧ values = slots.map Slot.value) ∧
    (∀ slots others, Spells slots input → Spells others input → slots = others) ∧
    ((¬ ∃ slots, Spells slots input) ↔
      ∃ fault, parse input = .error (.malformedComposite input fault)) := by
  refine ⟨fun values => ⟨parse_ok, ?_⟩, fun slots others => Spells.unique, ?_, ?_⟩
  · rintro ⟨slots, hslots, rfl⟩
    exact hslots.parse
  · intro hnone
    cases hparse : parse input with
    | ok values =>
      obtain ⟨slots, hslots, -⟩ := parse_ok hparse
      exact absurd ⟨slots, hslots⟩ hnone
    | error e =>
      obtain ⟨fault, rfl⟩ := parse_error hparse
      exact ⟨fault, rfl⟩
  · rintro ⟨fault, herror⟩ ⟨slots, hslots⟩
    cases herror.symm.trans hslots.parse

end ObjectRelational.Composite
