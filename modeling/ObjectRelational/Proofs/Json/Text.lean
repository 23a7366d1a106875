import ObjectRelational.Json.Reading
import ObjectRelational.Proofs.Number.DocumentText
import ObjectRelational.Proofs.Text.Joining

/-! # Documents by their texts

The first character of a document tells its kind. A string ends at the first quote that is not
escaped, and a number where its characters end; arrays and objects end at their own brackets. So a
document is known by its text, also where more text follows.

* `Json.pieces?_escaped`, `Json.chars?_pieces`: the characters of a string read back from their
  escapes;
* `Json.Finite`: documents whose numbers are all numbers;
* `Json.Finite.separates`, `Json.text_inj`: documents of one text are the same.
-/

namespace ObjectRelational.Json

set_option autoImplicit false

open Number (IsNumberChar)
open Text (Separates)
open WrittenJson (pieces?)

/-! ## Strings -/

/-- How a character reads where it stands in a written string: control characters without a letter
of their own are given by their codes. -/
def piece (c : Char) : StringPiece :=
  if c.toNat < 0x20 ∧ c ∉ ['\x08', '\t', '\n', '\x0c', '\r'] then .unit c.toNat else .char c

theorem hexUnit?_control {n : Nat} (h : n < 0x20) :
    WrittenJson.hexUnit? '0' '0' (Text.hexDigit (n / 16)) (Text.hexDigit n) = some n := by
  have hall : ∀ n < 0x20,
      WrittenJson.hexUnit? '0' '0' (Text.hexDigit (n / 16)) (Text.hexDigit n) = some n := by decide
  exact hall n h

theorem pieces?_letter {e c : Char} (he : WrittenJson.escaped? e = some c) (hu : e ≠ 'u')
    (rest : List Char) : pieces? ('\\' :: e :: rest) =
      (pieces? rest).map fun (pieces, rest) => (.char c :: pieces, rest) := by
  rw [pieces?]
  · rw [he]
    cases pieces? rest <;> rfl
  · rintro _ _ _ _ _ rfl
    exact absurd rfl hu

theorem pieces?_plain {c : Char} (hquote : c ≠ '"') (hbackslash : c ≠ '\\')
    (hcontrol : ¬ c.toNat < 0x20) (rest : List Char) : pieces? (c :: rest) =
      (pieces? rest).map fun (pieces, rest) => (.char c :: pieces, rest) := by
  rw [pieces?]
  · rw [if_neg (by simp [hbackslash, hcontrol])]
    cases pieces? rest <;> rfl
  all_goals simp_all

/-- What is written of a character reads back as one piece. -/
theorem pieces?_escapeChar (c : Char) (rest : List Char) :
    pieces? (escapeChar c ++ rest) =
      (pieces? rest).map fun (pieces, rest) => (piece c :: pieces, rest) := by
  by_cases hletter : c ∈ ['"', '\\', '\x08', '\t', '\n', '\x0c', '\r']
  · simp only [List.mem_cons, List.not_mem_nil, or_false] at hletter
    rcases hletter with rfl | rfl | rfl | rfl | rfl | rfl | rfl
    all_goals exact pieces?_letter rfl (by decide) rest
  · simp only [List.mem_cons, List.not_mem_nil, or_false, not_or] at hletter
    obtain ⟨hquote, hbackslash, hb, ht, hn, hf, hr⟩ := hletter
    unfold escapeChar piece
    simp only [if_neg hquote, if_neg hbackslash, if_neg hb, if_neg ht, if_neg hn, if_neg hf, if_neg hr]
    by_cases hcontrol : c.toNat < 0x20
    · rw [if_pos hcontrol, if_pos (by simp_all)]
      change pieces? ('\\' :: 'u' :: '0' :: '0' :: _ :: _ :: rest) = _
      rw [pieces?, hexUnit?_control hcontrol]
      cases pieces? rest <;> rfl
    · rw [if_neg hcontrol, if_neg (by simp_all)]
      exact pieces?_plain hquote hbackslash hcontrol rest

theorem chars?_unit {code : Nat} (h : code < 0xD800) (rest : List StringPiece) :
    StringPiece.chars? (.unit code :: rest) =
      (StringPiece.chars? rest).map (Char.ofNat code :: ·) := by
  conv_lhs => unfold StringPiece.chars?
  split
  · next heq => cases heq
  · next heq => cases heq
  · next heq =>
    cases heq
    rw [if_neg (by omega), if_neg (by omega)]
  · next heq =>
    cases heq
    rw [if_neg (by omega)]

theorem chars?_pieces (text : List Char) : StringPiece.chars? (text.map piece) = some text := by
  induction text with
  | nil => rfl
  | cons c text ih =>
    rw [List.map_cons, piece]
    split
    · next h =>
      rw [chars?_unit (by omega), ih, Char.ofNat_toNat]
      rfl
    · rw [StringPiece.chars?, ih]
      rfl

theorem pieces?_escaped (text rest : List Char) :
    pieces? (text.flatMap escapeChar ++ '"' :: rest) = some (text.map piece, rest) := by
  induction text with
  | nil => rfl
  | cons c text ih =>
    rw [List.flatMap_cons, List.append_assoc, pieces?_escapeChar, ih]
    rfl

theorem stringChars_append (s : String) (rest : List Char) :
    stringChars s ++ rest = '"' :: (s.toList.flatMap escapeChar ++ '"' :: rest) := by
  simp [stringChars]

theorem stringChars_append_inj {s t : String} {rest rest' : List Char}
    (h : stringChars s ++ rest = stringChars t ++ rest') : s = t ∧ rest = rest' := by
  rw [stringChars_append, stringChars_append] at h
  have hread := congrArg pieces? (List.cons.inj h).2
  rw [pieces?_escaped, pieces?_escaped] at hread
  obtain ⟨hpieces, rfl⟩ := Prod.mk.inj (Option.some.inj hread)
  have hchars := congrArg StringPiece.chars? hpieces
  rw [chars?_pieces, chars?_pieces] at hchars
  exact ⟨String.toList_injective (Option.some.inj hchars), rfl⟩

/-! ## Kinds -/

/-- The kinds of documents. -/
inductive Kind where
  | null
  | bool
  | number
  | string
  | array
  | object

def kind : Json → Kind
  | .null => .null
  | .bool _ => .bool
  | .number _ => .number
  | .string _ => .string
  | .array _ => .array
  | .object _ => .object

/-- The kind of document that starts with a character. -/
def Kind.ofFirst (c : Char) : Kind :=
  if c = 'n' then .null
  else if c = 't' ∨ c = 'f' then .bool
  else if c = '"' then .string
  else if c = '[' then .array
  else if c = '\x7b' then .object
  else .number

/-- The characters that end a document within another one. -/
def IsEnd (c : Char) : Prop :=
  c = ',' ∨ c = ']' ∨ c = '\x7d'

theorem ne_of_isNumberChar {c : Char} (h : IsNumberChar c) :
    ∀ d ∈ ['n', 't', 'f', '"', '[', '\x7b', ' ', '\n', '\t', '\r'], c ≠ d := by
  rintro _ hd rfl
  revert h
  simp only [List.mem_cons, List.not_mem_nil, or_false] at hd
  rcases hd with rfl | rfl | rfl | rfl | rfl | rfl | rfl | rfl | rfl | rfl <;> simp [IsNumberChar]

theorem ofFirst_of_isNumberChar {c : Char} (h : IsNumberChar c) : Kind.ofFirst c = .number := by
  have hne := ne_of_isNumberChar h
  simp [Kind.ofFirst, hne]

theorem IsEnd.not_isNumberChar {c : Char} (h : IsEnd c) : ¬ IsNumberChar c := by
  rcases h with rfl | rfl | rfl <;> simp [IsNumberChar]

/-! ## Documents -/

/-- Documents whose numbers are all numbers. -/
inductive Finite : Json → Prop
  | null : Finite .null
  | bool (b : Bool) : Finite (.bool b)
  | number {n : JsonNumber} (h : n.IsFinite) : Finite (.number n)
  | string (s : String) : Finite (.string s)
  | array {items : List Json} (h : ∀ item ∈ items, Finite item) : Finite (.array items)
  | object {members : List (String × Json)} (h : ∀ member ∈ members, Finite member.2) :
      Finite (.object members)

theorem Finite.first {j : Json} (h : j.Finite) :
    ∃ c text, chars j = c :: text ∧ Kind.ofFirst c = j.kind ∧ ¬ IsEnd c := by
  have hletter : ∀ c text, ¬ IsEnd c → ∃ c' text', c :: text = c' :: text' ∧
      Kind.ofFirst c' = Kind.ofFirst c ∧ ¬ IsEnd c' := fun c text hc => ⟨c, text, rfl, rfl, hc⟩
  cases h with
  | null => exact hletter 'n' _ (by simp [IsEnd])
  | bool b =>
    cases b with
    | false => exact hletter 'f' _ (by simp [IsEnd])
    | true => exact hletter 't' _ (by simp [IsEnd])
  | number h =>
    obtain ⟨c, text, htext, hc⟩ := numberChars_head h
    exact ⟨c, text, htext, ofFirst_of_isNumberChar hc, fun hend => hend.not_isNumberChar hc⟩
  | string s => exact hletter '"' _ (by simp [IsEnd])
  | array h => exact hletter '[' _ (by simp [IsEnd])
  | object h => exact hletter '\x7b' _ (by simp [IsEnd])

theorem Finite.kind_eq {j k : Json} (hj : j.Finite) (hk : k.Finite) {rest rest' : List Char}
    (h : chars j ++ rest = chars k ++ rest') : j.kind = k.kind := by
  obtain ⟨c, text, hchars, hkind, -⟩ := hj.first
  obtain ⟨c', text', hchars', hkind', -⟩ := hk.first
  rw [hchars, hchars'] at h
  obtain ⟨rfl, -⟩ := List.cons.inj h
  exact hkind.symm.trans hkind'

def memberChars (member : String × Json) : List Char :=
  stringChars member.1 ++ ':' :: chars member.2

theorem itemsChars_cons (item : Json) (items : List Json) :
    itemsChars (item :: items) = chars item ++ (items.map chars).flatMap (',' :: ·) := by
  induction items generalizing item with
  | nil => simp [itemsChars]
  | cons second items ih =>
    rw [List.map_cons, List.flatMap_cons, List.cons_append, ← ih]
    rfl

theorem membersChars_cons (member : String × Json) (members : List (String × Json)) :
    membersChars (member :: members) =
      memberChars member ++ (members.map memberChars).flatMap (',' :: ·) := by
  induction members generalizing member with
  | nil => simp [membersChars, memberChars]
  | cons second members ih =>
    rw [List.map_cons, List.flatMap_cons, List.cons_append, ← ih, memberChars]
    rfl

theorem separates_member {member member' : String × Json}
    (h : Separates IsEnd chars member.2 member'.2) :
    Separates IsEnd memberChars member member' := by
  intro rest rest' hrest hrest' heq
  simp only [memberChars, List.append_assoc, List.cons_append] at heq
  obtain ⟨hkey, htail⟩ := stringChars_append_inj heq
  obtain ⟨hvalue, hrest⟩ := h _ _ hrest hrest' (List.cons.inj htail).2
  exact ⟨Prod.ext hkey hvalue, hrest⟩

theorem separates_number {m n : JsonNumber} (hm : m.IsFinite) (hn : n.IsFinite) :
    Separates IsEnd numberChars m n := by
  intro rest rest' hrest hrest' h
  obtain ⟨hchars, hrest⟩ := Text.append_inj_of_forall
    (fun c => isNumberChar_of_mem_numberChars hm) (fun c => isNumberChar_of_mem_numberChars hn)
    (fun c hc => (hrest c hc).not_isNumberChar) (fun c hc => (hrest' c hc).not_isNumberChar) h
  exact ⟨numberChars_inj hm hn hchars, hrest⟩

/-- A finite document ends, in a text where a comma or a bracket follows it, where its own text does,
and no other document has this text. -/
theorem Finite.separates {j k : Json} (hj : j.Finite) (hk : k.Finite) :
    Separates IsEnd chars j k := by
  induction hj generalizing k with
  | null =>
    intro rest rest' _ _ h
    have hkind := Finite.null.kind_eq hk h
    cases hk <;> cases hkind
    exact ⟨rfl, List.append_cancel_left h⟩
  | bool b =>
    intro rest rest' _ _ h
    have hkind := (Finite.bool b).kind_eq hk h
    cases hk <;> cases hkind
    next b' =>
    obtain rfl : b = b' := by
      cases b <;> cases b' <;> first | rfl | cases (List.cons.inj h).1
    exact ⟨rfl, List.append_cancel_left h⟩
  | number hm =>
    intro rest rest' hrest hrest' h
    have hkind := (Finite.number hm).kind_eq hk h
    cases hk <;> cases hkind
    next hn =>
    obtain ⟨rfl, hrest⟩ := separates_number hm hn _ _ hrest hrest' h
    exact ⟨rfl, hrest⟩
  | string s =>
    intro rest rest' _ _ h
    have hkind := (Finite.string s).kind_eq hk h
    cases hk <;> cases hkind
    obtain ⟨rfl, hrest⟩ := stringChars_append_inj h
    exact ⟨rfl, hrest⟩
  | array hitems ih =>
    intro rest rest' _ _ h
    have hkind := (Finite.array hitems).kind_eq hk h
    cases hk <;> cases hkind
    next hothers =>
    simp only [chars, List.cons_append, List.append_assoc, List.nil_append] at h
    have hfirst : ∀ item : Json, item.Finite → ∃ c text, chars item = c :: text ∧ c ≠ ']' := by
      intro item hitem
      obtain ⟨c, text, hchars, -, hend⟩ := hitem.first
      exact ⟨c, text, hchars, fun hc => hend (.inr (.inl hc))⟩
    obtain ⟨rfl, hrest⟩ := Separates.enclosed rfl itemsChars_cons
      (fun x hx y hy => ih x hx (hothers y hy)) (.inl rfl) ⟨.inr (.inl rfl), by decide⟩
      (fun item hitem => hfirst item (hitem.elim (hitems item) (hothers item))) (List.cons.inj h).2
    exact ⟨rfl, hrest⟩
  | object hmembers ih =>
    intro rest rest' _ _ h
    have hkind := (Finite.object hmembers).kind_eq hk h
    cases hk <;> cases hkind
    next hothers =>
    simp only [chars, List.cons_append, List.append_assoc, List.nil_append] at h
    obtain ⟨rfl, hrest⟩ := Separates.enclosed rfl membersChars_cons
      (fun x hx y hy => separates_member (ih x hx (hothers y hy))) (.inl rfl)
      ⟨.inr (.inr rfl), by decide⟩ (fun member _ => ⟨'"', _, rfl, by decide⟩) (List.cons.inj h).2
    exact ⟨rfl, hrest⟩

theorem text_inj {j k : Json} (hj : j.Finite) (hk : k.Finite) (h : j.text = k.text) : j = k := by
  have hchars : chars j ++ [] = chars k ++ [] := by
    rw [List.append_nil, List.append_nil]
    exact String.ofList_injective h
  exact (hj.separates hk [] [] (by simp) (by simp) hchars).1

end ObjectRelational.Json
