import ObjectRelational.Composite.Text
import ObjectRelational.Proofs.Number.FloatText

/-! # Composite text reads back

A field is read up to the comma or the end that follows it, whatever stands in it: a quoted field
by its closing quote, which no escape lets through early, and a bare one because it has no comma,
quote or backslash. So the fields of a composite come back one for one.

* `Composite.Decodes`: what a field text reads as in front of a comma or of the end;
* `Composite.fields_joinFields`, `Composite.parse_enclose`: all fields of a composite.
-/

namespace ObjectRelational.Composite

set_option autoImplicit false

/-! ## One field -/

/-- A field text reads as a field, in front of the end and of a comma. -/
def Decodes (text : List Char) (found : Option (List Char)) : Prop :=
  ∀ rest : List Char, (∀ c ∈ rest.head?, c = ',') → field (text ++ rest) = .ok (found, rest)

theorem decodes_nil : Decodes [] none := by
  intro rest hrest
  cases rest with
  | nil => rfl
  | cons c rest =>
    obtain rfl := hrest c rfl
    rfl

/-- What is escaped reads back up to the quote after it, unless a second quote follows. -/
theorem quotedRest_escape (text rest : List Char) (hrest : ∀ c ∈ rest.head?, c ≠ '"') :
    quotedRest (escape text ++ '"' :: rest) = .ok (text, rest) := by
  induction text with
  | nil =>
    change quotedRest ('"' :: rest) = _
    cases rest with
    | nil => rfl
    | cons c rest =>
      have hc : c ≠ '"' := hrest c rfl
      rw [quotedRest.eq_def]
      split <;> grind
  | cons c text ih =>
    -- A quote or backslash of the text is taken with the backslash that was put before it.
    by_cases hspecial : c = '"' ∨ c = '\\'
    · have hescape : escape (c :: text) = '\\' :: c :: escape text := by
        rw [escape, if_pos hspecial]
      rw [hescape, List.cons_append, List.cons_append, quotedRest, ih]
      rfl
    · have hescape : escape (c :: text) = c :: escape text := by
        rw [escape, if_neg hspecial]
      obtain ⟨hquote, hbackslash⟩ := not_or.1 hspecial
      rw [hescape, List.cons_append, quotedRest, ih]
      · rfl
      all_goals simp_all

theorem decodes_quoted (text : String) : Decodes (quoted text) (some text.toList) := by
  intro rest hrest
  have hcomma : ∀ c ∈ rest.head?, c ≠ '"' := by
    intro c hc
    rw [hrest c hc]
    decide
  have htext : quoted text ++ rest = '"' :: (escape text.toList ++ '"' :: rest) := by
    simp [quoted]
  rw [htext, field, quotedRest_escape text.toList rest hcomma]
  rfl

/-- A text that stands for itself outside quotes. -/
structure Bare (text : List Char) : Prop where
  ne_nil : text ≠ []
  plain : ∀ c ∈ text, c ≠ ',' ∧ c ≠ '"' ∧ c ≠ '\\'

theorem bareField_append {text rest : List Char} (h : ∀ c ∈ text, c ≠ ',' ∧ c ≠ '"' ∧ c ≠ '\\')
    (hrest : ∀ c ∈ rest.head?, c = ',') : bareField (text ++ rest) = .ok (text, rest) := by
  induction text with
  | nil =>
    cases rest with
    | nil => rfl
    | cons c rest =>
      obtain rfl := hrest c rfl
      rfl
  | cons c text ih =>
    obtain ⟨hcomma, hquote, hbackslash⟩ := h c List.mem_cons_self
    have hread := ih fun d hd => h d (List.mem_cons_of_mem c hd)
    rw [List.cons_append, bareField, hread]
    · rfl
    all_goals simp_all

theorem Bare.decodes {text : List Char} (h : Bare text) : Decodes text (some text) := by
  intro rest hrest
  obtain ⟨c, tail, rfl⟩ := List.exists_cons_of_ne_nil h.ne_nil
  obtain ⟨hcomma, hquote, -⟩ := h.plain c List.mem_cons_self
  have hread := bareField_append h.plain hrest
  rw [List.cons_append] at hread ⊢
  rw [field, hread]
  · rfl
  all_goals simp_all

theorem bare_of_digits {text extra : List Char} (hne : text ≠ [])
    (h : ∀ c ∈ text, c.isDigit = true ∨ c ∈ extra)
    (hextra : ∀ c ∈ extra, c ≠ ',' ∧ c ≠ '"' ∧ c ≠ '\\') : Bare text := by
  refine ⟨hne, fun c hc => ?_⟩
  rcases h c hc with hdigit | hmem
  · refine ⟨?_, ?_, ?_⟩ <;> rintro rfl <;> exact absurd hdigit (by decide)
  · exact hextra c hmem

theorem bare_bool (b : Bool) : Bare [if b then 't' else 'f'] := by
  refine ⟨List.cons_ne_nil _ _, ?_⟩
  cases b <;> simp

theorem bare_intChars (n : Int) : Bare (Number.intChars n) :=
  bare_of_digits (Number.intChars_ne_nil n)
    (fun c hc => (Number.mem_intChars hc).imp_right List.mem_singleton.2) (by simp)

theorem bare_floatChars {format : BinaryFormat} (covered : format.Covered)
    (x : BinaryFloat format) : Bare (Number.floatChars .plain x) :=
  bare_of_digits (Number.floatChars_ne_nil covered x)
    (fun c hc => Number.mem_floatChars covered hc) (by simp)

/-! ## All fields -/

theorem fields_last {text : List Char} {found : Option (List Char)}
    (h : field text = .ok (found, [])) : fields text = .ok [found] := by
  rw [fields]
  split <;> simp_all

theorem fields_comma {text rest : List Char} {found : Option (List Char)}
    (h : field text = .ok (found, ',' :: rest)) :
    fields text = (fields rest).map (found :: ·) := by
  rw [fields]
  split <;> simp_all

theorem fields_joinFields {texts : List (List Char)} {found : List (Option (List Char))}
    (h : List.Forall₂ Decodes texts found) (hne : texts ≠ []) :
    fields (joinFields texts) = .ok found := by
  induction h with
  | nil => exact absurd rfl hne
  | @cons text slot texts found htext hrest ih =>
    cases texts with
    | nil =>
      cases hrest
      have hend := htext [] (by simp)
      rw [List.append_nil] at hend
      exact fields_last hend
    | cons second others =>
      have hcomma := fields_comma (htext (',' :: joinFields (second :: others)) (by simp))
      change fields (text ++ ',' :: joinFields (second :: others)) = _
      rw [hcomma, ih (List.cons_ne_nil _ _)]
      rfl

/-- The fields of a composite read back from its text. -/
theorem parse_enclose {texts : List (List Char)} {found : List (Option (List Char))}
    (h : List.Forall₂ Decodes texts found) (hne : texts ≠ []) :
    ∃ text, enclose texts = .ok text ∧ parse (String.ofList text) = .ok (found.map fieldValue) := by
  refine ⟨'(' :: joinFields texts ++ [')'], ?_, ?_⟩
  · cases texts with
    | nil => exact absurd rfl hne
    | cons text texts => rfl
  · have htrim : Text.trim ('(' :: joinFields texts ++ [')']) = '(' :: (joinFields texts ++ [')']) :=
      Text.trim_of_ends _ (by decide) (by decide)
    have hinner : inner? ('(' :: (joinFields texts ++ [')'])) = some (joinFields texts) := by
      simp [inner?]
    rw [parse, String.toList_ofList, htrim, hinner]
    dsimp only
    rw [fields_joinFields h hne]

end ObjectRelational.Composite
