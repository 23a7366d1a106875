import Mathlib.Data.List.Induction
import ObjectRelational.Proofs.Text.Reading

/-! # Texts between commas

If the texts of things show where they end, so does a row of them with commas between, and it tells
which things they are.

* `Text.Separates`: texts that show where they end and of what they are;
* `Text.Separates.joined`, `Text.Separates.enclosed`: rows of such texts.
-/

namespace ObjectRelational.Text

set_option autoImplicit false

variable {α : Type} {chars : α → List Char} {stop : Char → Prop}

/-- What is written of two things in front of a character that they stop at is the same for the same
thing only, and then so is what follows. -/
def Separates (stop : Char → Prop) (chars : α → List Char) (x y : α) : Prop :=
  ∀ rest rest' : List Char, (∀ c ∈ rest.head?, stop c) → (∀ c ∈ rest'.head?, stop c) →
    chars x ++ rest = chars y ++ rest' → x = y ∧ rest = rest'

theorem head_commas (texts : List (List Char)) :
    ∀ c ∈ (texts.flatMap (',' :: ·)).head?, c = ',' := by
  cases texts <;> simp

variable {xs ys : List α} {rest rest' : List Char}

/-- Commas stop a text, and so does what follows the last of them. -/
theorem stop_commas (hcomma : stop ',') (hrest : ∀ c ∈ rest.head?, stop c)
    (texts : List (List Char)) : ∀ c ∈ (texts.flatMap (',' :: ·) ++ rest).head?, stop c := by
  cases texts with
  | nil => exact hrest
  | cons text texts => simpa using hcomma

theorem Separates.commas (h : ∀ x ∈ xs, ∀ y ∈ ys, Separates stop chars x y) (hcomma : stop ',')
    (hrest : ∀ c ∈ rest.head?, stop c ∧ c ≠ ',') (hrest' : ∀ c ∈ rest'.head?, stop c ∧ c ≠ ',')
    (heq : (xs.map chars).flatMap (',' :: ·) ++ rest =
      (ys.map chars).flatMap (',' :: ·) ++ rest') : xs = ys ∧ rest = rest' := by
  induction xs generalizing ys with
  | nil =>
    cases ys with
    | nil => exact ⟨rfl, heq⟩
    | cons y ys =>
      rw [List.map_nil, List.flatMap_nil, List.nil_append] at heq
      obtain ⟨-, hne⟩ := hrest ',' (by simp [heq])
      exact absurd rfl hne
  | cons x xs ih =>
    cases ys with
    | nil =>
      rw [List.map_nil, List.flatMap_nil, List.nil_append] at heq
      obtain ⟨-, hne⟩ := hrest' ',' (by simp [← heq])
      exact absurd rfl hne
    | cons y ys =>
      simp only [List.map_cons, List.flatMap_cons, List.cons_append, List.append_assoc] at heq
      obtain ⟨rfl, htail⟩ := h x List.mem_cons_self y List.mem_cons_self _ _
        (stop_commas hcomma (fun c hc => (hrest c hc).1) _)
        (stop_commas hcomma (fun c hc => (hrest' c hc).1) _) (List.cons.inj heq).2
      obtain ⟨rfl, rfl⟩ := ih
        (fun x hx y hy => h x (List.mem_cons_of_mem _ hx) y (List.mem_cons_of_mem _ hy)) htail
      exact ⟨rfl, rfl⟩

theorem Separates.joined {x y : α} (h : ∀ x' ∈ x :: xs, ∀ y' ∈ y :: ys, Separates stop chars x' y')
    (hcomma : stop ',') (hrest : ∀ c ∈ rest.head?, stop c ∧ c ≠ ',')
    (hrest' : ∀ c ∈ rest'.head?, stop c ∧ c ≠ ',')
    (heq : chars x ++ ((xs.map chars).flatMap (',' :: ·) ++ rest) =
      chars y ++ ((ys.map chars).flatMap (',' :: ·) ++ rest')) :
    x :: xs = y :: ys ∧ rest = rest' := by
  refine commas h hcomma hrest hrest' ?_
  simpa using congrArg (',' :: ·) heq

/-- A row of any length in front of a character that closes it and starts none of the texts. -/
theorem Separates.enclosed {row : List α → List Char} {close : Char} (hnil : row [] = [])
    (hcons : ∀ x xs, row (x :: xs) = chars x ++ (xs.map chars).flatMap (',' :: ·))
    (h : ∀ x ∈ xs, ∀ y ∈ ys, Separates stop chars x y) (hcomma : stop ',')
    (hclose : stop close ∧ close ≠ ',')
    (hfirst : ∀ x, x ∈ xs ∨ x ∈ ys → ∃ c text, chars x = c :: text ∧ c ≠ close)
    (heq : row xs ++ close :: rest = row ys ++ close :: rest') : xs = ys ∧ rest = rest' := by
  have hend : ∀ rest : List Char, ∀ c ∈ (close :: rest).head?, stop c ∧ c ≠ ',' := by
    rintro rest _ ⟨⟩
    exact hclose
  cases xs with
  | nil =>
    cases ys with
    | nil => exact ⟨rfl, by simpa [hnil] using heq⟩
    | cons y ys =>
      obtain ⟨c, text, hchars, hne⟩ := hfirst y (.inr List.mem_cons_self)
      rw [hnil, hcons, hchars] at heq
      exact absurd (List.cons.inj heq).1.symm hne
  | cons x xs =>
    cases ys with
    | nil =>
      obtain ⟨c, text, hchars, hne⟩ := hfirst x (.inl List.mem_cons_self)
      rw [hnil, hcons, hchars] at heq
      exact absurd (List.cons.inj heq).1 hne
    | cons y ys =>
      rw [hcons, hcons, List.append_assoc, List.append_assoc] at heq
      obtain ⟨hall, hrest⟩ := joined h hcomma (hend rest) (hend rest') heq
      exact ⟨hall, (List.cons.inj hrest).2⟩

/-- Behind any text, the texts of a row without commas are known by their commas. -/
theorem last_commas_inj {text text' : List Char} {texts others : List (List Char)}
    (hlength : texts.length = others.length) (h : ∀ t ∈ texts, ',' ∉ t) (h' : ∀ t ∈ others, ',' ∉ t)
    (heq : text ++ texts.flatMap (',' :: ·) = text' ++ others.flatMap (',' :: ·)) :
    text = text' ∧ texts = others := by
  induction texts using List.reverseRecOn generalizing others with
  | nil =>
    obtain rfl := List.length_eq_zero_iff.1 hlength.symm
    exact ⟨List.append_cancel_right heq, rfl⟩
  | append_singleton texts last ih =>
    rcases List.eq_nil_or_concat others with rfl | ⟨others, other, rfl⟩
    · simp at hlength
    · simp only [List.concat_eq_append, List.flatMap_append, List.flatMap_singleton,
        ← List.append_assoc] at heq h'
      obtain ⟨hfront, rfl⟩ := append_mark_inj_right (h last (by simp)) (h' other (by simp)) heq
      obtain ⟨rfl, rfl⟩ := ih (by simpa using hlength) (fun t ht => h t (by simp [ht]))
        (fun t ht => h' t (by simp [ht])) hfront
      exact ⟨rfl, by simp⟩

end ObjectRelational.Text
