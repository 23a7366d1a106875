import Mathlib.Computability.Language
import Mathlib.Data.List.TakeWhile
import ObjectRelational.Proofs.Text.Reading

/-! # Languages of texts

A text is read from its front: a reader takes a word of one language off, and what it leaves has to be
a word of the next. Where the characters of the first are of one kind and no word of the next begins
with such a character, it does not matter that the reader takes as many as it can.

* `run`, `run₁`, `mark`, `blanks`: the languages that grammars are put together from;
* `mem_mul_iff_of_run`: what as many characters of one kind as there are leave;
* `mem_optional_mul`: an optional part is read by trying.
-/

namespace ObjectRelational.Text

set_option autoImplicit false

variable {p : Char → Bool} {A L : Language Char} {c : Char} {text : List Char}

/-! ## Words of one kind of character -/

/-- Characters of one kind, or nothing. -/
def run (p : Char → Bool) : Language Char :=
  {text | ∀ c ∈ text, p c = true}

/-- One or more characters of one kind. -/
def run₁ (p : Char → Bool) : Language Char :=
  {text | text ≠ [] ∧ ∀ c ∈ text, p c = true}

/-- One character. -/
def mark (c : Char) : Language Char :=
  {[c]}

/-- White space, or nothing. -/
def blanks : Language Char :=
  run isBlank

theorem mem_run₁ : text ∈ run₁ p ↔ text ≠ [] ∧ ∀ c ∈ text, p c = true := Iff.rfl

/-! ## First characters -/

/-- No word of a language begins with a character of a kind. -/
def Avoids (p : Char → Bool) (L : Language Char) : Prop :=
  ∀ text ∈ L, ∀ c ∈ text.head?, p c = false

theorem avoids_mark (h : p c = false) : Avoids p (mark c) := by
  rintro _ rfl d hd
  cases hd
  exact h

/-- A language without the empty word settles how products with it begin. -/
theorem Avoids.mul (h : Avoids p A) (hne : [] ∉ A) (L : Language Char) : Avoids p (A * L) := by
  intro text htext c hc
  obtain ⟨word, hword, rest, -, rfl⟩ := Language.mem_mul.1 htext
  cases word with
  | nil => exact absurd hword hne
  | cons d word => exact h _ hword c hc

theorem avoids_mark_mul (h : p c = false) (L : Language Char) : Avoids p (mark c * L) :=
  (avoids_mark h).mul (List.cons_ne_nil c []).symm L

theorem avoids_run_mul {q : Char → Bool} (h : ∀ c, q c = true → p c = false) (hL : Avoids p L) :
    Avoids p (run q * L) := by
  intro text htext c hc
  obtain ⟨word, hword, rest, hrest, rfl⟩ := Language.mem_mul.1 htext
  cases word with
  | nil => exact hL rest hrest c hc
  | cons d word =>
    cases hc
    exact h c (hword c List.mem_cons_self)

theorem avoids_run₁_mul {q : Char → Bool} (h : ∀ c, q c = true → p c = false) (L : Language Char) :
    Avoids p (run₁ q * L) := by
  refine Avoids.mul (fun text htext c hc => ?_) (fun hnil => hnil.1 rfl) L
  exact h c (htext.2 c (List.mem_of_mem_head? hc))

/-! ## Products -/

theorem mem_mark_mul : text ∈ mark c * L ↔ ∃ rest, text = c :: rest ∧ rest ∈ L := by
  rw [Language.mem_mul]
  constructor
  · rintro ⟨_, rfl, rest, hrest, rfl⟩
    exact ⟨rest, rfl, hrest⟩
  · rintro ⟨rest, rfl, hrest⟩
    exact ⟨[c], rfl, rest, hrest, rfl⟩

/-- Taking as many characters of a kind as there are finds the words of that kind. -/
theorem mem_mul_iff_of_run (hA : ∀ text ∈ A, ∀ c ∈ text, p c = true) (hL : Avoids p L) :
    text ∈ A * L ↔ text.takeWhile p ∈ A ∧ text.dropWhile p ∈ L := by
  rw [Language.mem_mul]
  constructor
  · rintro ⟨word, hword, rest, hrest, rfl⟩
    obtain ⟨htake, hdrop⟩ := span_append (hA word hword) (hL rest hrest)
    rw [htake, hdrop]
    exact ⟨hword, hrest⟩
  · rintro ⟨htake, hdrop⟩
    exact ⟨_, htake, _, hdrop, List.takeWhile_append_dropWhile⟩

theorem mem_run₁_mul (hL : Avoids p L) :
    text ∈ run₁ p * L ↔ text.takeWhile p ≠ [] ∧ text.dropWhile p ∈ L := by
  rw [mem_mul_iff_of_run (fun _ h => (mem_run₁.1 h).2) hL, mem_run₁]
  exact and_congr_left' (and_iff_left fun c => List.mem_takeWhile_imp)

/-- White space is cut off in front of a language that may itself begin with white space, as long as
cutting it off there leads to no other word. -/
theorem mem_blanks_mul_of_trim (hL : ∀ text ∈ L, trimStart text ∈ L) :
    text ∈ blanks * L ↔ trimStart text ∈ L := by
  rw [Language.mem_mul]
  constructor
  · rintro ⟨blank, hblank, rest, hrest, rfl⟩
    rw [trimStart, List.dropWhile_append_of_pos hblank]
    exact hL rest hrest
  · intro h
    exact ⟨_, fun c => List.mem_takeWhile_imp, _, h, List.takeWhile_append_dropWhile⟩

theorem Avoids.trimStart_eq (hL : Avoids isBlank L) (h : text ∈ L) : trimStart text = text :=
  (@span_append _ [] _ (by simp) (hL text h)).2

theorem mem_blanks_mul (hL : Avoids isBlank L) : text ∈ blanks * L ↔ trimStart text ∈ L :=
  mem_blanks_mul_of_trim fun _ h => (hL.trimStart_eq h).symm ▸ h

theorem mem_blanks : text ∈ blanks ↔ trimStart text = [] := by
  rw [trimStart, List.dropWhile_eq_nil_iff]
  rfl

theorem trim_between {before word after : List Char} (hbefore : before ∈ blanks)
    (hafter : after ∈ blanks) : trim (before ++ word ++ after) = trim word := by
  have hend : ∀ front : List Char, trimEnd (front ++ after) = trimEnd front := by
    intro front
    unfold trimEnd
    rw [List.reverse_append, List.dropWhile_append_of_pos fun c hc => hafter c (List.mem_reverse.1 hc)]
  unfold trim
  rw [List.append_assoc, trimStart, List.dropWhile_append_of_pos hbefore, List.dropWhile_append]
  split
  · next hempty =>
    have hword : trimStart word = [] := List.isEmpty_iff.1 hempty
    have hnil : trimStart after = [] := mem_blanks.1 hafter
    rw [hword, ← hnil]
    rfl
  · exact hend _

/-- A text between white space is found by cutting the white space off both ends. -/
theorem mem_between_blanks (hA : ∀ text ∈ A, ∀ c ∈ text, isBlank c = false) :
    text ∈ blanks * A * blanks ↔ trim text ∈ A := by
  constructor
  · rintro ⟨_, ⟨before, hbefore, word, hword, rfl⟩, after, hafter, rfl⟩
    rwa [trim_between hbefore hafter, trim_of_forall (hA word hword)]
  · intro h
    have hsplit : trim text ++ ((trimStart text).reverse.takeWhile isBlank).reverse =
        trimStart text := by
      unfold trim trimEnd
      rw [← List.reverse_append, List.takeWhile_append_dropWhile, List.reverse_reverse]
    have hafter : ((trimStart text).reverse.takeWhile isBlank).reverse ∈ blanks :=
      fun c hc => List.mem_takeWhile_imp (List.mem_reverse.1 hc)
    have hbefore : text.takeWhile isBlank ∈ blanks := fun c => List.mem_takeWhile_imp
    rw [mul_assoc]
    exact ⟨_, hbefore, _, ⟨_, h, _, hafter, hsplit⟩, List.takeWhile_append_dropWhile⟩

/-- If what follows an optional part never looks like it, it is there when it can be read. -/
theorem mem_optional_mul {read : List Char → Option (List Char)}
    (hread : text ∈ A * L ↔ ∃ rest, read text = some rest ∧ rest ∈ L)
    (hL : text ∈ L → read text = none) : text ∈ (1 + A) * L ↔ (read text).getD text ∈ L := by
  rw [add_mul, one_mul, Language.mem_add, hread]
  cases hfound : read text with
  | none => simp
  | some rest =>
    have hnot : text ∉ L := fun h => by
      rw [hL h] at hfound
      cases hfound
    simp [hnot]

end ObjectRelational.Text
