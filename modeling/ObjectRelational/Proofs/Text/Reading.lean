import Mathlib.Algebra.Group.Nat.Defs
import Mathlib.Data.List.Basic
import ObjectRelational.Number.Integer
import ObjectRelational.Text.Blank
import ObjectRelational.Uuid

/-! # Texts of integers and identifiers

White space is cut off a text only where it is, digits are taken up to the first character that is
none, and the texts of integers, of bytes and of identifiers read back.
-/

namespace ObjectRelational

set_option autoImplicit false

namespace Text

/-! ## White space -/

/-- A text that neither starts nor ends with white space. -/
theorem trim_of_ends {first last : Char} (middle : List Char) (hfirst : isBlank first = false)
    (hlast : isBlank last = false) :
    trim (first :: middle ++ [last]) = first :: middle ++ [last] := by
  have hstart : trimStart (first :: middle ++ [last]) = first :: middle ++ [last] := by
    simp [trimStart, hfirst]
  rw [trim, hstart]
  simp [trimEnd, hlast]

theorem trim_of_forall {text : List Char} (h : ∀ c ∈ text, isBlank c = false) :
    trim text = text := by
  cases text with
  | nil => rfl
  | cons first rest =>
    have hfirst := h first List.mem_cons_self
    rcases List.eq_nil_or_concat rest with rfl | ⟨middle, last, rfl⟩
    · simp [trim, trimStart, trimEnd, hfirst]
    · rw [List.concat_eq_append, ← List.cons_append]
      exact trim_of_ends middle hfirst (h last (by simp))

theorem isDigit_iff {c : Char} : c.isDigit = true ↔ 48 ≤ c.toNat ∧ c.toNat ≤ 57 := by
  simp only [Char.isDigit, Bool.and_eq_true, decide_eq_true_eq, ge_iff_le, UInt32.le_iff_toNat_le]
  exact Iff.rfl

theorem isBlank_of_isDigit {c : Char} (h : c.isDigit = true) : isBlank c = false := by
  have hrange := isDigit_iff.1 h
  simp [isBlank, blankRanges]
  omega

/-! ## Decimal digits -/

theorem isDigit_of_mem_digits {n : Nat} {c : Char} (h : c ∈ digits n) : c.isDigit = true :=
  Nat.isDigit_of_mem_toDigits (by decide) (by decide) h

theorem digits_ne_nil (n : Nat) : digits n ≠ [] :=
  Nat.toDigits_ne_nil

theorem length_digits_le {n k : Nat} (hk : 0 < k) (h : n < 10 ^ k) : (digits n).length ≤ k :=
  (Nat.length_toDigits_le_iff (by decide) hk).2 h

theorem lt_length_digits {n k : Nat} (h : 10 ^ k ≤ n) : k < (digits n).length := by
  by_cases hk : k = 0
  · subst hk
    exact Nat.length_toDigits_pos
  · by_contra hle
    have := (Nat.length_toDigits_le_iff (by decide) (Nat.pos_of_ne_zero hk)).1 (Nat.not_lt.1 hle)
    omega

/-- A power of ten adds zeros to the digits. -/
theorem digits_mul_pow {n : Nat} (h : 0 < n) (k : Nat) :
    digits (n * 10 ^ k) = digits n ++ List.replicate k '0' := by
  induction k with
  | zero => simp
  | succ k ih =>
    have hstep : digits (n * 10 ^ (k + 1)) = digits (n * 10 ^ k) ++ digits 0 := by
      have hpos : 0 < n * 10 ^ k := Nat.mul_pos h (Nat.pow_pos (by decide))
      have happend := Nat.toDigits_append_toDigits (b := 10) (d := 0) (by decide) hpos (by decide)
      rw [Nat.add_zero] at happend
      rw [digits, digits, digits, happend, Nat.pow_succ, ← Nat.mul_assoc, Nat.mul_comm]
    rw [hstep, ih, List.append_assoc, List.replicate_succ']
    rfl

theorem digitsValue_zeros (k : Nat) (text : List Char) :
    digitsValue (List.replicate k '0' ++ text) = digitsValue text := by
  simp [digitsValue, Nat.ofDigitChars_append, Nat.ofDigitChars_replicate_zero]

/-! ## Runs of characters -/

/-- Characters of a kind are taken up to the first one of another kind. -/
theorem span_append {p : Char → Bool} {found rest : List Char} (hfound : ∀ c ∈ found, p c = true)
    (hrest : ∀ c ∈ rest.head?, p c = false) :
    (found ++ rest).takeWhile p = found ∧ (found ++ rest).dropWhile p = rest := by
  rw [List.takeWhile_append_of_pos hfound, List.dropWhile_append_of_pos hfound]
  cases rest with
  | nil => simp
  | cons c rest => simp [hrest c rfl]

theorem spanDigits_append {found rest : List Char} (hfound : ∀ c ∈ found, c.isDigit = true)
    (hrest : ∀ c ∈ rest.head?, c.isDigit = false) : spanDigits (found ++ rest) = (found, rest) :=
  Prod.ext_iff.2 (span_append hfound hrest)

/-! ## Ends -/

/-- Texts of characters of one kind end before the first character that is not of it. -/
theorem append_inj_of_forall {p : Char → Prop} {text text' rest rest' : List Char}
    (htext : ∀ c ∈ text, p c) (htext' : ∀ c ∈ text', p c) (hrest : ∀ c ∈ rest.head?, ¬ p c)
    (hrest' : ∀ c ∈ rest'.head?, ¬ p c) (h : text ++ rest = text' ++ rest') :
    text = text' ∧ rest = rest' := by
  induction text generalizing text' with
  | nil =>
    cases text' with
    | nil => exact ⟨rfl, h⟩
    | cons c text' =>
      obtain rfl : rest = c :: (text' ++ rest') := h
      exact absurd (htext' c List.mem_cons_self) (hrest c rfl)
  | cons c text ih =>
    cases text' with
    | nil =>
      obtain rfl : c :: (text ++ rest) = rest' := h
      exact absurd (htext c List.mem_cons_self) (hrest' c rfl)
    | cons d text' =>
      obtain ⟨rfl, htail⟩ := List.cons.inj h
      obtain ⟨rfl, rfl⟩ := ih (fun c hc => htext c (List.mem_cons_of_mem _ hc))
        (fun c hc => htext' c (List.mem_cons_of_mem _ hc)) htail
      exact ⟨rfl, rfl⟩

/-- Texts without a mark, with the mark behind them. -/
theorem append_mark_inj {mark : Char} {text text' rest rest' : List Char} (htext : mark ∉ text)
    (htext' : mark ∉ text') (h : text ++ mark :: rest = text' ++ mark :: rest') :
    text = text' ∧ rest = rest' := by
  have hne : ∀ text : List Char, mark ∉ text → ∀ c ∈ text, c ≠ mark := by
    rintro text hmark c hc rfl
    exact hmark hc
  obtain ⟨heq, hrest⟩ := append_inj_of_forall (hne text htext) (hne text' htext') (by simp)
    (by simp) h
  exact ⟨heq, (List.cons.inj hrest).2⟩

/-- Texts without a mark, with the mark in front of them. -/
theorem append_mark_inj_right {mark : Char} {text text' rest rest' : List Char} (hrest : mark ∉ rest)
    (hrest' : mark ∉ rest') (h : text ++ mark :: rest = text' ++ mark :: rest') :
    text = text' ∧ rest = rest' := by
  have hreverse := congrArg List.reverse h
  simp only [List.reverse_append, List.reverse_cons, List.append_assoc, List.cons_append,
    List.nil_append] at hreverse
  obtain ⟨hlast, hfirst⟩ := append_mark_inj (by simpa using hrest) (by simpa using hrest') hreverse
  exact ⟨List.reverse_injective hfirst, List.reverse_injective hlast⟩

/-! ## Bytes in hexadecimal digits -/

theorem hexDigitValue?_hexDigit (n : Nat) : hexDigitValue? (hexDigit n) = some (n % 16) := by
  have hall : ∀ k < 16, hexDigitValue? (Nat.digitChar k) = some k := by decide
  exact hall _ (Nat.mod_lt _ (by decide))

theorem bytesOfHex?_flatMap (bytes : List UInt8) :
    bytesOfHex? (bytes.flatMap byteHex) = some bytes := by
  induction bytes with
  | nil => rfl
  | cons byte bytes ih =>
    have hbyte : UInt8.ofNat (16 * (byte.toNat / 16 % 16) + byte.toNat % 16) = byte := by
      have hlt := byte.toNat_lt
      have hsum : 16 * (byte.toNat / 16 % 16) + byte.toNat % 16 = byte.toNat := by omega
      rw [hsum, UInt8.ofNat_toNat]
    change bytesOfHex? (hexDigit _ :: hexDigit _ :: bytes.flatMap byteHex) = _
    rw [bytesOfHex?, hexDigitValue?_hexDigit, hexDigitValue?_hexDigit, ih]
    exact congrArg (fun first => some (first :: bytes)) hbyte

end Text

/-! ## Integers -/

namespace Number

theorem readNat?_digits (n : Nat) : readNat? (Text.digits n) = some n := by
  have hall : (Text.digits n).all Char.isDigit = true :=
    List.all_eq_true.2 fun c h => Text.isDigit_of_mem_digits h
  rw [readNat?, if_pos ⟨Text.digits_ne_nil n, hall⟩, Text.digitsValue_digits]

theorem readInt?_intChars (n : Int) : readInt? (intChars n) = some n := by
  cases n with
  | ofNat n =>
    obtain ⟨c, rest, hdigits⟩ := List.exists_cons_of_ne_nil (Text.digits_ne_nil n)
    have hc : c.isDigit = true := Text.isDigit_of_mem_digits (hdigits ▸ List.mem_cons_self)
    have hread := readNat?_digits n
    rw [hdigits] at hread
    change readInt? (Text.digits n) = _
    rw [hdigits]
    unfold readInt?
    split
    · next heq =>
      cases heq
      exact absurd hc (by decide)
    · next heq =>
      cases heq
      exact absurd hc (by decide)
    · rw [hread]
      rfl
  | negSucc n =>
    change (readNat? (Text.digits (n + 1))).map _ = _
    rw [readNat?_digits]
    rfl

theorem intChars_injective : Function.Injective intChars := by
  intro m n h
  have hread := readInt?_intChars m
  rw [h, readInt?_intChars] at hread
  exact (Option.some.inj hread).symm

theorem intChars_ne_nil (n : Int) : intChars n ≠ [] := by
  cases n with
  | ofNat n => exact Text.digits_ne_nil n
  | negSucc n => exact List.cons_ne_nil _ _

theorem mem_intChars {n : Int} {c : Char} (h : c ∈ intChars n) : c.isDigit = true ∨ c = '-' := by
  cases n with
  | ofNat n => exact .inl (Text.isDigit_of_mem_digits h)
  | negSucc n =>
    rcases List.mem_cons.1 h with rfl | h
    · exact .inr rfl
    · exact .inl (Text.isDigit_of_mem_digits h)

end Number

/-! ## Identifiers -/

namespace Uuid

theorem ofHyphenated?_parts {a b c d e : List Char} (ha : a.length = 8) (hb : b.length = 4)
    (hc : c.length = 4) (hd : d.length = 4) (he : e.length = 12) :
    ofHyphenated? (a ++ '-' :: b ++ '-' :: c ++ '-' :: d ++ '-' :: e) =
      ofPlain? (a ++ b ++ c ++ d ++ e) := by
  unfold ofHyphenated?
  rw [if_pos]
  · simp [List.drop_append, List.drop_eq_nil_of_le, ha, hb, hc, hd]
  · simp [List.getElem?_append, ha, hb, hc, hd, he]

theorem parts_append (digits : List Char) :
    digits.take 8 ++ (digits.drop 8).take 4 ++ (digits.drop 12).take 4 ++ (digits.drop 16).take 4 ++
      digits.drop 20 = digits := by
  have hpart : ∀ n, (digits.drop n).take 4 ++ digits.drop (n + 4) = digits.drop n := by
    intro n
    rw [← List.drop_drop, List.take_append_drop]
  rw [List.append_assoc, hpart 16, List.append_assoc, hpart 12, List.append_assoc, hpart 8,
    List.take_append_drop]

theorem length_chars (u : Uuid) : u.chars.length = 36 := by
  have hdigits : (u.bytes.flatMap Text.byteHex).length = 32 := by
    simp [List.length_flatMap, Text.byteHex, u.length_eq]
  simp [chars, hdigits]

theorem isBlank_of_mem_chars {u : Uuid} {c : Char} (h : c ∈ u.chars) : Text.isBlank c = false := by
  have hhex : ∀ k < 16, Text.isBlank (Nat.digitChar k) = false := by decide
  have hdigit : ∀ c ∈ u.bytes.flatMap Text.byteHex, Text.isBlank c = false := by
    intro c hc
    obtain ⟨byte, -, hc⟩ := List.mem_flatMap.1 hc
    rcases List.mem_pair.1 hc with rfl | rfl <;> exact hhex _ (Nat.mod_lt _ (by decide))
  have hpart : c = '-' ∨ c ∈ u.bytes.flatMap Text.byteHex := by
    simp only [chars, List.mem_append, List.mem_cons] at h
    rcases h with (((h | h | h) | h | h) | h | h) | h | h
    · exact .inr (List.mem_of_mem_take h)
    · exact .inl h
    · exact .inr (List.mem_of_mem_drop (List.mem_of_mem_take h))
    · exact .inl h
    · exact .inr (List.mem_of_mem_drop (List.mem_of_mem_take h))
    · exact .inl h
    · exact .inr (List.mem_of_mem_drop (List.mem_of_mem_take h))
    · exact .inl h
    · exact .inr (List.mem_of_mem_drop h)
  rcases hpart with rfl | hc
  · decide
  · exact hdigit c hc

/-- The text of an identifier reads back. -/
theorem read?_chars (u : Uuid) : read? u.chars = some u := by
  have hdigits : (u.bytes.flatMap Text.byteHex).length = 32 := by
    simp [List.length_flatMap, Text.byteHex, u.length_eq]
  have hlength := u.length_chars
  unfold read?
  rw [if_neg (by omega), if_pos hlength]
  unfold chars
  dsimp only
  rw [ofHyphenated?_parts (by simp [hdigits]) (by simp [hdigits]) (by simp [hdigits])
    (by simp [hdigits]) (by simp [hdigits]), parts_append, ofPlain?, Text.bytesOfHex?_flatMap]
  exact ofBytes?_bytes u

end Uuid

end ObjectRelational
