import Mathlib.Data.Nat.Digits.Defs
import ObjectRelational.ColumnType.Scalar
import ObjectRelational.Proofs.Text.Language

/-! # Integers in values

An integer stands in a value of an integer type or is spelled by a text, and every integer type reads
it from there if it is in range. No digit is lost on the way: what is read of a text is the value of
its digits by their places.

* `Number.integer`: the texts of an integer;
* `Value.Denotes`: the integer in a value;
* `Scalar.toInteger_exact`: what an integer type reads of any value.
-/

namespace ObjectRelational

set_option autoImplicit false

open Text (blanks mark run₁)

/-! ## Integers in text -/

namespace Number

/-- The value of digits by their places, of which the last is the place of the ones. -/
def placeValue (digits : List Char) : Nat :=
  Nat.ofDigits 10 (digits.map fun c => c.toNat - '0'.toNat).reverse

/-- The texts of a natural number: one or more ASCII digits. -/
def natural (n : Nat) : Language Char :=
  {text | text ∈ run₁ Char.isDigit ∧ placeValue text = n}

/-- The texts of an integer: those of a natural number, with a sign or, unless it is negative,
without one. -/
def integer (n : Int) : Language Char :=
  {text | ∃ m : Nat, n = m ∧ text ∈ (1 + mark '+') * natural m ∨ n = -m ∧ text ∈ mark '-' * natural m}

theorem digitsValue_eq (digits : List Char) : Text.digitsValue digits = placeValue digits := by
  induction digits using List.reverseRecOn with
  | nil => rfl
  | append_singleton digits c ih =>
    -- The last digit counts once, and the value of those before it ten times.
    have hlast : Text.digitsValue (digits ++ [c]) =
        10 * Text.digitsValue digits + (c.toNat - '0'.toNat) := by
      unfold Text.digitsValue
      rw [Nat.ofDigitChars_append]
      rfl
    rw [hlast, ih, placeValue, placeValue, List.map_append, List.reverse_append, List.map_singleton,
      List.reverse_singleton, List.singleton_append, Nat.ofDigits_cons, Nat.add_comm]

theorem readNat?_eq_some_iff {text : List Char} {n : Nat} :
    readNat? text = some n ↔ text ∈ natural n := by
  have hdigits : (text ≠ [] ∧ text.all Char.isDigit = true) ↔ text ∈ run₁ Char.isDigit := by
    rw [Text.mem_run₁, List.all_eq_true]
  unfold readNat?
  rw [digitsValue_eq]
  split
  · next h => exact ⟨fun heq => ⟨hdigits.1 h, Option.some.inj heq⟩, fun hn => congrArg some hn.2⟩
  · next h => exact ⟨nofun, fun hn => absurd (hdigits.2 hn.1) h⟩

/-- A text that begins with a sign is no natural number. -/
theorem not_mem_natural {c : Char} (hc : c.isDigit = false) (rest : List Char) (n : Nat) :
    c :: rest ∉ natural n := fun h =>
  Bool.noConfusion (hc.symm.trans (h.1.2 c List.mem_cons_self))

theorem readInt?_eq_some_iff {text : List Char} {n : Int} :
    readInt? text = some n ↔ text ∈ integer n := by
  have hsigned : ∀ (c : Char) (m : Nat), text ∈ (1 + mark c) * natural m ↔
      text ∈ natural m ∨ ∃ rest, text = c :: rest ∧ rest ∈ natural m := by
    intro c m
    rw [add_mul, one_mul, Language.mem_add, Text.mem_mark_mul]
  have hread : ∀ (digits : List Char) (f : Nat → Int), (readNat? digits).map f = some n ↔
      ∃ m, n = f m ∧ digits ∈ natural m := by
    intro digits f
    simp only [Option.map_eq_some_iff, readNat?_eq_some_iff]
    exact ⟨fun ⟨m, hm, hf⟩ => ⟨m, hf.symm, hm⟩, fun ⟨m, hf, hm⟩ => ⟨m, hm, hf.symm⟩⟩
  change _ ↔ ∃ m : Nat, n = m ∧ text ∈ (1 + mark '+') * natural m ∨
    n = -m ∧ text ∈ mark '-' * natural m
  simp only [hsigned, Text.mem_mark_mul]
  unfold readInt?
  split
  · rw [hread]
    simp [not_mem_natural]
  · rw [hread]
    simp [not_mem_natural]
  · next hplus hminus =>
    have hunsigned : ∀ rest, text ≠ '+' :: rest ∧ text ≠ '-' :: rest :=
      fun rest => ⟨hplus rest, hminus rest⟩
    rw [hread]
    simp [hunsigned]

theorem isBlank_of_mem_integer {n : Int} : ∀ text ∈ integer n, ∀ c ∈ text, Text.isBlank c = false := by
  have hnatural : ∀ m, ∀ text ∈ natural m, ∀ c ∈ text, Text.isBlank c = false :=
    fun m text htext c hc => Text.isBlank_of_isDigit (htext.1.2 c hc)
  rintro text ⟨m, ⟨-, htext⟩ | ⟨-, htext⟩⟩
  · rw [add_mul, one_mul, Language.mem_add, Text.mem_mark_mul] at htext
    obtain htext | ⟨rest, rfl, hrest⟩ := htext
    · exact hnatural m text htext
    · exact List.forall_mem_cons.2 ⟨rfl, hnatural m rest hrest⟩
  · obtain ⟨rest, rfl, hrest⟩ := Text.mem_mark_mul.1 htext
    exact List.forall_mem_cons.2 ⟨rfl, hnatural m rest hrest⟩

end Number

/-! ## Integers in values -/

/-- The integer that a value of an integer type holds or a text spells, inside any type wrappers. -/
inductive Value.Denotes : Value → Int → Prop
  | integer {width : IntWidth} (n : BoundedInt width) : Denotes (.integer width n) n.val
  | text {s : String} {n : Int} (h : s.toList ∈ blanks * Number.integer n * blanks) :
      Denotes (.text s) n
  | decimal {s : String} {n : Int} (h : s.toList ∈ blanks * Number.integer n * blanks) :
      Denotes (.decimal s) n
  | typed {name : String} {value : Value} {n : Int} (h : Denotes value n) :
      Denotes (.typed name value) n

/-- A wider type has the range of a narrower one within its own. -/
theorem IntWidth.Holds.mono {width wider : IntWidth} {n : Int} (h : width.Holds n)
    (hbits : width.bits ≤ wider.bits) : wider.Holds n := by
  obtain ⟨hleast, hgreatest⟩ := h
  have hpow : Nat.pow 2 (width.bits - 1) ≤ Nat.pow 2 (wider.bits - 1) :=
    Nat.pow_le_pow_right (by decide) (by omega)
  unfold least at hleast
  unfold greatest at hgreatest
  constructor
  · unfold least
    omega
  · unfold greatest
    omega

theorem BoundedInt.ofInt?_eq_some_iff {width : IntWidth} {n : Int} {m : BoundedInt width} :
    ofInt? width n = some m ↔ n = m.val := by
  constructor
  · intro h
    unfold ofInt? at h
    split at h <;> cases h
    rfl
  · rintro rfl
    exact ofInt?_val m

namespace Scalar

theorem parse_eq_ok_iff {α : Type} {expected : String} {read : List Char → Option α} {s : String}
    {a : α} : parse expected read s = .ok a ↔ read (Text.trim s.toList) = some a := by
  unfold parse
  cases read (Text.trim s.toList) <;> simp

theorem parse_bounded {width : IntWidth} {s : String} {m : BoundedInt width} {label : String} :
    parse label (readBounded? width) s = .ok m ↔
      s.toList ∈ blanks * Number.integer m.val * blanks := by
  rw [parse_eq_ok_iff, Text.mem_between_blanks Number.isBlank_of_mem_integer,
    ← Number.readInt?_eq_some_iff]
  simp only [readBounded?, Option.bind_eq_some_iff, BoundedInt.ofInt?_eq_some_iff, exists_eq_right]

theorem toInteger_eq_ok_iff {width : IntWidth} {value : Value} {m : BoundedInt width} :
    toInteger width value = .ok m ↔ value.Denotes m.val := by
  induction value using Value.rec (motive_2 := fun _ => True) with
  | integer other n =>
    have hread : toInteger width (.integer other n) = .ok m ↔ n.val = m.val := by
      rw [← BoundedInt.ofInt?_eq_some_iff]
      unfold toInteger
      dsimp only [Value.untyped]
      cases BoundedInt.ofInt? width n.val <;> simp
    rw [hread]
    constructor
    · intro h
      exact h ▸ .integer n
    · intro h
      generalize m.val = k at h
      cases h
      rfl
  | text s =>
    exact parse_bounded.trans ⟨.text, fun | .text h => h⟩
  | decimal s =>
    exact parse_bounded.trans ⟨.decimal, fun | .decimal h => h⟩
  | typed name value ih =>
    exact ih.trans ⟨.typed, fun | .typed h => h⟩
  | nil => trivial
  | cons => trivial
  | _ => exact ⟨nofun, nofun⟩

/-- What an integer type reads of a value is the integer in it, if that is in the range of the type. One
out of range is a text that does not read, also when the value holds it as an integer. -/
theorem toInteger_exact (width : IntWidth) (value : Value) :
    (∀ n, (∃ m, toInteger width value = .ok m ∧ m.val = n) ↔ value.Denotes n ∧ width.Holds n) ∧
    (∀ (other : IntWidth) (n : BoundedInt other), value.untyped = .integer other n →
      ¬ width.Holds n.val →
        toInteger width value =
          .error (.invalidText (integerLabel width) (Number.intText n.val))) ∧
    ∀ wider : IntWidth, width.bits ≤ wider.bits → ∀ m, toInteger width value = .ok m →
      ∃ m', toInteger wider value = .ok m' ∧ m'.val = m.val := by
  refine ⟨fun n => ?_, fun other n huntyped hrange => ?_, fun wider hbits m hread => ?_⟩
  · constructor
    · rintro ⟨m, hread, rfl⟩
      exact ⟨toInteger_eq_ok_iff.1 hread, m.holds⟩
    · rintro ⟨hvalue, hrange⟩
      exact ⟨⟨n, hrange⟩, toInteger_eq_ok_iff.2 hvalue, rfl⟩
  · have hnone : BoundedInt.ofInt? width n.val = none := dif_neg hrange
    unfold toInteger
    rw [huntyped]
    dsimp only
    rw [hnone]
  · have hvalue := toInteger_eq_ok_iff.1 hread
    exact ⟨⟨m.val, m.holds.mono hbits⟩, toInteger_eq_ok_iff.2 hvalue, rfl⟩

end Scalar

end ObjectRelational
