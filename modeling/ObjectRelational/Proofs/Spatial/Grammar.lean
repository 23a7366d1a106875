import Mathlib.Data.Bool.AllAny
import ObjectRelational.Converter
import ObjectRelational.Proofs.Spatial.PointText
import ObjectRelational.Proofs.Text.Language

/-! # The grammar of points

The two text forms of a point as languages, and the texts that the readers take. White space, digits
and coordinates are runs of characters that what follows them does not begin with, so that a reader
that takes as much as it can, and never goes back, takes the words of the grammar and no others.

* `geometry`, `pair`: the texts of a point in either form;
* `readGeometry?_eq_some_iff`, `readPair?_eq_some_iff`: the readers take these texts;
* `read_iff_grammar`: what the converters make of any text.
-/

namespace ObjectRelational.Spatial

set_option autoImplicit false

open Text (Avoids blanks mark run₁)

/-! ## Words in any case -/

/-- The ways to write a letter, given as a small one: in either case, and an s also as a long s. -/
def spellings (letter : Char) : List Char :=
  if letter = 's' then ['s', 'S', 'ſ'] else [letter, letter.toUpper]

/-- A word by its small letters, written in any case. -/
def word (letters : List Char) : Language Char :=
  {text | List.Forall₂ (fun c letter => c ∈ spellings letter) text letters}

/-- The characters of ASCII but for capitals. -/
def IsSmall (letter : Char) : Prop :=
  letter.toNat < 128 ∧ ¬ (65 ≤ letter.toNat ∧ letter.toNat ≤ 90)

instance : DecidablePred IsSmall :=
  fun _ => inferInstanceAs (Decidable (_ ∧ _))

theorem toNat_toLower (c : Char) :
    c.toLower.toNat = if 65 ≤ c.toNat ∧ c.toNat ≤ 90 then c.toNat + 32 else c.toNat := by
  unfold Char.toLower
  simp only [ge_iff_le, UInt32.le_iff_toNat_le]
  change Char.toNat (if h : 65 ≤ c.toNat ∧ c.toNat ≤ 90 then _ else c) = _
  split
  · change (c.val + 32).toNat = _
    rw [UInt32.toNat_add]
    change (c.toNat + 32) % 2 ^ 32 = _
    omega
  · rfl

theorem toNat_toUpper (c : Char) :
    c.toUpper.toNat = if 97 ≤ c.toNat ∧ c.toNat ≤ 122 then c.toNat - 32 else c.toNat := by
  unfold Char.toUpper
  simp only [UInt32.le_iff_toNat_le]
  change Char.toNat (if h : 97 ≤ c.toNat ∧ c.toNat ≤ 122 then _ else c) = _
  split
  · have hshift : ('A'.val - 'a'.val).toNat = 2 ^ 32 - 32 := by decide
    have hval : c.val.toNat = c.toNat := rfl
    change (c.val + ('A'.val - 'a'.val)).toNat = _
    rw [UInt32.toNat_add, hshift, hval]
    omega
  · rfl

theorem foldCase_eq_iff {c letter : Char} (hletter : IsSmall letter) :
    foldCase c = letter ↔ c ∈ spellings letter := by
  obtain ⟨hascii, hcapital⟩ := hletter
  have hcase : c.toLower = letter ↔ c = letter ∨ c = letter.toUpper := by
    simp only [← Char.toNat_inj, toNat_toLower, toNat_toUpper]
    split <;> split <;> omega
  have hlong : 'ſ' ≠ letter ∧ 'ſ' ≠ letter.toUpper := by
    simp only [ne_eq, ← Char.toNat_inj, toNat_toUpper, Char.reduceToNat]
    split <;> omega
  unfold foldCase spellings
  by_cases hs : letter = 's'
  · subst hs
    rw [if_pos rfl]
    by_cases hc : c = 'ſ'
    · simp [hc]
    · rw [if_neg hc, hcase]
      simp [hc]
  · rw [if_neg hs]
    by_cases hc : c = 'ſ'
    · rw [if_pos hc, hc]
      simp [hlong, Ne.symm hs]
    · rw [if_neg hc, hcase]
      simp

theorem mem_word_mul {letters : List Char} (hletters : ∀ letter ∈ letters, IsSmall letter)
    {L : Language Char} {text : List Char} :
    text ∈ word letters * L ↔ ∃ rest, word? letters text = some rest ∧ rest ∈ L := by
  induction letters generalizing text with
  | nil =>
    have hword : word [] = 1 := by
      ext text
      exact List.forall₂_nil_right_iff.trans (Language.mem_one text).symm
    rw [hword, one_mul]
    simp [word?]
  | cons letter letters ih =>
    obtain ⟨hletter, hrest⟩ := List.forall_mem_cons.1 hletters
    have hword : text ∈ word (letter :: letters) * L ↔
        ∃ c rest, text = c :: rest ∧ c ∈ spellings letter ∧ rest ∈ word letters * L := by
      simp only [Language.mem_mul]
      constructor
      · rintro ⟨_, ⟨⟩ | ⟨hc, hword⟩, after, hafter, rfl⟩
        exact ⟨_, _, rfl, hc, _, hword, after, hafter, rfl⟩
      · rintro ⟨c, _, rfl, hc, front, hword, after, hafter, rfl⟩
        exact ⟨c :: front, .cons hc hword, after, hafter, rfl⟩
    rw [hword]
    cases text with
    | nil => simp [word?]
    | cons c text =>
      rw [word?]
      by_cases hc : foldCase c = letter
      · simp [hc, (foldCase_eq_iff hletter).1 hc, ih hrest]
      · simp [hc, mt (foldCase_eq_iff hletter).2 hc]

theorem avoids_word_mul {p : Char → Bool} {letter : Char} (h : ∀ c ∈ spellings letter, p c = false)
    (letters : List Char) (L : Language Char) : Avoids p (word (letter :: letters) * L) := by
  refine Avoids.mul ?_ (by rintro ⟨⟩) L
  rintro _ (_ | ⟨hc, -⟩) d hd
  cases hd
  exact h _ hc

/-! ## Coordinates -/

/-- The characters of a coordinate. -/
def coordinateChars : List Char :=
  "-+0123456789.eE".toList

/-- The texts of a coordinate that are read as a number. -/
def coordinate (x : Double) : Language Char :=
  {text | text ≠ [] ∧ (∀ c ∈ text, c ∈ coordinateChars) ∧ Number.readFloat? .double text = some x}

theorem mem_coordinateChars {c : Char} : c ∈ coordinateChars ↔ isCoordinateChar c = true := by
  constructor
  · have hall : ∀ c ∈ coordinateChars, isCoordinateChar c = true :=
      List.all_iff_forall_prop.1 (by decide)
    exact hall c
  · intro h
    by_cases hdigit : c.isDigit = true
    · obtain ⟨hleast, hgreatest⟩ := Text.isDigit_iff.1 hdigit
      have hall : ∀ n < 10, Char.ofNat (48 + n) ∈ coordinateChars := by decide
      have hc := hall (c.toNat - 48) (by omega)
      rwa [Nat.add_sub_cancel' hleast, Char.ofNat_toNat] at hc
    · simp only [isCoordinateChar, hdigit, Bool.or_false, Bool.or_eq_true, decide_eq_true_eq] at h
      rcases h with (((rfl | rfl) | rfl) | rfl) | rfl <;> decide

theorem isBlank_of_mem_coordinateChars : ∀ c ∈ coordinateChars, Text.isBlank c = false :=
  List.all_iff_forall_prop.1 (by decide)

theorem isCoordinateChar_of_isBlank (c : Char) (h : Text.isBlank c = true) :
    isCoordinateChar c = false := by
  by_contra hc
  rw [isBlank_of_mem_coordinateChars c (mem_coordinateChars.2 (by simpa using hc))] at h
  cases h

theorem mem_coordinate_mul {x : Double} {L : Language Char} (hL : Avoids isCoordinateChar L)
    {text : List Char} : text ∈ coordinate x * L ↔ ∃ found rest,
      coordinate? text = some (found, rest) ∧ Number.readFloat? .double found = some x ∧ rest ∈ L := by
  have hchars : ∀ word ∈ coordinate x, ∀ c ∈ word, isCoordinateChar c = true :=
    fun word hword c hc => mem_coordinateChars.1 (hword.2.1 c hc)
  have hrun : ∀ c ∈ text.takeWhile isCoordinateChar, c ∈ coordinateChars :=
    fun c hc => mem_coordinateChars.2 (List.mem_takeWhile_imp hc)
  have hword : text.takeWhile isCoordinateChar ∈ coordinate x ↔
      text.takeWhile isCoordinateChar ≠ [] ∧
        Number.readFloat? .double (text.takeWhile isCoordinateChar) = some x :=
    ⟨fun h => ⟨h.1, h.2.2⟩, fun h => ⟨h.1, hrun, h.2⟩⟩
  rw [Text.mem_mul_iff_of_run hchars hL, hword]
  unfold coordinate?
  split
  · next hnil => simp [hnil]
  · next hne =>
    constructor
    · rintro ⟨⟨-, hread⟩, hrest⟩
      exact ⟨_, _, rfl, hread, hrest⟩
    · rintro ⟨_, _, ⟨⟩, hread, hrest⟩
      exact ⟨⟨hne, hread⟩, hrest⟩

theorem avoids_coordinate_mul {p : Char → Bool} (h : ∀ c ∈ coordinateChars, p c = false) (x : Double)
    (L : Language Char) : Avoids p (coordinate x * L) := by
  refine Avoids.mul (fun text htext c hc => ?_) (fun hnil => hnil.1 rfl) L
  exact h c (htext.2.1 c (List.mem_of_mem_head? hc))

/-! ## Marks -/

theorem mem_mark_mul {c : Char} {L : Language Char} {text : List Char} :
    text ∈ mark c * L ↔ ∃ rest, mark? c text = some rest ∧ rest ∈ L := by
  rw [Text.mem_mark_mul]
  cases text with
  | nil => simp [mark?]
  | cons first rest =>
    rw [mark?]
    by_cases hc : first = c <;> simp [hc]

theorem mark?_eq_none {p : Char → Bool} {c : Char} {L : Language Char} (hL : Avoids p L)
    (hc : p c = true) {text : List Char} (h : text ∈ L) : mark? c text = none := by
  cases text with
  | nil => rfl
  | cons first rest =>
    have hne : first ≠ c := by
      rintro rfl
      exact Bool.noConfusion (hc.symm.trans (hL _ h first rfl))
    rw [mark?, if_neg hne]

theorem mem_closing {text : List Char} : text ∈ blanks * (mark ')' * blanks) ↔
    ∃ rest, mark? ')' (Text.trimStart text) = some rest ∧ Text.trimStart rest = [] := by
  rw [Text.mem_blanks_mul (Text.avoids_mark_mul rfl _), mem_mark_mul]
  simp only [Text.mem_blanks]

/-- White space and a mark end a coordinate. -/
theorem avoids_blanks_mark_mul {c : Char} (h : isCoordinateChar c = false) (L : Language Char) :
    Avoids isCoordinateChar (blanks * (mark c * L)) :=
  Text.avoids_run_mul isCoordinateChar_of_isBlank (Text.avoids_mark_mul h L)

/-! ## Pairs -/

/-- The texts of a point as a pair. -/
def pair (p : Point) : Language Char :=
  blanks * mark '(' * blanks * coordinate p.x * blanks * mark ',' * blanks * coordinate p.y *
    blanks * mark ')' * blanks

theorem readPair?_eq_some_iff {text : String} {p : Point} :
    readPair? text = some p ↔ text.toList ∈ pair p := by
  simp only [pair, mul_assoc]
  rw [Text.mem_blanks_mul (Text.avoids_mark_mul rfl _), mem_mark_mul]
  simp only [Text.mem_blanks_mul (avoids_coordinate_mul isBlank_of_mem_coordinateChars _ _),
    Text.mem_blanks_mul (Text.avoids_mark_mul (show Text.isBlank ',' = false from rfl) _),
    mem_coordinate_mul (avoids_blanks_mark_mul (show isCoordinateChar ',' = false from rfl) _),
    mem_coordinate_mul (avoids_blanks_mark_mul (show isCoordinateChar ')' = false from rfl) _),
    mem_mark_mul, mem_closing]
  simp only [readPair?, pairParts?, ofParts?, Option.bind_eq_bind, Option.bind_eq_some_iff]
  constructor
  · rintro ⟨parts, ⟨opened, hopen, ⟨x, afterX⟩, hx, between, hcomma, ⟨y, afterY⟩, hy, closed, hclose,
      hend⟩, hpoint⟩
    split at hend
    · next hblank =>
      cases hend
      obtain ⟨_, hreadX, _, hreadY, ⟨⟩⟩ := hpoint
      exact ⟨opened, hopen, x, afterX, hx, hreadX, between, hcomma, y, afterY, hy, hreadY, closed,
        hclose, hblank⟩
    · cases hend
  · rintro ⟨opened, hopen, x, afterX, hx, hreadX, between, hcomma, y, afterY, hy, hreadY, closed,
      hclose, hblank⟩
    exact ⟨(x, y), ⟨opened, hopen, (x, afterX), hx, between, hcomma, (y, afterY), hy, closed, hclose,
      if_pos hblank⟩, p.x, hreadX, p.y, hreadY, rfl⟩

/-! ## Geometries -/

/-- A spatial reference system before a geometry; its number is any run of decimal digits. -/
def reference : Language Char :=
  word "srid=".toList * (1 + mark '-') * run₁ Text.isDecimalDigit * mark ';'

/-- The texts of a point as a geometry. -/
def geometry (p : Point) : Language Char :=
  blanks * (1 + reference) * blanks * word "point".toList * blanks * mark '(' * blanks *
    coordinate p.x * run₁ Text.isBlank * coordinate p.y * blanks * mark ')' * blanks

theorem mem_reference_mul {L : Language Char} {text : List Char} :
    text ∈ reference * L ↔ ∃ rest, reference? text = some rest ∧ rest ∈ L := by
  have hdigits : Avoids (· = '-') (run₁ Text.isDecimalDigit * (mark ';' * L)) :=
    Text.avoids_run₁_mul (fun c hc => decide_eq_false (by rintro rfl; cases hc)) _
  have hsign : ∀ text : List Char,
      text ∈ (1 + mark '-') * (run₁ Text.isDecimalDigit * (mark ';' * L)) ↔
        ((mark? '-' text).getD text).takeWhile Text.isDecimalDigit ≠ [] ∧
        ∃ rest, mark? ';' (((mark? '-' text).getD text).dropWhile Text.isDecimalDigit) = some rest ∧
          rest ∈ L := fun text => by
    rw [Text.mem_optional_mul mem_mark_mul (mark?_eq_none hdigits (by decide)),
      Text.mem_run₁_mul (Text.avoids_mark_mul rfl _), mem_mark_mul]
  simp only [reference, mul_assoc]
  rw [mem_word_mul (List.all_iff_forall_prop.1 (by decide))]
  simp only [hsign, reference?, Option.bind_eq_bind, Option.bind_eq_some_iff]
  constructor
  · rintro ⟨named, hword, hne, rest, hmark, hrest⟩
    exact ⟨rest, ⟨named, hword, by rw [if_neg hne, hmark]⟩, hrest⟩
  · rintro ⟨rest, ⟨named, hword, hmark⟩, hrest⟩
    split at hmark
    · cases hmark
    · next hne => exact ⟨named, hword, hne, rest, hmark, hrest⟩

theorem mem_blanks₁_mul {L : Language Char} (hL : Avoids Text.isBlank L) {text : List Char} :
    text ∈ run₁ Text.isBlank * L ↔ ∃ rest, blanks? text = some rest ∧ rest ∈ L := by
  rw [Text.mem_run₁_mul hL]
  cases text with
  | nil => simp [blanks?]
  | cons c text =>
    by_cases hc : Text.isBlank c = true
    · simp [blanks?, hc, Text.trimStart]
    · simp [blanks?, hc]

/-- A geometry without a reference system does not begin like one. -/
theorem reference?_eq_none {L : Language Char} {text : List Char}
    (h : text ∈ blanks * (word "point".toList * L)) : reference? text = none := by
  have hblank : ∀ c ∈ spellings 's', Text.isBlank c = false :=
    List.all_iff_forall_prop.1 (by decide)
  have hfirst : Avoids (· ∈ spellings 's') (blanks * (word "point".toList * L)) :=
    Text.avoids_run_mul
      (fun c hc => decide_eq_false fun hs => Bool.noConfusion ((hblank c hs).symm.trans hc))
      (avoids_word_mul (List.all_iff_forall_prop.1 (by decide)) _ _)
  have hword : word? "srid=".toList text = none := by
    cases text with
    | nil => rfl
    | cons c rest =>
      have hc : c ∉ spellings 's' := of_decide_eq_false (hfirst _ h c rfl)
      exact if_neg (mt (foldCase_eq_iff (by decide)).1 hc)
  rw [reference?, hword]
  rfl

/-- White space, a reference system or none, and white space again are cut off one by one. -/
theorem mem_front {L : Language Char} {text : List Char} :
    text ∈ blanks * ((1 + reference) * (blanks * (word "point".toList * L))) ↔
      Text.trimStart ((reference? (Text.trimStart text)).getD (Text.trimStart text)) ∈
        word "point".toList * L := by
  have hpoint : Avoids Text.isBlank (word "point".toList * L) :=
    avoids_word_mul (List.all_iff_forall_prop.1 (by decide)) _ _
  have hreference : Avoids Text.isBlank (reference * (blanks * (word "point".toList * L))) := by
    simp only [reference, mul_assoc]
    exact avoids_word_mul (List.all_iff_forall_prop.1 (by decide)) _ _
  rw [Text.mem_blanks_mul_of_trim, Text.mem_optional_mul mem_reference_mul reference?_eq_none,
    Text.mem_blanks_mul hpoint]
  intro text htext
  rw [add_mul, one_mul, Language.mem_add] at htext ⊢
  rcases htext with h | h
  · left
    rw [Text.mem_blanks_mul hpoint] at h ⊢
    rwa [hpoint.trimStart_eq h]
  · right
    rwa [hreference.trimStart_eq h]

theorem readGeometry?_eq_some_iff {text : String} {p : Point} :
    readGeometry? text = some p ↔ text.toList ∈ geometry p := by
  have hbetween : ∀ L, Avoids isCoordinateChar (run₁ Text.isBlank * L) :=
    Text.avoids_run₁_mul isCoordinateChar_of_isBlank
  simp only [geometry, mul_assoc]
  rw [mem_front, mem_word_mul (List.all_iff_forall_prop.1 (by decide))]
  simp only [Text.mem_blanks_mul (Text.avoids_mark_mul (show Text.isBlank '(' = false from rfl) _),
    Text.mem_blanks_mul (avoids_coordinate_mul isBlank_of_mem_coordinateChars _ _),
    mem_coordinate_mul (hbetween _),
    mem_blanks₁_mul (avoids_coordinate_mul isBlank_of_mem_coordinateChars _ _),
    mem_coordinate_mul (avoids_blanks_mark_mul (show isCoordinateChar ')' = false from rfl) _),
    mem_mark_mul, mem_closing]
  simp only [geometryParts?, readGeometry?, ofParts?, Option.bind_eq_bind, Option.bind_eq_some_iff]
  constructor
  · rintro ⟨parts, ⟨named, hword, opened, hopen, ⟨x, afterX⟩, hx, between, hblanks, ⟨y, afterY⟩, hy,
      closed, hclose, hend⟩, hpoint⟩
    split at hend
    · next hblank =>
      cases hend
      obtain ⟨_, hreadX, _, hreadY, ⟨⟩⟩ := hpoint
      exact ⟨named, hword, opened, hopen, x, afterX, hx, hreadX, between, hblanks, y, afterY, hy,
        hreadY, closed, hclose, hblank⟩
    · cases hend
  · rintro ⟨named, hword, opened, hopen, x, afterX, hx, hreadX, between, hblanks, y, afterY, hy,
      hreadY, closed, hclose, hblank⟩
    exact ⟨(x, y), ⟨named, hword, opened, hopen, (x, afterX), hx, between, hblanks, (y, afterY), hy,
      closed, hclose, if_pos hblank⟩, p.x, hreadX, p.y, hreadY, rfl⟩

end ObjectRelational.Spatial

namespace ObjectRelational.Converter

theorem pointOf_eq_ok {input : String} {found : Option Point} {p : Point} :
    pointOf input found = .ok (.point p) ↔ found = some p := by
  cases found <;> simp [pointOf]

theorem pointOf_eq_error {input : String} {found : Option Point} :
    pointOf input found = .error (.malformedPoint input) ↔ ∀ p, found ≠ some p := by
  cases found <;> simp [pointOf]

/-- Either converter of points takes the texts of its grammar, for the numbers that their coordinates
are read as, and no others; any other text is malformed as a whole. -/
theorem read_iff_grammar (text : String) (p : Point) (srid : Int) :
    ((pointGeometry srid).read (.text text) = .ok (.point p) ↔
      text.toList ∈ Spatial.geometry p) ∧
    ((pointGeometry srid).read (.text text) = .error (.malformedPoint text) ↔
      ∀ q, text.toList ∉ Spatial.geometry q) ∧
    (pointPair.read (.text text) = .ok (.point p) ↔ text.toList ∈ Spatial.pair p) ∧
    (pointPair.read (.text text) = .error (.malformedPoint text) ↔
      ∀ q, text.toList ∉ Spatial.pair q) := by
  have hgeometry : (pointGeometry srid).read (.text text) =
      pointOf text (Spatial.readGeometry? text) := rfl
  have hpair : pointPair.read (.text text) = pointOf text (Spatial.readPair? text) := rfl
  rw [hgeometry, hpair]
  simp only [pointOf_eq_ok, pointOf_eq_error, ne_eq, Spatial.readGeometry?_eq_some_iff,
    Spatial.readPair?_eq_some_iff, and_self]

end ObjectRelational.Converter
