import Mathlib.Data.List.Forall2
import Mathlib.Data.String.Basic
import ObjectRelational.Proofs.Json.Text

/-! # Documents read back

Reading a document goes through its structure: digits, escapes and members in the order they were
written. The text of a document with integers for numbers has one structure, which ends at the end of
the text, and the structure stands for the document if it is read with as many levels as the document
is deep. The writer counts no levels, so that a text can be one that its reader refuses.

* `Json.Integral`: the documents without floats;
* `Json.ReadsAs`: a structure is what the text of a document is read as;
* `Json.Integral.exists_readsAs`: the text of every such document has a structure;
* `Json.Integral.read?_text`, `Json.readBytes?_toUTF8`: the document that its text gives back, also as
  bytes.
-/

namespace ObjectRelational

set_option autoImplicit false

/-! ## Integers -/

theorem Text.head?_digits_ne_zero {n : Nat} (h : 0 < n) : (digits n).head? ≠ some '0' := by
  induction n using Nat.strongRecOn with
  | _ n ih =>
    by_cases hsmall : n < 10
    · rw [digits, Nat.toDigits_of_lt_base hsmall]
      simp
      omega
    · have hsplit : digits n = digits (n / 10) ++ [Nat.digitChar (n % 10)] :=
        Nat.toDigits_of_base_le (by decide) (Nat.not_lt.1 hsmall)
      rw [hsplit, List.head?_append_of_ne_nil _ (digits_ne_nil _)]
      exact ih (n / 10) (by omega) (by omega)

namespace NumberLiteral

/-- Digits of a number below `2 ^ 64` are all taken up. -/
theorem absorb_eq {digits : List Char} {significand : Nat}
    (h : Nat.ofDigitChars 10 digits significand ≤ greatestUnsigned) :
    absorb significand digits = (Nat.ofDigitChars 10 digits significand, 0) := by
  induction digits generalizing significand with
  | nil => rfl
  | cons c digits ih =>
    rw [Nat.ofDigitChars_cons] at h ⊢
    have hnext : 10 * significand + (c.toNat - '0'.toNat) ≤ greatestUnsigned := by
      rw [Nat.ofDigitChars_eq_ofDigitChars_zero] at h
      have hpos : 0 < 10 ^ digits.length := Nat.pow_pos (by decide)
      have := Nat.le_mul_of_pos_left (10 * significand + (c.toNat - '0'.toNat)) hpos
      omega
    rw [absorb, if_pos hnext, ih h]

/-- What the text of an integer is read as. -/
def ofInt (n : Int) : NumberLiteral :=
  ⟨decide (n < 0), Text.digits n.natAbs, none, none⟩

theorem number?_ofInt {n : Int} (h : JsonNumber.IsInteger64 n) :
    number? (ofInt n) = some (.integer n) := by
  obtain ⟨hlow, hhigh⟩ := h
  have hbound : Nat.ofDigitChars 10 (Text.digits n.natAbs) 0 = n.natAbs := Text.digitsValue_digits _
  have habsorb : absorb 0 (Text.digits n.natAbs) = (n.natAbs, 0) := by
    rw [absorb_eq, hbound]
    rw [hbound, greatestUnsigned]
    simp only [Nat.pow_eq] at hlow hhigh ⊢
    omega
  unfold number? ofInt
  rw [habsorb]
  dsimp only
  simp only [Nat.pow_eq] at hlow ⊢
  by_cases hneg : n < 0
  · have hvalue : -(n.natAbs : Int) = n := by omega
    rw [if_neg (by simp [hneg]), if_pos ⟨trivial, by omega, by omega⟩, hvalue]
  · have hvalue : (n.natAbs : Int) = n := by omega
    rw [if_pos ⟨trivial, by simp [hneg]⟩, hvalue]

end NumberLiteral

namespace Json

open WrittenJson (isSpace skipSpace mark? whole? fraction? exponent? number? pieces? value? items?
  members?)

/-! ## Tokens -/

theorem skipSpace_cons {c : Char} (h : isSpace c = false) (rest : List Char) :
    skipSpace (c :: rest) = c :: rest := by
  simp [skipSpace, h]

theorem mark?_cons {c first : Char} (h : isSpace first = false) (rest : List Char) :
    mark? c (first :: rest) = if first = c then some rest else none := by
  rw [mark?, skipSpace_cons h]

theorem whole?_digits (n : Nat) {rest : List Char} (h : ∀ c ∈ rest.head?, c.isDigit = false) :
    whole? (Text.digits n ++ rest) = some (Text.digits n, rest) := by
  have hdigits : WrittenJson.digits? (Text.digits n ++ rest) = some (Text.digits n, rest) := by
    unfold WrittenJson.digits?
    rw [Text.spanDigits_append (fun c hc => Text.isDigit_of_mem_digits hc) h]
    split
    · next heq => exact absurd (congrArg Prod.fst heq) (Text.digits_ne_nil n)
    · rfl
  have hzero : ¬ ((Text.digits n).head? = some '0' ∧ Text.digits n ≠ ['0']) := by
    rintro ⟨hhead, hne⟩
    obtain rfl | hpos := Nat.eq_zero_or_pos n
    · exact hne (by decide)
    · exact Text.head?_digits_ne_zero hpos hhead
  rw [whole?, hdigits]
  exact if_neg hzero

/-- Neither a fraction nor an exponent begins where a document ends. -/
theorem number?_intChars (n : Int) {rest : List Char} (hrest : ∀ c ∈ rest.head?, IsEnd c) :
    number? (Number.intChars n ++ rest) = some (.ofInt n, rest) := by
  have hdigit : ∀ c ∈ rest.head?, c.isDigit = false := by
    intro c hc
    rcases hrest c hc with rfl | rfl | rfl <;> rfl
  have hfraction : fraction? rest = some (none, rest) := by
    cases rest with
    | nil => rfl
    | cons c rest => rcases hrest c rfl with rfl | rfl | rfl <;> rfl
  have hexponent : exponent? rest = some (none, rest) := by
    cases rest with
    | nil => rfl
    | cons c rest => rcases hrest c rfl with rfl | rfl | rfl <;> rfl
  have hwhole := fun n => whole?_digits n hdigit
  unfold number?
  split
  next negative unsigned hsign =>
  cases n with
  | ofNat n =>
    have hchars : Number.intChars (.ofNat n) = Text.digits n := rfl
    obtain ⟨c, digits, hdigits⟩ := List.exists_cons_of_ne_nil (Text.digits_ne_nil n)
    have hc : c.isDigit = true := Text.isDigit_of_mem_digits (hdigits ▸ List.mem_cons_self)
    rw [hchars, hdigits, List.cons_append] at hsign
    split at hsign
    · next heq =>
      rw [(List.cons.inj heq).1] at hc
      cases hc
    · cases hsign
      rw [← List.cons_append, ← hdigits]
      simp only [hwhole, hfraction, hexponent, Option.bind_eq_bind, Option.bind_some]
      rfl
  | negSucc n =>
    have hnegative : NumberLiteral.ofInt (.negSucc n) = ⟨true, Text.digits (n + 1), none, none⟩ := by
      rw [NumberLiteral.ofInt, decide_eq_true (Int.negSucc_lt_zero n)]
      rfl
    have hchars : Number.intChars (.negSucc n) = '-' :: Text.digits (n + 1) := rfl
    rw [hchars, List.cons_append] at hsign
    cases hsign
    simp only [hwhole, hfraction, hexponent, hnegative, Option.bind_eq_bind, Option.bind_some]
    rfl

theorem isSpace_of_isNumberChar {c : Char} (h : Number.IsNumberChar c) : isSpace c = false := by
  have hne := ne_of_isNumberChar h
  simp [isSpace, hne]

/-! ## Structures -/

/-- A structure that the text of a document is read as, and that stands for the document if this is
no deeper than the levels that are left. -/
structure ReadsAs (j : Json) (written : WrittenJson) : Prop where
  first : ∃ c text, chars j = c :: text ∧ isSpace c = false ∧ c ≠ ']'
  value? : ∀ n rest, (chars j).length ≤ n → (∀ c ∈ rest.head?, IsEnd c) →
    WrittenJson.value? n (chars j ++ rest) = some (written, rest)
  toJson? : ∀ levels, written.toJson? levels = if j.depth ≤ levels then some j else none

theorem ReadsAs.pos {j : Json} {written : WrittenJson} (h : j.ReadsAs written) :
    0 < (chars j).length := by
  obtain ⟨c, text, hchars, -⟩ := h.first
  rw [hchars]
  exact Nat.succ_pos _

theorem readsAs_null : Json.null.ReadsAs .null where
  first := ⟨'n', _, rfl, rfl, by decide⟩
  value? n rest hn _ := by
    obtain _ | n := n
    · cases hn
    · rfl
  toJson? levels := by
    cases levels <;> rfl

theorem readsAs_bool (b : Bool) : (Json.bool b).ReadsAs (.bool b) where
  first := by
    cases b with
    | false => exact ⟨'f', _, rfl, rfl, by decide⟩
    | true => exact ⟨'t', _, rfl, rfl, by decide⟩
  value? n rest hn _ := by
    obtain _ | n := n
    · cases b <;> cases hn
    · cases b <;> rfl
  toJson? levels := by
    cases levels <;> rfl

theorem string?_pieces (s : String) : StringPiece.string? (s.toList.map piece) = some s := by
  rw [StringPiece.string?, chars?_pieces, Option.map_some, String.ofList_toList]

theorem readsAs_string (s : String) :
    (Json.string s).ReadsAs (.string (s.toList.map piece)) where
  first := ⟨'"', _, rfl, rfl, by decide⟩
  value? n rest hn _ := by
    obtain _ | n := n
    · cases hn
    · change WrittenJson.value? (n + 1) (stringChars s ++ rest) = _
      rw [stringChars_append]
      change (pieces? (s.toList.flatMap escapeChar ++ '"' :: rest)).map _ = _
      rw [pieces?_escaped]
      rfl
  toJson? levels := by
    cases levels <;>
    · change (StringPiece.string? (s.toList.map piece)).map Json.string = _
      rw [string?_pieces]
      rfl

theorem readsAs_integer {n : Int} (h : JsonNumber.IsInteger64 n) :
    (Json.number (.integer n)).ReadsAs (.number (.ofInt n)) := by
  obtain ⟨c, text, htext, hc⟩ := numberChars_head (n := .integer n) trivial
  have hspace := isSpace_of_isNumberChar hc
  have hkind := ofFirst_of_isNumberChar hc
  constructor
  case first =>
    exact ⟨c, text, htext, hspace, fun heq => IsEnd.not_isNumberChar (.inr (.inl heq)) hc⟩
  case value? =>
    intro m rest hm hrest
    obtain _ | m := m
    · exact absurd (List.length_eq_zero_iff.1 (Nat.le_zero.1 hm)) (Number.intChars_ne_nil n)
    · have hnumber : number? (numberChars (.integer n) ++ rest) = _ := number?_intChars n hrest
      change WrittenJson.value? (m + 1) (numberChars (.integer n) ++ rest) = _
      rw [htext, List.cons_append] at hnumber ⊢
      rw [WrittenJson.value?, skipSpace_cons hspace]
      -- Every other kind of value begins with a character of its own.
      split
      case h_7 => rw [hnumber]; rfl
      all_goals
        next heq =>
        cases heq
        cases hkind
  case toJson? =>
    intro levels
    cases levels <;>
    · change (NumberLiteral.number? (.ofInt n)).map Json.number = _
      rw [NumberLiteral.number?_ofInt h]
      rfl

/-! ## Arrays -/

theorem value?_array (n : Nat) (text : List Char) : value? (n + 1) ('[' :: text) =
    (mark? ']' text).elim ((items? n text).map fun found => (.array found.1, found.2))
      fun rest => some (.array [], rest) := by
  rw [WrittenJson.value?, skipSpace_cons rfl]
  split
  case h_5 heq =>
    cases heq
    cases mark? ']' text <;> rfl
  case h_7 hother _ => exact absurd rfl (hother _)
  all_goals
    next heq => cases heq

theorem itemsChars_cons_cons (item second : Json) (items : List Json) :
    itemsChars (item :: second :: items) = chars item ++ ',' :: itemsChars (second :: items) :=
  rfl

theorem items?_itemsChars {items : List Json} {written : List WrittenJson}
    (h : List.Forall₂ ReadsAs items written) (hne : items ≠ []) (n : Nat) (rest : List Char)
    (hn : (itemsChars items).length < n) :
    items? n (itemsChars items ++ ']' :: rest) = some (written, rest) := by
  induction h generalizing n with
  | nil => exact absurd rfl hne
  | @cons item first items others hitem hitems ih =>
    obtain _ | n := n
    · cases hn
    cases hitems with
    | nil =>
      have hread := hitem.value? n (']' :: rest) (Nat.lt_succ_iff.1 hn) (by simp [IsEnd])
      change items? (n + 1) (chars item ++ ']' :: rest) = _
      rw [items?, hread]
      rfl
    | @cons second next items others hsecond hothers =>
      -- The item and the comma are at least as long as the steps that they take.
      rw [itemsChars_cons_cons, List.length_append, List.length_cons] at hn
      have hpos := hitem.pos
      have hread := hitem.value? n (',' :: (itemsChars (second :: items) ++ ']' :: rest)) (by omega)
        (by simp [IsEnd])
      have hrest := ih (by simp) n (by omega)
      rw [itemsChars_cons_cons, List.append_assoc, List.cons_append, items?, hread]
      change ((items? n (itemsChars (second :: items) ++ ']' :: rest)).bind _) = _
      rw [hrest]
      rfl

theorem itemsToJson?_eq {items : List Json} {written : List WrittenJson}
    (h : List.Forall₂ ReadsAs items written) (levels : Nat) :
    WrittenJson.itemsToJson? levels written =
      if depthItems items ≤ levels then some items else none := by
  induction h with
  | nil => rfl
  | @cons item first items others hitem _ ih =>
    rw [WrittenJson.itemsToJson?, hitem.toJson?, ih, depthItems]
    by_cases hfirst : item.depth ≤ levels
    · by_cases hrest : depthItems items ≤ levels
      · simp [hfirst, hrest]
      · simp [hfirst, hrest]
    · simp [hfirst]

theorem first_itemsChars {items : List Json} {written : List WrittenJson}
    (h : List.Forall₂ ReadsAs items written) (hne : items ≠ []) :
    ∃ c text, itemsChars items = c :: text ∧ isSpace c = false ∧ c ≠ ']' := by
  cases h with
  | nil => exact absurd rfl hne
  | cons hitem _ =>
    obtain ⟨c, text, hchars, hspace, hbracket⟩ := hitem.first
    rw [itemsChars_cons, hchars]
    exact ⟨c, _, rfl, hspace, hbracket⟩

theorem readsAs_array {items : List Json} {written : List WrittenJson}
    (h : List.Forall₂ ReadsAs items written) : (Json.array items).ReadsAs (.array written) where
  first := ⟨'[', _, rfl, rfl, by decide⟩
  value? n rest hn _ := by
    obtain _ | n := n
    · cases hn
    have htext : chars (.array items) ++ rest = '[' :: (itemsChars items ++ ']' :: rest) := by
      simp [chars]
    rw [htext]
    obtain rfl | hne := eq_or_ne items []
    · cases h
      rfl
    · obtain ⟨c, text, hfirst, hspace, hbracket⟩ := first_itemsChars h hne
      have hlength : (itemsChars items).length < n := by
        simp [chars] at hn
        omega
      have hopen : mark? ']' (itemsChars items ++ ']' :: rest) = none := by
        rw [hfirst, List.cons_append, mark?_cons hspace, if_neg hbracket]
      rw [value?_array, hopen, Option.elim_none, items?_itemsChars h hne n rest hlength]
      rfl
  toJson? levels := by
    cases levels with
    | zero => simp [WrittenJson.toJson?, depth]
    | succ levels =>
      rw [WrittenJson.toJson?, itemsToJson?_eq h, depth]
      by_cases hdepth : depthItems items ≤ levels
      · simp [hdepth]
      · simp [hdepth]

/-! ## Objects -/

/-- What the text of a member is read as. -/
structure MemberReadsAs (member : String × Json) (written : List StringPiece × WrittenJson) :
    Prop where
  key : written.1 = member.1.toList.map piece
  value : member.2.ReadsAs written.2

theorem value?_object (n : Nat) (text : List Char) : value? (n + 1) ('\x7b' :: text) =
    (mark? '\x7d' text).elim ((members? n text).map fun found => (.object found.1, found.2))
      fun rest => some (.object [], rest) := by
  rw [WrittenJson.value?, skipSpace_cons rfl]
  split
  case h_6 heq =>
    cases heq
    cases mark? '\x7d' text <;> rfl
  case h_7 hother => exact absurd rfl (hother _)
  all_goals
    next heq => cases heq

theorem memberChars_append (member : String × Json) (rest : List Char) :
    memberChars member ++ rest =
      '"' :: (member.1.toList.flatMap escapeChar ++ '"' :: ':' :: (chars member.2 ++ rest)) := by
  rw [memberChars, List.append_assoc, stringChars_append]
  rfl

theorem length_memberChars (member : String × Json) :
    (chars member.2).length < (memberChars member).length := by
  simp [memberChars]
  omega

theorem members?_memberChars {member : String × Json} {written : List StringPiece × WrittenJson}
    (h : MemberReadsAs member written) {n : Nat} {rest : List Char}
    (hn : (chars member.2).length ≤ n) (hrest : ∀ c ∈ rest.head?, IsEnd c) :
    members? (n + 1) (memberChars member ++ rest) =
      (mark? ',' rest).elim ((mark? '\x7d' rest).map fun rest => ([written], rest))
        fun rest => (members? n rest).map fun found => (written :: found.1, found.2) := by
  obtain ⟨key, value⟩ := written
  obtain ⟨rfl, hvalue⟩ := h
  -- Quote, key, colon and value are taken off in turn.
  rw [memberChars_append, members?, mark?_cons rfl, if_pos rfl]
  dsimp only [Option.bind_eq_bind, Option.bind_some]
  rw [pieces?_escaped]
  dsimp only [Option.bind_some]
  rw [mark?_cons rfl, if_pos rfl]
  dsimp only [Option.bind_some]
  rw [hvalue.value? n rest hn hrest]
  dsimp only [Option.bind_some]
  cases mark? ',' rest with
  | none => cases mark? '\x7d' rest <;> rfl
  | some rest =>
    dsimp only [Option.elim_some]
    cases members? n rest <;> rfl

theorem membersChars_cons_cons (member second : String × Json) (members : List (String × Json)) :
    membersChars (member :: second :: members) =
      memberChars member ++ ',' :: membersChars (second :: members) :=
  rfl

theorem members?_membersChars {members : List (String × Json)}
    {written : List (List StringPiece × WrittenJson)} (h : List.Forall₂ MemberReadsAs members written)
    (hne : members ≠ []) (n : Nat) (rest : List Char) (hn : (membersChars members).length < n) :
    members? n (membersChars members ++ '\x7d' :: rest) = some (written, rest) := by
  induction h generalizing n with
  | nil => exact absurd rfl hne
  | @cons member first members others hmember hmembers ih =>
    obtain _ | n := n
    · cases hn
    have hlength := length_memberChars member
    cases hmembers with
    | nil =>
      change (memberChars member).length < n + 1 at hn
      change members? (n + 1) (memberChars member ++ '\x7d' :: rest) = _
      rw [members?_memberChars hmember (by omega) (by simp [IsEnd])]
      rfl
    | @cons second next members others hsecond hothers =>
      rw [membersChars_cons_cons, List.length_append, List.length_cons] at hn
      have hrest := ih (by simp) n (by omega)
      rw [membersChars_cons_cons, List.append_assoc, List.cons_append,
        members?_memberChars hmember (by omega) (by simp [IsEnd])]
      change (members? n (membersChars (second :: members) ++ '\x7d' :: rest)).map _ = _
      rw [hrest]
      rfl

theorem membersToJson?_eq {members : List (String × Json)}
    {written : List (List StringPiece × WrittenJson)} (h : List.Forall₂ MemberReadsAs members written)
    (levels : Nat) :
    WrittenJson.membersToJson? levels written =
      if depthMembers members ≤ levels then some members else none := by
  induction h with
  | nil => rfl
  | @cons member first members others hmember _ ih =>
    obtain ⟨key, value⟩ := member
    obtain ⟨pieces, first⟩ := first
    obtain ⟨rfl, hvalue⟩ := hmember
    dsimp only at hvalue ⊢
    rw [WrittenJson.membersToJson?, string?_pieces, hvalue.toJson?, ih, depthMembers]
    by_cases hfirst : value.depth ≤ levels
    · by_cases hrest : depthMembers members ≤ levels
      · simp [hfirst, hrest]
      · simp [hfirst, hrest]
    · simp [hfirst]

/-- Members in the order of their keys. -/
def Sorted (members : List (String × Json)) : Prop :=
  members.Pairwise fun member other => member.1 < other.1

theorem insertMember_of_forall_lt {key : String} (value : Json) {members : List (String × Json)}
    (h : ∀ member ∈ members, member.1 < key) :
    insertMember key value members = members ++ [(key, value)] := by
  induction members with
  | nil => rfl
  | cons member members ih =>
    obtain ⟨hlt, hrest⟩ := List.forall_mem_cons.1 h
    rw [insertMember, if_neg hlt.ne', if_neg hlt.asymm, ih hrest]
    rfl

theorem ofMembers_of_sorted {members : List (String × Json)} (h : Sorted members) :
    ofMembers members = .object members := by
  -- Every member comes behind those that are there.
  have hinsert : ∀ done rest : List (String × Json), Sorted (done ++ rest) →
      rest.foldl (fun sorted member => insertMember member.1 member.2 sorted) done = done ++ rest := by
    intro done rest hsorted
    induction rest generalizing done with
    | nil => simp
    | cons member rest ih =>
      have hlast : ∀ other ∈ done, other.1 < member.1 := fun other hother =>
        (List.pairwise_append.1 hsorted).2.2 other hother member List.mem_cons_self
      have hstep : insertMember member.1 member.2 done = done ++ [member] :=
        insertMember_of_forall_lt member.2 hlast
      have happend := List.append_cons done member rest
      rw [happend] at hsorted
      rw [List.foldl_cons, hstep, happend]
      exact ih _ hsorted
  exact congrArg Json.object (hinsert [] members h)

theorem readsAs_object {members : List (String × Json)}
    {written : List (List StringPiece × WrittenJson)} (hsorted : Sorted members)
    (h : List.Forall₂ MemberReadsAs members written) :
    (Json.object members).ReadsAs (.object written) where
  first := ⟨'\x7b', _, rfl, rfl, by decide⟩
  value? n rest hn _ := by
    obtain _ | n := n
    · cases hn
    have htext : chars (.object members) ++ rest =
        '\x7b' :: (membersChars members ++ '\x7d' :: rest) := by
      simp [chars]
    rw [htext]
    obtain rfl | hne := eq_or_ne members []
    · cases h
      rfl
    · have hlength : (membersChars members).length < n := by
        simp [chars] at hn
        omega
      have hopen : mark? '\x7d' (membersChars members ++ '\x7d' :: rest) = none := by
        obtain ⟨member, others, rfl⟩ := List.exists_cons_of_ne_nil hne
        rw [membersChars_cons, List.append_assoc, memberChars_append]
        rfl
      rw [value?_object, hopen, Option.elim_none, members?_membersChars h hne n rest hlength]
      rfl
  toJson? levels := by
    cases levels with
    | zero => simp [WrittenJson.toJson?, depth]
    | succ levels =>
      rw [WrittenJson.toJson?, membersToJson?_eq h, depth]
      by_cases hdepth : depthMembers members ≤ levels
      · simp [hdepth, ofMembers_of_sorted hsorted]
      · simp [hdepth]

/-! ## Documents -/

/-- Documents whose numbers are integers and whose members are sorted by key, one for each key. -/
inductive Integral : Json → Prop
  | null : Integral .null
  | bool (b : Bool) : Integral (.bool b)
  | integer {n : Int} (h : JsonNumber.IsInteger64 n) : Integral (.number (.integer n))
  | string (s : String) : Integral (.string s)
  | array {items : List Json} (h : ∀ item ∈ items, Integral item) : Integral (.array items)
  | object {members : List (String × Json)} (hsorted : Sorted members)
      (h : ∀ member ∈ members, Integral member.2) : Integral (.object members)

theorem Integral.exists_readsAs {j : Json} (h : j.Integral) : ∃ written, j.ReadsAs written := by
  have : Nonempty WrittenJson := ⟨.null⟩
  induction h with
  | null => exact ⟨_, readsAs_null⟩
  | bool b => exact ⟨_, readsAs_bool b⟩
  | integer h => exact ⟨_, readsAs_integer h⟩
  | string s => exact ⟨_, readsAs_string s⟩
  | @array items _ ih =>
    choose! written hwritten using ih
    have hitems : List.Forall₂ ReadsAs items (items.map written) := by
      rw [List.forall₂_map_right_iff, List.forall₂_same]
      exact hwritten
    exact ⟨_, readsAs_array hitems⟩
  | @object members hsorted _ ih =>
    choose! written hwritten using ih
    have hmembers : List.Forall₂ MemberReadsAs members
        (members.map fun member => (member.1.toList.map piece, written member)) := by
      rw [List.forall₂_map_right_iff, List.forall₂_same]
      exact fun member hmember => ⟨rfl, hwritten member hmember⟩
    exact ⟨_, readsAs_object hsorted hmembers⟩

/-- The text of a document reads back as the document unless this is too deep. -/
theorem Integral.read?_text {j : Json} (h : j.Integral) :
    read? j.text = if j.depth ≤ WrittenJson.depthLimit then some j else none := by
  obtain ⟨written, hwritten⟩ := h.exists_readsAs
  have hstructure : WrittenJson.read? (chars j) = some written := by
    have hvalue := hwritten.value? (2 * (chars j).length + 2) [] (by omega) (by simp)
    rw [List.append_nil] at hvalue
    rw [WrittenJson.read?, hvalue]
    rfl
  rw [read?, text, String.toList_ofList, hstructure, Option.bind_some, hwritten.toJson?]

/-- The same from the text in UTF-8. -/
theorem readBytes?_toUTF8 (s : String) : readBytes? s.toUTF8.data.toList = read? s := by
  have hbytes : String.fromUTF8? s.toUTF8 = some s := by
    unfold String.fromUTF8?
    rw [String.toUTF8_eq_toByteArray, dif_pos s.isValidUTF8]
    rfl
  change (String.fromUTF8? s.toUTF8).bind read? = _
  rw [hbytes, Option.bind_some]

end Json

end ObjectRelational
