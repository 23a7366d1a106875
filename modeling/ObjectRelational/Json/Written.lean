import ObjectRelational.Text.Digit

/-!
# Documents as written

The text of a document read for its structure only. Numbers keep their digits, strings their
escapes and objects all their members in order, so that the same reading serves a document as a
whole, where numbers must be in range and escapes must make sense, and a record that passes over
members it does not know.
-/

namespace ObjectRelational

set_option autoImplicit false

/-- A number as written: digits, with a fraction if there was a point, and an exponent. -/
structure NumberLiteral where
  negative : Bool
  whole : List Char
  fraction : Option (List Char)
  exponent : Option (Bool × List Char)

/-- A piece of a string: a character, or a code unit given by an escape. -/
inductive StringPiece where
  | char (c : Char)
  | unit (code : Nat)

inductive WrittenJson where
  | null
  | bool (b : Bool)
  | number (literal : NumberLiteral)
  | string (pieces : List StringPiece)
  | array (items : List WrittenJson)
  | object (members : List (List StringPiece × WrittenJson))

namespace WrittenJson

/-! ## Tokens -/

def isSpace (c : Char) : Bool :=
  c = ' ' || c = '\n' || c = '\t' || c = '\r'

def skipSpace (text : List Char) : List Char :=
  text.dropWhile isSpace

/-- Takes a fixed character after white space. -/
def mark? (c : Char) (text : List Char) : Option (List Char) :=
  match skipSpace text with
  | first :: rest => if first = c then some rest else none
  | [] => none

/-- A run of digits with at least one digit. -/
def digits? (text : List Char) : Option (List Char × List Char) :=
  match Text.spanDigits text with
  | ([], _) => none
  | found => some found

/-- The digits before the point: a single zero or digits that do not begin with one. -/
def whole? (text : List Char) : Option (List Char × List Char) := do
  let (digits, rest) ← digits? text
  if digits.head? = some '0' ∧ digits ≠ ['0'] then none else some (digits, rest)

def fraction? : List Char → Option (Option (List Char) × List Char)
  | '.' :: rest => (digits? rest).map fun (digits, rest) => (some digits, rest)
  | rest => some (none, rest)

def exponent? : List Char → Option (Option (Bool × List Char) × List Char)
  | [] => some (none, [])
  | c :: rest =>
      if c = 'e' ∨ c = 'E' then
        let (negative, rest) := match rest with
          | '+' :: rest => (false, rest)
          | '-' :: rest => (true, rest)
          | rest => (false, rest)
        (digits? rest).map fun (digits, rest) => (some (negative, digits), rest)
      else some (none, c :: rest)

def number? (text : List Char) : Option (NumberLiteral × List Char) := do
  let (negative, rest) := match text with
    | '-' :: rest => (true, rest)
    | rest => (false, rest)
  let (whole, rest) ← whole? rest
  let (fraction, rest) ← fraction? rest
  let (exponent, rest) ← exponent? rest
  return (⟨negative, whole, fraction, exponent⟩, rest)

/-- The character that a one-letter escape stands for. -/
def escaped? : Char → Option Char
  | '"' => some '"'
  | '\\' => some '\\'
  | '/' => some '/'
  | 'b' => some '\x08'
  | 'f' => some '\x0c'
  | 'n' => some '\n'
  | 'r' => some '\r'
  | 't' => some '\t'
  | _ => none

def hexUnit? (a b c d : Char) : Option Nat := do
  let w ← Text.hexDigitValue? a
  let x ← Text.hexDigitValue? b
  let y ← Text.hexDigitValue? c
  let z ← Text.hexDigitValue? d
  return 4096 * w + 256 * x + 16 * y + z

/-- The pieces of a string up to its closing quote. Control characters must be escaped. -/
def pieces? : List Char → Option (List StringPiece × List Char)
  | [] => none
  | '"' :: rest => some ([], rest)
  | '\\' :: 'u' :: a :: b :: c :: d :: rest => do
      let code ← hexUnit? a b c d
      let (pieces, rest) ← pieces? rest
      return (.unit code :: pieces, rest)
  | '\\' :: e :: rest => do
      let c ← escaped? e
      let (pieces, rest) ← pieces? rest
      return (.char c :: pieces, rest)
  | c :: rest =>
      if c = '\\' ∨ c.toNat < 0x20 then none
      else do
        let (pieces, rest) ← pieces? rest
        return (.char c :: pieces, rest)

/-! ## Values -/

/-- A fixed word at the front of a text. -/
def word? (word : String) (meaning : WrittenJson) (text : List Char) :
    Option (WrittenJson × List Char) :=
  if word.toList.isPrefixOf text then some (meaning, text.drop word.length) else none

mutual

/-- One value after white space. The count bounds the recursion. -/
def value? : Nat → List Char → Option (WrittenJson × List Char)
  | 0, _ => none
  | n + 1, text =>
      match skipSpace text with
      | 'n' :: rest => word? "null" .null ('n' :: rest)
      | 't' :: rest => word? "true" (.bool true) ('t' :: rest)
      | 'f' :: rest => word? "false" (.bool false) ('f' :: rest)
      | '"' :: rest => (pieces? rest).map fun (pieces, rest) => (.string pieces, rest)
      | '[' :: rest =>
          match mark? ']' rest with
          | some rest => some (.array [], rest)
          | none => (items? n rest).map fun (items, rest) => (.array items, rest)
      | '\x7b' :: rest =>
          match mark? '\x7d' rest with
          | some rest => some (.object [], rest)
          | none => (members? n rest).map fun (members, rest) => (.object members, rest)
      | rest => (number? rest).map fun (literal, rest) => (.number literal, rest)

/-- The items of an array up to its closing bracket. -/
def items? : Nat → List Char → Option (List WrittenJson × List Char)
  | 0, _ => none
  | n + 1, text => do
      let (item, rest) ← value? n text
      match mark? ',' rest with
      | some rest =>
          let (items, rest) ← items? n rest
          return (item :: items, rest)
      | none => return ([item], ← mark? ']' rest)

/-- The members of an object up to its closing brace. -/
def members? : Nat → List Char → Option (List (List StringPiece × WrittenJson) × List Char)
  | 0, _ => none
  | n + 1, text => do
      let rest ← mark? '"' text
      let (key, rest) ← pieces? rest
      let rest ← mark? ':' rest
      let (value, rest) ← value? n rest
      match mark? ',' rest with
      | some rest =>
          let (members, rest) ← members? n rest
          return ((key, value) :: members, rest)
      | none => return ([(key, value)], ← mark? '\x7d' rest)

end

/-- The structure of a whole text. A value spends at most two steps on a character. -/
def read? (text : List Char) : Option WrittenJson := do
  let (value, rest) ← value? (2 * text.length + 2) text
  if skipSpace rest = [] then some value else none

end WrittenJson

end ObjectRelational
