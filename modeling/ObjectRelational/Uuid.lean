import ObjectRelational.Text.Digit

/-!
# Universally unique identifiers

Identifiers of sixteen bytes and their text forms: hyphenated, plain, in braces, and with the
scheme `urn:uuid:`.
-/

namespace ObjectRelational

set_option autoImplicit false

structure Uuid where
  bytes : List UInt8
  length_eq : bytes.length = 16
  deriving DecidableEq

namespace Uuid

def ofBytes? (bytes : List UInt8) : Option Uuid :=
  if h : bytes.length = 16 then some ⟨bytes, h⟩ else none

@[simp]
theorem ofBytes?_bytes (u : Uuid) : ofBytes? u.bytes = some u := by
  simp [ofBytes?, u.length_eq]

def nil : Uuid := ⟨List.replicate 16 0, rfl⟩

/-- The identifier in lower case with hyphens after 8, 12, 16 and 20 digits. -/
def chars (u : Uuid) : List Char :=
  let digits := u.bytes.flatMap Text.byteHex
  digits.take 8 ++ '-' :: (digits.drop 8).take 4 ++ '-' :: (digits.drop 12).take 4
    ++ '-' :: (digits.drop 16).take 4 ++ '-' :: digits.drop 20

def text (u : Uuid) : String :=
  String.ofList u.chars

/-! ## Reading -/

/-- Thirty-two hexadecimal digits in any case. -/
def ofPlain? (digits : List Char) : Option Uuid :=
  (Text.bytesOfHex? digits).bind ofBytes?

/-- Digits with hyphens in the four places. -/
def ofHyphenated? (text : List Char) : Option Uuid :=
  if text.length = 36 ∧ [8, 13, 18, 23].all (fun i => text[i]? = some '-') then
    ofPlain? (text.take 8 ++ (text.drop 9).take 4 ++ (text.drop 14).take 4
      ++ (text.drop 19).take 4 ++ text.drop 24)
  else none

def ofBraced? : List Char → Option Uuid
  | '\x7b' :: rest =>
      if rest.getLast? = some '\x7d' then ofHyphenated? rest.dropLast else none
  | _ => none

/-- The scheme that may stand before the hyphenated form, in any mix of capitals. -/
def scheme : List Char := "urn:uuid:".toList

/-- Reads one of the four text forms. -/
def read? (text : List Char) : Option Uuid :=
  if text.length = 32 then ofPlain? text
  else if text.length = 36 then ofHyphenated? text
  else if text.length = 38 then ofBraced? text
  else if (text.take scheme.length).map Char.toLower = scheme then
    ofHyphenated? (text.drop scheme.length)
  else none

end Uuid

end ObjectRelational
