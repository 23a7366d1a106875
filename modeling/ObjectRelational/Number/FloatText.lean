import ObjectRelational.Number.Shortest

/-!
# Floating-point numbers as text

A style says how the shortest digits of a number are laid out: which leading exponents are written
positionally, whether a whole number keeps a point, and how an exactly halfway choice of the last
digit goes. `FloatStyle.plain` is the style of points, composite text and displayed values,
`FloatStyle.document` that of documents.
-/

namespace ObjectRelational

set_option autoImplicit false

structure FloatStyle where
  /-- The leading exponents written positionally; `none` stands for all of them. -/
  positional : Option (Int × Int)
  /-- What a whole number written positionally ends in. -/
  wholeEnd : String
  tie : Tie

namespace FloatStyle

/-- All numbers are positional, whole ones have no point, and a half goes up. -/
def plain : FloatStyle := ⟨none, "", .up⟩

/-- Numbers from `10 ^ (-5)` up to `10 ^ 16` are positional, whole ones end in `.0`, and a half
goes to the even digit. -/
def document : FloatStyle := ⟨some (-5, 15), ".0", .toEven⟩

end FloatStyle

namespace Number

/-- A decimal without an exponent. -/
def positionalChars (style : FloatStyle) (digits : List Char) (exponent : Int) : List Char :=
  match exponent with
  | .ofNat n => digits ++ List.replicate n '0' ++ style.wholeEnd.toList
  | .negSucc n =>
      let places := n + 1
      if digits.length ≤ places then
        '0' :: '.' :: (List.replicate (places - digits.length) '0' ++ digits)
      else
        digits.take (digits.length - places) ++ '.' :: digits.drop (digits.length - places)

/-- A decimal with one digit before the point and a signed exponent. -/
def scientificChars (digits : List Char) (leading : Int) : List Char :=
  let sign := if leading < 0 then '-' else '+'
  let mantissa := match digits with
    | first :: second :: rest => first :: '.' :: second :: rest
    | digits => digits
  mantissa ++ 'e' :: sign :: Text.digits leading.natAbs

def decimalChars (style : FloatStyle) (coefficient : Nat) (exponent : Int) : List Char :=
  let digits := Text.digits coefficient
  let leading := exponent + digits.length - 1
  match style.positional with
  | none => positionalChars style digits exponent
  | some (least, greatest) =>
      if least ≤ leading ∧ leading ≤ greatest then positionalChars style digits exponent
      else scientificChars digits leading

/-- The shortest text that reads back as the number. -/
def floatChars {format : BinaryFormat} (style : FloatStyle) (x : BinaryFloat format) : List Char :=
  if format.infinity < x.magnitude then "NaN".toList
  else
    let sign := if x.negative then ['-'] else []
    if x.magnitude = format.infinity then sign ++ "inf".toList
    else if x.magnitude = 0 then sign ++ '0' :: style.wholeEnd.toList
    else
      let (coefficient, exponent) := shortest format style.tie x.magnitude
      sign ++ decimalChars style coefficient exponent

def floatText {format : BinaryFormat} (style : FloatStyle) (x : BinaryFloat format) : String :=
  String.ofList (floatChars style x)

end Number

end ObjectRelational
