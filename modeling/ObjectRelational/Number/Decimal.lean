import ObjectRelational.Number.BinaryFloat
import ObjectRelational.Text.Digit

/-!
# Decimal numbers in text

A decimal is a coefficient times a power of ten. `Decimal.read?` takes it from text,
`Decimal.nearest` rounds it once to a binary format, and `Number.readFloat?` also knows the names
of infinity and of what is no number.
-/

namespace ObjectRelational

set_option autoImplicit false

/-- The number `coefficient * 10 ^ exponent`, with a sign that also zero has. -/
structure Decimal where
  negative : Bool
  coefficient : Nat
  exponent : Int
  deriving DecidableEq, Repr

namespace Decimal

/-! ## Reading -/

/-- The exponent part of a decimal: nothing, or `e` and an integer with at least one digit. -/
def readExponent? : List Char → Option Int
  | [] => some 0
  | mark :: rest =>
      if mark = 'e' ∨ mark = 'E' then
        let (negative, digits) := match rest with
          | '-' :: digits => (true, digits)
          | '+' :: digits => (false, digits)
          | digits => (false, digits)
        if digits ≠ [] ∧ digits.all Char.isDigit then
          let n : Int := Text.digitsValue digits
          some (if negative then -n else n)
        else none
      else none

/-- Digits with at most one point among them, at least one digit, and an optional exponent. -/
def readUnsigned? (negative : Bool) (text : List Char) : Option Decimal :=
  let (whole, rest) := Text.spanDigits text
  let (fraction, rest) := match rest with
    | '.' :: rest => Text.spanDigits rest
    | rest => ([], rest)
  if whole = [] ∧ fraction = [] then none
  else
    (readExponent? rest).map fun exponent =>
      ⟨negative, Text.digitsValue (whole ++ fraction), exponent - fraction.length⟩

/-! ## Rounding -/

/-- The number of the format nearest to a decimal. No finite number of a format in use reaches
`10 ^ 310` and none above zero lies below `10 ^ (-400)`, so that exponents far outside need no
power of ten. -/
def nearest (format : BinaryFormat) (d : Decimal) : BinaryFloat format :=
  let leading : Int := d.exponent + (Text.digits d.coefficient).length
  if d.coefficient = 0 ∨ leading < -400 then .ofMagnitude format d.negative 0
  else if leading > 310 then .ofMagnitude format d.negative format.infinity
  else match d.exponent with
    | .ofNat n => .ofQuotient format d.negative (d.coefficient * Nat.pow 10 n) 1
    | .negSucc n => .ofQuotient format d.negative d.coefficient (Nat.pow 10 (n + 1))

end Decimal

namespace Number

/-- Infinity and what is no number by their names, in any mix of ASCII capitals. -/
def namedMagnitude? (format : BinaryFormat) (text : List Char) : Option Nat :=
  let name := text.map Char.toLower
  if name = "inf".toList ∨ name = "infinity".toList then some format.infinity
  else if name = "nan".toList then some (format.infinity + format.quietBit)
  else none

def readUnsignedFloat? (format : BinaryFormat) (negative : Bool) (text : List Char) :
    Option (BinaryFloat format) :=
  match namedMagnitude? format text with
  | some magnitude => some (.ofMagnitude format negative magnitude)
  | none => (Decimal.readUnsigned? negative text).map (Decimal.nearest format)

/-- A floating-point number in text: an optional sign, then a decimal or a name. -/
def readFloat? (format : BinaryFormat) : List Char → Option (BinaryFloat format)
  | '+' :: rest => readUnsignedFloat? format false rest
  | '-' :: rest => readUnsignedFloat? format true rest
  | rest => readUnsignedFloat? format false rest

end Number

end ObjectRelational
