import ObjectRelational.Json.Basic
import ObjectRelational.Json.Written
import ObjectRelational.Number.Decimal

/-!
# Reading documents

The meaning of a written document. Integers that fit 64 bits stay integers; other numbers are
doubles, rounded twice: the digits to a double, and that double times or over a power of ten. Escaped
surrogates must come in pairs, and arrays and objects nest at most 127 deep.
-/

namespace ObjectRelational

set_option autoImplicit false

namespace NumberLiteral

def greatestUnsigned : Nat := Nat.pow 2 64 - 1

/-- Appends digits to a number as long as it stays below `2 ^ 64`, and tells how many digits are
left over. -/
def absorb (significand : Nat) : List Char → Nat × Nat
  | [] => (significand, 0)
  | c :: rest =>
      let next := 10 * significand + (c.toNat - '0'.toNat)
      if next ≤ greatestUnsigned then absorb next rest else (significand, rest.length + 1)

/-- The power of ten as a double. -/
def powerOfTen (n : Nat) : Double :=
  Decimal.nearest .double ⟨false, 1, n⟩

/-- A double over a power of ten, in steps of at most `10 ^ 308`. -/
def scaleDown (x : Double) (n : Nat) : Double :=
  if n ≤ 308 then x.dividedBy (powerOfTen n)
  else if x.magnitude = 0 then x
  else scaleDown (x.dividedBy (powerOfTen 308)) (n - 308)
termination_by n
decreasing_by omega

/-- A double times a power of ten, unless it is too great. -/
def scaleUp? (x : Double) (n : Nat) : Option Double :=
  if x.magnitude = 0 then some x
  else if n ≤ 308 then
    let product := x.times (powerOfTen n)
    if product.IsFinite then some product else none
  else none

/-- A significand times a power of ten. -/
def float? (negative : Bool) (significand : Nat) (exponent : Int) : Option Double :=
  let x := BinaryFloat.ofInt .double significand
  let scaled := match exponent with
    | .ofNat n => scaleUp? x n
    | .negSucc n => some (scaleDown x (n + 1))
  scaled.map fun x => if negative then x.negate else x

/-- The exponents that count; a greater one makes a number too great or zero. -/
def greatestExponent : Nat := Nat.pow 2 31 - 1

/-- The number that a literal stands for. -/
def number? (literal : NumberLiteral) : Option JsonNumber :=
  let (significand, dropped) := absorb 0 literal.whole
  match literal.fraction, literal.exponent with
  | none, none =>
      if dropped = 0 ∧ ¬ literal.negative then some (.integer significand)
      else if dropped = 0 ∧ 0 < significand ∧ significand ≤ Nat.pow 2 63 then
        some (.integer (-significand))
      else (float? literal.negative significand dropped).map .float
  | fraction, exponent =>
      let digits := fraction.getD []
      let (significand, left) := absorb significand digits
      let places : Int := (dropped : Int) - ((digits.length - left : Nat) : Int)
      match exponent with
      | none => (float? literal.negative significand places).map .float
      | some (negative, digits) =>
          let n := Text.digitsValue digits
          if n ≤ greatestExponent then
            (float? literal.negative significand (if negative then places - n else places + n)).map
              .float
          else if significand ≠ 0 ∧ ¬ negative then none
          else some (.float (.ofMagnitude .double literal.negative 0))

end NumberLiteral

namespace StringPiece

/-- The characters of a string. A high surrogate must be followed by a low one, and no low one
stands alone. -/
def chars? : List StringPiece → Option (List Char)
  | [] => some []
  | .char c :: rest => (chars? rest).map (c :: ·)
  | .unit high :: .unit low :: rest =>
      if 0xD800 ≤ high ∧ high < 0xDC00 then
        if 0xDC00 ≤ low ∧ low < 0xE000 then
          (chars? rest).map (Char.ofNat (0x10000 + 1024 * (high - 0xD800) + (low - 0xDC00)) :: ·)
        else none
      else if 0xDC00 ≤ high ∧ high < 0xE000 then none
      else (chars? (.unit low :: rest)).map (Char.ofNat high :: ·)
  | .unit code :: rest =>
      if 0xD800 ≤ code ∧ code < 0xE000 then none
      else (chars? rest).map (Char.ofNat code :: ·)

def string? (pieces : List StringPiece) : Option String :=
  (chars? pieces).map String.ofList

end StringPiece

namespace WrittenJson

/-- How deep arrays and objects may nest. -/
def depthLimit : Nat := 127

mutual

/-- The document that a written one stands for, with a number of levels left. -/
def toJson? : Nat → WrittenJson → Option Json
  | _, .null => some .null
  | _, .bool b => some (.bool b)
  | _, .number literal => literal.number?.map .number
  | _, .string pieces => (StringPiece.string? pieces).map .string
  | 0, .array _ => none
  | n + 1, .array items => (itemsToJson? n items).map .array
  | 0, .object _ => none
  | n + 1, .object members => (membersToJson? n members).map Json.ofMembers

def itemsToJson? : Nat → List WrittenJson → Option (List Json)
  | _, [] => some []
  | n, item :: rest => do
      let item ← toJson? n item
      return item :: (← itemsToJson? n rest)

def membersToJson? : Nat → List (List StringPiece × WrittenJson) → Option (List (String × Json))
  | _, [] => some []
  | n, (key, value) :: rest => do
      let key ← StringPiece.string? key
      let value ← toJson? n value
      return (key, value) :: (← membersToJson? n rest)

end

end WrittenJson

namespace Json

/-- Reads the text of a document. -/
def read? (text : String) : Option Json :=
  (WrittenJson.read? text.toList).bind (WrittenJson.toJson? WrittenJson.depthLimit)

/-- Reads a document from its text in UTF-8. -/
def readBytes? (bytes : List UInt8) : Option Json :=
  (String.fromUTF8? ⟨bytes.toArray⟩).bind read?

end Json

end ObjectRelational
