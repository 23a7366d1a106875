import ObjectRelational.Text.Digit

/-!
# Integers of a column

The four integer widths, the numbers in their ranges, and reading an integer from text.
-/

namespace ObjectRelational

set_option autoImplicit false

/-- The widths of integer columns: 8, 16, 32 and 64 bits. -/
inductive IntWidth where
  | tinyint
  | smallint
  | int
  | bigint
  deriving DecidableEq, Repr

namespace IntWidth

def bits : IntWidth → Nat
  | .tinyint => 8
  | .smallint => 16
  | .int => 32
  | .bigint => 64

def least (width : IntWidth) : Int :=
  -(Nat.pow 2 (width.bits - 1))

def greatest (width : IntWidth) : Int :=
  (Nat.pow 2 (width.bits - 1) : Int) - 1

/-- Whether a number fits a width. -/
def Holds (width : IntWidth) (n : Int) : Prop :=
  width.least ≤ n ∧ n ≤ width.greatest

instance (width : IntWidth) (n : Int) : Decidable (width.Holds n) :=
  inferInstanceAs (Decidable (_ ∧ _))

end IntWidth

/-- An integer in the range of a width. -/
structure BoundedInt (width : IntWidth) where
  val : Int
  holds : width.Holds val
  deriving DecidableEq

namespace BoundedInt

def ofInt? (width : IntWidth) (n : Int) : Option (BoundedInt width) :=
  if h : width.Holds n then some ⟨n, h⟩ else none

@[simp]
theorem ofInt?_val {width : IntWidth} (n : BoundedInt width) : ofInt? width n.val = some n := by
  simp [ofInt?, n.holds]

end BoundedInt

namespace Number

/-! ## Integers in text -/

/-- One or more ASCII digits and nothing else. -/
def readNat? (text : List Char) : Option Nat :=
  if text ≠ [] ∧ text.all Char.isDigit then some (Text.digitsValue text) else none

/-- An optional sign before one or more ASCII digits. -/
def readInt? : List Char → Option Int
  | '+' :: digits => (readNat? digits).map Int.ofNat
  | '-' :: digits => (readNat? digits).map fun n => -Int.ofNat n
  | digits => (readNat? digits).map Int.ofNat

/-- The decimal digits of an integer, after a minus sign if it is negative. -/
def intChars : Int → List Char
  | .ofNat n => Text.digits n
  | .negSucc n => '-' :: Text.digits (n + 1)

def intText (n : Int) : String :=
  String.ofList (intChars n)

end Number

end ObjectRelational
