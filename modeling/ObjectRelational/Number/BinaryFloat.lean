/-!
# Binary floating-point numbers

The two binary interchange formats, held as sign and magnitude. Magnitudes are numbered in
increasing order: zero is 0, the subnormal and normal numbers follow, infinity is the first
magnitude above all finite ones, and everything above infinity is no number.

A finite magnitude is a whole number of *quanta*, the smallest positive number of the format, so
that all arithmetic below is exact arithmetic on natural numbers followed by one rounding.

* `BinaryFormat.quanta` gives the value of a finite magnitude in quanta;
* `BinaryFormat.roundQuotient` rounds a quotient of naturals to the nearest magnitude, a half to
  the even one.
-/

namespace ObjectRelational

set_option autoImplicit false

/-- Quotient rounded to the nearest natural number, a half to the even one. -/
def roundHalfEven (num den : Nat) : Nat :=
  let quotient := num / den
  let twice := 2 * (num % den)
  if twice < den then quotient
  else if den < twice then quotient + 1
  else if quotient % 2 = 0 then quotient
  else quotient + 1

/-- A binary format: the bits of the stored fraction and of the exponent. -/
structure BinaryFormat where
  fractionBits : Nat
  exponentBits : Nat
  deriving DecidableEq

namespace BinaryFormat

def single : BinaryFormat := ⟨23, 8⟩

def double : BinaryFormat := ⟨52, 11⟩

/-- How many bits the quantum lies below one: the quantum is `2 ^ (-scale)`. -/
def scale (format : BinaryFormat) : Nat :=
  Nat.pow 2 (format.exponentBits - 1) - 2 + format.fractionBits

/-- The magnitude of infinity. -/
def infinity (format : BinaryFormat) : Nat :=
  (Nat.pow 2 format.exponentBits - 1) * Nat.pow 2 format.fractionBits

/-- The number of magnitudes. -/
def magnitudes (format : BinaryFormat) : Nat :=
  Nat.pow 2 (format.exponentBits + format.fractionBits)

/-- The quiet bit of a magnitude that is no number. -/
def quietBit (format : BinaryFormat) : Nat :=
  Nat.pow 2 (format.fractionBits - 1)

/-- The value of a finite magnitude in quanta. -/
def quanta (format : BinaryFormat) (magnitude : Nat) : Nat :=
  let unit := Nat.pow 2 format.fractionBits
  if magnitude < unit then magnitude
  else (unit + magnitude % unit) * Nat.pow 2 (magnitude / unit - 1)

/-- The magnitude nearest to `num / den`, of two nearest ones the even one; what is too great
for the format rounds to infinity. -/
def roundQuotient (format : BinaryFormat) (num den : Nat) : Nat :=
  let scaled := num * Nat.pow 2 format.scale
  let shift := Nat.log2 (scaled / den) - format.fractionBits
  min format.infinity
    (shift * Nat.pow 2 format.fractionBits + roundHalfEven scaled (den * Nat.pow 2 shift))

end BinaryFormat

/-- A number of a binary format by sign and magnitude. -/
structure BinaryFloat (format : BinaryFormat) where
  negative : Bool
  magnitude : Nat
  inRange : magnitude < format.magnitudes
  deriving DecidableEq

abbrev Single : Type := BinaryFloat .single

abbrev Double : Type := BinaryFloat .double

namespace BinaryFloat

variable {format : BinaryFormat}

/-- A number of a sign and a magnitude; magnitudes out of range wrap around. -/
def ofMagnitude (format : BinaryFormat) (negative : Bool) (magnitude : Nat) :
    BinaryFloat format where
  negative := negative
  magnitude := magnitude % format.magnitudes
  inRange := Nat.mod_lt _ (Nat.pow_pos (by decide))

def zero (format : BinaryFormat) : BinaryFloat format :=
  ofMagnitude format false 0

/-- The quiet value that is no number, with a positive sign. -/
def nan (format : BinaryFormat) : BinaryFloat format :=
  ofMagnitude format false (format.infinity + format.quietBit)

def ofBits (format : BinaryFormat) (bits : Nat) : BinaryFloat format :=
  ofMagnitude format (bits / format.magnitudes % 2 = 1) bits

def toBits (x : BinaryFloat format) : Nat :=
  (if x.negative then format.magnitudes else 0) + x.magnitude

def IsNaN (x : BinaryFloat format) : Prop :=
  format.infinity < x.magnitude

def IsFinite (x : BinaryFloat format) : Prop :=
  x.magnitude < format.infinity

instance (x : BinaryFloat format) : Decidable x.IsNaN :=
  inferInstanceAs (Decidable (_ < _))

instance (x : BinaryFloat format) : Decidable x.IsFinite :=
  inferInstanceAs (Decidable (_ < _))

/-- Numeric equality: the two zeros are equal, and what is no number equals nothing. -/
def numEq (x y : BinaryFloat format) : Bool :=
  !decide x.IsNaN && !decide y.IsNaN &&
    decide (x.magnitude = y.magnitude ∧ (x.negative = y.negative ∨ x.magnitude = 0))

/-- The nearest number to `num / den` with a sign. -/
def ofQuotient (format : BinaryFormat) (negative : Bool) (num den : Nat) : BinaryFloat format :=
  ofMagnitude format negative (format.roundQuotient num den)

def ofInt (format : BinaryFormat) (n : Int) : BinaryFloat format :=
  ofQuotient format (n < 0) n.natAbs 1

/-- The nearest number of another format. What is no number stays so, made quiet, and keeps
the leading bits of its fraction. -/
def convert (x : BinaryFloat format) (target : BinaryFormat) : BinaryFloat target :=
  if x.magnitude < format.infinity then
    ofQuotient target x.negative (format.quanta x.magnitude) (Nat.pow 2 format.scale)
  else if x.magnitude = format.infinity then
    ofMagnitude target x.negative target.infinity
  else
    let fraction := (x.magnitude - format.infinity) * Nat.pow 2 target.fractionBits
      / Nat.pow 2 format.fractionBits
    ofMagnitude target x.negative
      (target.infinity + (if fraction / target.quietBit % 2 = 1 then fraction
        else fraction + target.quietBit))

/-! ## Scaling finite numbers -/

/-- The rounded product of two finite numbers. -/
def times (x y : BinaryFloat format) : BinaryFloat format :=
  ofQuotient format (x.negative != y.negative)
    (format.quanta x.magnitude * format.quanta y.magnitude) (Nat.pow 2 (2 * format.scale))

/-- The rounded quotient of two finite numbers, the second not zero. -/
def dividedBy (x y : BinaryFloat format) : BinaryFloat format :=
  ofQuotient format (x.negative != y.negative)
    (format.quanta x.magnitude) (format.quanta y.magnitude)

def negate (x : BinaryFloat format) : BinaryFloat format :=
  { x with negative := !x.negative }

end BinaryFloat

end ObjectRelational
