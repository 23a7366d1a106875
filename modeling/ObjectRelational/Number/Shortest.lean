import ObjectRelational.Number.Decimal

/-!
# Shortest decimals

The decimal with the fewest digits that reads back as a given floating-point number. The decimals
with one exponent form a grid; `shortestOn` walks from coarse grids to fine ones and stops at the
first that has a point reading back, which is one of the two neighbours of the number. On the
finest grid the number itself is a point.
-/

namespace ObjectRelational

set_option autoImplicit false

/-- Which of two decimals that are equally near is chosen. -/
inductive Tie where
  | up
  | toEven
  deriving DecidableEq

namespace Number

variable (format : BinaryFormat)

/-- Whether a decimal without sign reads back as a magnitude. -/
def readsBack (magnitude coefficient : Nat) (exponent : Int) : Bool :=
  (Decimal.nearest format ⟨false, coefficient, exponent⟩).magnitude = magnitude

/-- The neighbours of a magnitude on the grid `10 ^ exponent`: the lower one, and how far the
magnitude lies above it, as numerator and denominator in steps of the grid. -/
def gridBelow (magnitude : Nat) (exponent : Int) : Nat × Nat × Nat :=
  let quanta := format.quanta magnitude
  let (num, den) := match exponent with
    | .ofNat n => (quanta, Nat.pow 2 format.scale * Nat.pow 10 n)
    | .negSucc n => (quanta * Nat.pow 10 (n + 1), Nat.pow 2 format.scale)
  (num / den, num % den, den)

/-- The point of a grid that reads back as the magnitude: of two the nearer, and if they are
equally near the one that the tie rule names. -/
def gridPoint? (tie : Tie) (magnitude : Nat) (exponent : Int) : Option Nat :=
  let (below, rest, step) := gridBelow format magnitude exponent
  let above := below + 1
  match readsBack format magnitude below exponent, readsBack format magnitude above exponent with
  | false, false => none
  | true, false => some below
  | false, true => some above
  | true, true =>
      if 2 * rest < step then some below
      else if step < 2 * rest then some above
      else match tie with
        | .up => some above
        | .toEven => some (if below % 2 = 0 then below else above)

/-- Searches the grids `10 ^ (n - scale)` for falling `n`. On the last the number of quanta, as a
multiple of `10 ^ (-scale)`, is exact. -/
def shortestOn (tie : Tie) (magnitude : Nat) : Nat → Nat × Int
  | 0 => (format.quanta magnitude * Nat.pow 5 format.scale, -(format.scale : Int))
  | n + 1 =>
      let exponent : Int := (n + 1 : Nat) - (format.scale : Int)
      match gridPoint? format tie magnitude exponent with
      | some point => (point, exponent)
      | none => shortestOn tie magnitude n

/-- The coefficient and exponent of the shortest decimal that reads back as a finite magnitude
above zero. The search starts at a grid too coarse for the number. -/
def shortest (tie : Tie) (magnitude : Nat) : Nat × Int :=
  let bits := Nat.log2 (format.quanta magnitude) + 1
  let coarse : Int := ((bits : Int) - format.scale) * 30103 / 100000 + 2
  shortestOn format tie magnitude (coarse + format.scale).toNat

end Number

end ObjectRelational
