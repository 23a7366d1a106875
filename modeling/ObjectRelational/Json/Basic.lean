import ObjectRelational.Number.BinaryFloat

/-!
# Documents

A document is null, a truth value, a number, a string, an array or an object. A number is an
integer of 64 bits, signed or unsigned, or a double; an object keeps its members sorted by key, one
for each key.
-/

namespace ObjectRelational

set_option autoImplicit false

inductive JsonNumber where
  | integer (n : Int)
  | float (x : Double)
  deriving DecidableEq

inductive Json where
  | null
  | bool (b : Bool)
  | number (n : JsonNumber)
  | string (s : String)
  | array (items : List Json)
  | object (members : List (String × Json))
  deriving Inhabited

namespace JsonNumber

/-- Equality of numbers: integers and floating-point numbers are never equal to each other. -/
def same : JsonNumber → JsonNumber → Bool
  | .integer m, .integer n => m = n
  | .float x, .float y => x.numEq y
  | _, _ => false

/-- The integers that a document can hold: the signed and the unsigned ones of 64 bits. -/
def IsInteger64 (n : Int) : Prop :=
  -(Nat.pow 2 63 : Int) ≤ n ∧ n < (Nat.pow 2 64 : Int)

instance (n : Int) : Decidable (IsInteger64 n) :=
  inferInstanceAs (Decidable (_ ∧ _))

end JsonNumber

namespace Json

mutual

/-- Equality of documents, numbers compared as numbers. -/
def same : Json → Json → Bool
  | .null, .null => true
  | .bool a, .bool b => a = b
  | .number m, .number n => m.same n
  | .string s, .string t => s = t
  | .array xs, .array ys => sameItems xs ys
  | .object xs, .object ys => sameMembers xs ys
  | _, _ => false

def sameItems : List Json → List Json → Bool
  | [], [] => true
  | x :: xs, y :: ys => same x y && sameItems xs ys
  | _, _ => false

def sameMembers : List (String × Json) → List (String × Json) → Bool
  | [], [] => true
  | (k, x) :: xs, (l, y) :: ys => k = l && same x y && sameMembers xs ys
  | _, _ => false

end

/-! ## Members -/

/-- Puts a member into a sorted list, in place of one with the same key. -/
def insertMember (key : String) (value : Json) : List (String × Json) → List (String × Json)
  | [] => [(key, value)]
  | (k, v) :: rest =>
      if key = k then (key, value) :: rest
      else if key < k then (key, value) :: (k, v) :: rest
      else (k, v) :: insertMember key value rest

/-- The object of some members; of members with one key the last counts. -/
def ofMembers (members : List (String × Json)) : Json :=
  .object (members.foldl (fun sorted member => insertMember member.1 member.2 sorted) [])

mutual

/-- How deep arrays and objects nest. -/
def depth : Json → Nat
  | .array items => depthItems items + 1
  | .object members => depthMembers members + 1
  | _ => 0

def depthItems : List Json → Nat
  | [] => 0
  | x :: xs => max (depth x) (depthItems xs)

def depthMembers : List (String × Json) → Nat
  | [] => 0
  | (_, x) :: xs => max (depth x) (depthMembers xs)

end

end Json

end ObjectRelational
