import ObjectRelational.Calendar.Timestamp
import ObjectRelational.Json.Basic
import ObjectRelational.Number.Integer
import ObjectRelational.Uuid

/-!
# Values

The values of result cells and of bound parameters. A typed value carries the name of the database
type that the server is to give it; `Value.untyped` looks through such wrappers, and a typed null
is still null.
-/

namespace ObjectRelational

set_option autoImplicit false

/-- A point of the plane. -/
structure Point where
  x : Double
  y : Double
  deriving DecidableEq

inductive Value where
  | null
  | bool (b : Bool)
  | integer (width : IntWidth) (n : BoundedInt width)
  | single (x : Single)
  | double (x : Double)
  /-- A number of any precision, kept as text. -/
  | decimal (s : String)
  | text (s : String)
  | bytes (b : List UInt8)
  | date (d : Date)
  | time (t : TimeOfDay)
  | timestamp (t : Timestamp)
  | instant (i : Instant)
  | uuid (u : Uuid)
  | json (j : Json)
  | array (items : List Value)
  | record (fields : List Value)
  | point (p : Point)
  | typed (typeName : String) (value : Value)
  deriving Inhabited

namespace Point

/-- Equality of both coordinates as numbers. -/
def same (p q : Point) : Bool :=
  p.x.numEq q.x && p.y.numEq q.y

def IsFinite (p : Point) : Prop :=
  p.x.IsFinite ∧ p.y.IsFinite

instance (p : Point) : Decidable p.IsFinite :=
  inferInstanceAs (Decidable (_ ∧ _))

end Point

namespace Value

def isNull : Value → Bool
  | .null => true
  | .typed _ value => isNull value
  | _ => false

/-- The value inside all type wrappers. -/
def untyped : Value → Value
  | .typed _ value => untyped value
  | value => value

/-- The text of a text or decimal. -/
def asText? (value : Value) : Option String :=
  match value.untyped with
  | .text s => some s
  | .decimal s => some s
  | _ => none

/-- The number of an integer of any width. -/
def asInt? (value : Value) : Option Int :=
  match value.untyped with
  | .integer _ n => some n.val
  | _ => none

/-- The name of a kind of value in messages. -/
def kindName : Value → String
  | .null => "NULL"
  | .bool _ => "BOOL"
  | .integer .tinyint _ => "TINYINT"
  | .integer .smallint _ => "SMALLINT"
  | .integer .int _ => "INT"
  | .integer .bigint _ => "BIGINT"
  | .single _ => "FLOAT"
  | .double _ => "DOUBLE"
  | .decimal _ => "DECIMAL"
  | .text _ => "TEXT"
  | .bytes _ => "BYTES"
  | .date _ => "DATE"
  | .time _ => "TIME"
  | .timestamp _ => "TIMESTAMP"
  | .instant _ => "TIMESTAMPTZ"
  | .uuid _ => "UUID"
  | .json _ => "JSON"
  | .array _ => "ARRAY"
  | .record _ => "RECORD"
  | .point _ => "POINT"
  | .typed _ _ => "TYPED"

/-! ## Equality -/

mutual

/-- Equality of values of one kind, floating-point numbers compared as numbers. -/
def same : Value → Value → Bool
  | .null, .null => true
  | .bool a, .bool b => a = b
  | .integer v m, .integer w n => v = w ∧ m.val = n.val
  | .single x, .single y => x.numEq y
  | .double x, .double y => x.numEq y
  | .decimal s, .decimal t => s = t
  | .text s, .text t => s = t
  | .bytes a, .bytes b => a = b
  | .date d, .date e => d = e
  | .time t, .time u => t = u
  | .timestamp t, .timestamp u => t = u
  | .instant i, .instant j => i = j
  | .uuid u, .uuid v => u = v
  | .json j, .json k => j.same k
  | .array xs, .array ys => sameItems xs ys
  | .record xs, .record ys => sameItems xs ys
  | .point p, .point q => p.same q
  | .typed s x, .typed t y => s = t && same x y
  | _, _ => false

def sameItems : List Value → List Value → Bool
  | [], [] => true
  | x :: xs, y :: ys => same x y && sameItems xs ys
  | _, _ => false

end

/-! ## Looking through wrappers -/

@[simp]
theorem isNull_untyped (value : Value) : value.untyped.isNull = value.isNull := by
  induction value using Value.rec (motive_2 := fun _ => True) <;>
    simp_all [untyped, isNull]

@[simp]
theorem untyped_untyped (value : Value) : value.untyped.untyped = value.untyped := by
  induction value using Value.rec (motive_2 := fun _ => True) <;>
    simp_all [untyped]

/-- Only null is null without its wrappers. -/
theorem isNull_eq_true_iff (value : Value) : value.isNull = true ↔ value.untyped = .null := by
  induction value using Value.rec (motive_2 := fun _ => True) <;>
    simp_all [untyped, isNull]

end Value

end ObjectRelational
