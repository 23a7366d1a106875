import ObjectRelational.Value.Display

/-!
# Keys of identifiers

The key by which identifiers are matched. Integers of all widths share their keys, type wrappers do
not count, and floating-point numbers are told apart by their bits as doubles.
-/

namespace ObjectRelational

set_option autoImplicit false

inductive ValueKey where
  | null
  | bool (b : Bool)
  | int (n : Int)
  | float (x : Double)
  | text (s : String)
  | bytes (b : List UInt8)
  | uuid (u : Uuid)
  /-- The text of a value of any other kind. -/
  | other (s : String)
  deriving DecidableEq

def Value.key (value : Value) : ValueKey :=
  match value.untyped with
  | .null => .null
  | .bool b => .bool b
  | .integer _ n => .int n.val
  | .single x => .float (x.convert .double)
  | .double x => .float x
  | .decimal s => .text s
  | .text s => .text s
  | .bytes b => .bytes b
  | .uuid u => .uuid u
  | value => .other value.display

end ObjectRelational
