import ObjectRelational.Json.Printing
import ObjectRelational.Value.Basic

/-!
# Values for display

The text of a value in messages and keys, and, for scalars, in composite text.
-/

namespace ObjectRelational

set_option autoImplicit false

/-- A point as a pair of coordinates in parentheses. -/
def Point.text (p : Point) : String :=
  "(" ++ Number.floatText .plain p.x ++ "," ++ Number.floatText .plain p.y ++ ")"

namespace Value

mutual

def display : Value → String
  | .null => "NULL"
  | .bool b => if b then "true" else "false"
  | .integer _ n => Number.intText n.val
  | .single x => Number.floatText .plain x
  | .double x => Number.floatText .plain x
  | .decimal s => s
  | .text s => s
  | .bytes b => "<" ++ String.ofList (Text.digits b.length) ++ " bytes>"
  | .date d => d.text
  | .time t => t.text
  | .timestamp t => t.text
  | .instant i => i.text
  | .uuid u => u.text
  | .json j => j.text
  | .array items => "(" ++ displayItems items ++ ")"
  | .record fields => "(" ++ displayItems fields ++ ")"
  | .point p => p.text
  | .typed typeName value => display value ++ "::" ++ typeName

def displayItems : List Value → String
  | [] => ""
  | [item] => display item
  | item :: rest => display item ++ "," ++ displayItems rest

end

end Value

end ObjectRelational
