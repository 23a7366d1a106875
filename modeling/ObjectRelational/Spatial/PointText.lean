import ObjectRelational.Number.FloatText
import ObjectRelational.Text.Blank
import ObjectRelational.Value.Basic

/-!
# Points in text

The two text forms of a point: a pair `(x,y)`, and the geometry `POINT(x y)`, before which a spatial
reference system `SRID=n;` may stand. White space may surround every part. The words of a geometry
are read in any case; the long s counts as an s.
-/

namespace ObjectRelational.Spatial

set_option autoImplicit false

/-! ## Parts -/

/-- The characters of a coordinate. -/
def isCoordinateChar (c : Char) : Bool :=
  c = '-' || c = '+' || c.isDigit || c = '.' || c = 'e' || c = 'E'

/-- A run of one or more coordinate characters, and the text after it. -/
def coordinate? (text : List Char) : Option (List Char × List Char) :=
  match text.takeWhile isCoordinateChar with
  | [] => none
  | found => some (found, text.dropWhile isCoordinateChar)

/-- A fixed character at the front of a text. -/
def mark? (c : Char) : List Char → Option (List Char)
  | [] => none
  | first :: rest => if first = c then some rest else none

/-- A letter in lower case, after simple case folding. -/
def foldCase (c : Char) : Char :=
  if c = 'ſ' then 's' else c.toLower

/-- A word, given in lower case, at the front of a text in any case. -/
def word? : List Char → List Char → Option (List Char)
  | [], text => some text
  | _ :: _, [] => none
  | w :: word, c :: text => if foldCase c = w then word? word text else none

/-- One or more white space characters. -/
def blanks? : List Char → Option (List Char)
  | [] => none
  | c :: rest => if Text.isBlank c then some (Text.trimStart rest) else none

/-- The spatial reference system before a geometry; its number may have digits of any script. -/
def reference? (text : List Char) : Option (List Char) := do
  let rest ← word? "srid=".toList text
  let rest := (mark? '-' rest).getD rest
  if rest.takeWhile Text.isDecimalDigit = [] then none
  else mark? ';' (rest.dropWhile Text.isDecimalDigit)

/-! ## Whole texts -/

/-- The coordinates of a pair in parentheses. -/
def pairParts? (text : List Char) : Option (List Char × List Char) := do
  let rest ← mark? '(' (Text.trimStart text)
  let (x, rest) ← coordinate? (Text.trimStart rest)
  let rest ← mark? ',' (Text.trimStart rest)
  let (y, rest) ← coordinate? (Text.trimStart rest)
  let rest ← mark? ')' (Text.trimStart rest)
  if Text.trimStart rest = [] then some (x, y) else none

/-- The coordinates of a geometry. -/
def geometryParts? (text : List Char) : Option (List Char × List Char) := do
  let rest := Text.trimStart text
  let rest := (reference? rest).getD rest
  let rest ← word? "point".toList (Text.trimStart rest)
  let rest ← mark? '(' (Text.trimStart rest)
  let (x, rest) ← coordinate? (Text.trimStart rest)
  let rest ← blanks? rest
  let (y, rest) ← coordinate? rest
  let rest ← mark? ')' (Text.trimStart rest)
  if Text.trimStart rest = [] then some (x, y) else none

/-- The point of two coordinates in text. -/
def ofParts? (parts : List Char × List Char) : Option Point := do
  let x ← Number.readFloat? .double parts.1
  let y ← Number.readFloat? .double parts.2
  return ⟨x, y⟩

/-- Reads a pair. -/
def readPair? (text : String) : Option Point :=
  (pairParts? text.toList).bind ofParts?

/-- Reads a geometry. -/
def readGeometry? (text : String) : Option Point :=
  (geometryParts? text.toList).bind ofParts?

/-- Writes a geometry, without its reference system. -/
def geometryText (p : Point) : String :=
  "POINT(" ++ Number.floatText .plain p.x ++ " " ++ Number.floatText .plain p.y ++ ")"

end ObjectRelational.Spatial
