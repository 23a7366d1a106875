/-!
# Quoted names

A name is quoted by a mark on both sides; a mark inside the name is written twice.
-/

namespace ObjectRelational.Text

set_option autoImplicit false

/-- Writes every mark twice. -/
def doubleMark (mark : Char) : List Char → List Char
  | [] => []
  | c :: rest => if c = mark then mark :: mark :: doubleMark mark rest else c :: doubleMark mark rest

def quoteChars (mark : Char) (name : List Char) : List Char :=
  mark :: doubleMark mark name ++ [mark]

/-- A name between marks. -/
def quote (mark : Char) (name : String) : String :=
  String.ofList (quoteChars mark name.toList)

end ObjectRelational.Text
