/-!
# Names of properties and columns

Property names are written in camel case, column names in snake case. Both conversions work
character by character and fold no acronyms.
-/

namespace ObjectRelational.Identifier

set_option autoImplicit false

/-- Replaces every ASCII capital by an underscore and its small letter. -/
def columnChars : List Char → List Char
  | [] => []
  | c :: rest => if c.isUpper then '_' :: c.toLower :: columnChars rest else c :: columnChars rest

/-- Drops underscores and capitalises the next other character after them; `pending` says that an
underscore has just been dropped. -/
def propertyChars (pending : Bool) : List Char → List Char
  | [] => []
  | c :: rest =>
      if c = '_' then propertyChars true rest
      else (if pending then c.toUpper else c) :: propertyChars false rest

def toColumnName (property : String) : String :=
  String.ofList (columnChars property.toList)

def toPropertyName (column : String) : String :=
  String.ofList (propertyChars false column.toList)

/-- Whether a name is an ASCII small letter followed by ASCII letters and digits. -/
def isCamelCase (name : String) : Bool :=
  match name.toList with
  | [] => false
  | c :: rest => c.isLower && rest.all Char.isAlphanum

end ObjectRelational.Identifier

namespace ObjectRelational

set_option autoImplicit false

/-- How the column of a property is named where the declaration does not say. -/
inductive NamingConvention where
  | snakeCase
  | verbatim
  deriving DecidableEq, Repr

namespace NamingConvention

def columnName : NamingConvention → String → String
  | .snakeCase, property => Identifier.toColumnName property
  | .verbatim, property => property

def propertyName : NamingConvention → String → String
  | .snakeCase, column => Identifier.toPropertyName column
  | .verbatim, column => column

/-- The name of a convention in configuration documents. -/
def label : NamingConvention → String
  | .snakeCase => "snake_case"
  | .verbatim => "verbatim"

end NamingConvention

end ObjectRelational
