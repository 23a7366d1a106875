import ObjectRelational.Text.Digit

/-!
# Errors

Three families of errors: a declaration or registration is wrong, a value cannot be converted, or
the database failed. Each error is a cause; its wording is given by `message`.
-/

namespace ObjectRelational

set_option autoImplicit false

/-- Why a text or a list of fields is no composite value. -/
inductive CompositeFault where
  | notParenthesized
  | unterminatedField
  | danglingEscape
  | quoteInsideField
  | unexpectedAfterField (c : Char)
  | noFields
  | unsupportedField (kind : String)
  | tooFewFields
  | trailingFields (count : Nat)
  deriving DecidableEq, Repr

/-- Why an association cannot be loaded. -/
inductive AssociationFault where
  | noForeignKey
  | noColumn (child foreignKey : String)
  deriving DecidableEq, Repr

/-- A value that cannot be converted. -/
inductive MappingError where
  | typeMismatch (expected found : String)
  | invalidLiteral (typeName literal : String)
  | malformedComposite (input : String) (fault : CompositeFault)
  /-- A field of a record that cannot be converted, by the names of the record and the field. -/
  | malformedField (path : String) (cause : MappingError)
  | malformedPoint (input : String)
  | malformedDocument
  | invalidText (expected input : String)
  /-- Any of these while reading or writing the column of a property. -/
  | property (entity property column : String) (cause : MappingError)
  deriving DecidableEq, Repr

/-- A wrong declaration or registration. -/
inductive ConfigError where
  | typeNotConfigured (typeName : String)
  | unsupportedType (typeName chain : String)
  | unsupported (engine feature typeName : String)
  | ambiguousMapping (typeName property : String)
  | unknownProperty (entity property : String)
  | unknownAssociation (entity association : String)
  | associationMisconfigured (entity association : String) (fault : AssociationFault)
  | repositoryNotFound (typeName : String)
  | missingIdProperty (entity property : String)
  | recursiveNesting (typeName : String)
  deriving DecidableEq, Repr

/-- What the database was doing when it failed. -/
inductive DatabaseErrorKind where
  | connection
  | constraint
  | query
  | other
  deriving DecidableEq, Repr

structure DatabaseError where
  kind : DatabaseErrorKind
  detail : String
  deriving DecidableEq, Repr

inductive Error where
  | config (e : ConfigError)
  | mapping (e : MappingError)
  | database (e : DatabaseError)
  deriving DecidableEq, Repr

/-! ## Wording -/

/-- A name between backticks. -/
def inTicks (name : String) : String :=
  "\x60" ++ name ++ "\x60"

namespace CompositeFault

def message : CompositeFault → String
  | notParenthesized => "expected a parenthesized field list"
  | unterminatedField => "unterminated quoted field"
  | danglingEscape => "dangling escape"
  | quoteInsideField => "quote inside unquoted field"
  | unexpectedAfterField c => "unexpected " ++ inTicks (String.ofList [c]) ++ " after field"
  | noFields => "a composite value needs at least one field"
  | unsupportedField kind => kind ++ " fields are not supported"
  | tooFewFields => "record has too few fields"
  | trailingFields count =>
      "record has " ++ String.ofList (Text.digits count) ++ " unexpected trailing field(s)"

end CompositeFault

namespace AssociationFault

def message : AssociationFault → String
  | noForeignKey => "no foreign key declared"
  | noColumn child foreignKey => inTicks child ++ " has no column for " ++ inTicks foreignKey

end AssociationFault

namespace MappingError

def message : MappingError → String
  | typeMismatch expected found => "expected " ++ expected ++ ", found " ++ found
  | invalidLiteral typeName literal =>
      inTicks literal ++ " is not a valid literal for enum " ++ inTicks typeName
  | malformedComposite input fault =>
      "malformed composite value " ++ inTicks input ++ ": " ++ fault.message
  | malformedField path cause => "malformed composite value " ++ inTicks path ++ ": " ++ cause.message
  | malformedPoint input => "malformed spatial value " ++ inTicks input
  | malformedDocument => "json codec error"
  | invalidText expected input => "cannot parse " ++ inTicks input ++ " as " ++ expected
  | property entity name column cause =>
      entity ++ "." ++ name ++ " (column " ++ inTicks column ++ "): " ++ cause.message

end MappingError

namespace ConfigError

def message : ConfigError → String
  | typeNotConfigured typeName =>
      "type " ++ inTicks typeName
        ++ " is not configured: register it as a composite or JSON type"
  | unsupportedType typeName chain =>
      "no dialect in chain [" ++ chain ++ "] can map type " ++ inTicks typeName ++ " to a column"
  | unsupported engine feature typeName =>
      engine ++ " does not support " ++ feature ++ " (type " ++ inTicks typeName ++ ")"
  | ambiguousMapping typeName property =>
      "property " ++ inTicks property ++ " is declared nested but type " ++ inTicks typeName
        ++ " is registered as a column type"
  | unknownProperty entity property =>
      "entity " ++ inTicks entity ++ " has no property " ++ inTicks property
  | unknownAssociation entity association =>
      "entity " ++ inTicks entity ++ " declares no association " ++ inTicks association
  | associationMisconfigured entity association fault =>
      "association " ++ inTicks (entity ++ "." ++ association) ++ " is misconfigured: "
        ++ fault.message
  | repositoryNotFound typeName => "no repository registered for entity " ++ inTicks typeName
  | missingIdProperty entity property =>
      "entity " ++ inTicks entity ++ " has no identifier property " ++ inTicks property
  | recursiveNesting typeName =>
      "type " ++ inTicks typeName ++ " nests itself; recursive row mapping is not supported"

end ConfigError

namespace DatabaseErrorKind

def label : DatabaseErrorKind → String
  | connection => "connection"
  | constraint => "constraint"
  | query => "query"
  | other => "database"

end DatabaseErrorKind

def DatabaseError.message (e : DatabaseError) : String :=
  e.kind.label ++ " error: " ++ e.detail

def Error.message : Error → String
  | config e => e.message
  | mapping e => e.message
  | database e => e.message

/-! ## Codes -/

namespace ConfigError

/-- The name of a cause, for programs. -/
def code : ConfigError → String
  | typeNotConfigured .. => "TypeNotConfigured"
  | unsupportedType .. => "UnsupportedType"
  | unsupported .. => "Unsupported"
  | ambiguousMapping .. => "AmbiguousMapping"
  | unknownProperty .. => "UnknownProperty"
  | unknownAssociation .. => "UnknownAssociation"
  | associationMisconfigured .. => "AssociationMisconfigured"
  | repositoryNotFound .. => "RepositoryNotFound"
  | missingIdProperty .. => "MissingIdProperty"
  | recursiveNesting .. => "RecursiveNesting"

end ConfigError

namespace MappingError

/-- The name of a cause; that of a property's error goes on to its own cause. -/
def code : MappingError → String
  | typeMismatch .. => "TypeMismatch"
  | invalidLiteral .. => "InvalidEnumLiteral"
  | malformedComposite .. => "MalformedComposite"
  | malformedField .. => "MalformedComposite"
  | malformedPoint .. => "MalformedSpatial"
  | malformedDocument => "Json"
  | invalidText .. => "InvalidText"
  | property _ _ _ cause => "Property." ++ cause.code

end MappingError

namespace DatabaseErrorKind

def code : DatabaseErrorKind → String
  | connection => "Connection"
  | constraint => "Constraint"
  | query => "Query"
  | other => "Other"

end DatabaseErrorKind

/-- The family and cause of an error. -/
def Error.code : Error → String
  | config e => "Config." ++ e.code
  | mapping e => "Mapping." ++ e.code
  | database e => "Database." ++ e.kind.code

end ObjectRelational
