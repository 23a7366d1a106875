import ObjectRelational.Converter
import ObjectRelational.Dialect.Registry
import ObjectRelational.Text.Quoted

/-!
# Dialects

A dialect says how one engine stores types. It answers for the types it knows and leaves the others
to the next link of a chain. The order of its answers is fixed: a registered composite, a registered
document, engine-native storage, an enumeration by its registered or declared database type, and
last a scalar. The declared type of an enumeration is remembered in the registry when it is used.
-/

namespace ObjectRelational

set_option autoImplicit false

structure Dialect where
  name : String
  /-- The mark around quoted names. -/
  quoteMark : Char := '"'
  /-- The converter of a registered composite type. -/
  composite : TypeToken → String → Except ConfigError Converter :=
    fun token _ => .error (.unsupported name "composite types" token.name)
  /-- The converter of registered documents. -/
  document : Converter := .json .plain
  /-- Storage of UUIDs, points and documents of no registered type. -/
  native : TypeKind → Option Converter := fun _ => none
  /-- The converter of an enumeration by name, literals and database type. -/
  enumeration : String → List String → Option String → Option Converter := fun _ _ _ => none
  scalar : ScalarKind → Option Converter := fun _ => none
  /-- Answers that take the place of the fixed order. -/
  answers : Option (TypeToken → Option Converter) := none

/-- A dialect with the types registered on it. -/
structure Link where
  dialect : Dialect
  registry : Registry

namespace Link

def ofDialect (dialect : Dialect) : Link := ⟨dialect, .empty⟩

def quote (link : Link) (name : String) : String :=
  Text.quote link.dialect.quoteMark name

/-- Remembers the database type that an enumeration declares. -/
def rememberDeclared (link : Link) (token : TypeToken) : Link :=
  match token.databaseType with
  | some declared => { link with registry := link.registry.rememberEnum token declared }
  | none => link

/-- The answer by the kind of a type that is neither registered nor native. -/
def resolveKind (link : Link) (token : TypeToken) : Option Converter × Link :=
  match token.kind with
  | .enumeration literals =>
      let link := link.rememberDeclared token
      (link.dialect.enumeration token.shortName literals (link.registry.enumType? token), link)
  | .scalar kind => (link.dialect.scalar kind, link)
  | .uuid => (none, link)
  | .point => (none, link)
  | .structured => (none, link)

/-- The answers of a dialect in their fixed order. -/
def resolveInOrder (link : Link) (token : TypeToken) :
    Except ConfigError (Option Converter) × Link :=
  match link.registry.compositeType? token with
  | some databaseType => ((link.dialect.composite token databaseType).map some, link)
  | none =>
      if link.registry.isDocument token then (.ok (some link.dialect.document), link)
      else
        match link.dialect.native token.kind with
        | some converter => (.ok (some converter), link)
        | none =>
            let (found, link) := link.resolveKind token
            (.ok found, link)

/-- The converter of a type, none if it is left to the next link. -/
def resolve (link : Link) (token : TypeToken) : Except ConfigError (Option Converter) × Link :=
  match link.dialect.answers with
  | some answer => (.ok (answer token), link)
  | none => link.resolveInOrder token

end Link

end ObjectRelational
