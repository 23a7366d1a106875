import ObjectRelational.Dialect.Standard

/-!
# Chains of dialects

Dialects in order, the most specific first. The first link that answers for a type decides, and
registrations through the chain land on the first link. Looking a type up can make a link remember
the database type of an enumeration, so that lookups hand the chain on.
-/

namespace ObjectRelational

set_option autoImplicit false

/-- One or more links. -/
structure Chain where
  head : Link
  tail : List Link

/-- The supported engines. -/
inductive Engine where
  | generic
  | postgres
  | postgis
  | mysql
  deriving DecidableEq, Repr

namespace Chain

/-- The chain of some links; without links it is the baseline. -/
def ofLinks : List Link → Chain
  | [] => ⟨.ofDialect .generic, []⟩
  | head :: tail => ⟨head, tail⟩

def links (chain : Chain) : List Link :=
  chain.head :: chain.tail

/-- The names of the links in order. -/
def describe (chain : Chain) : String :=
  " -> ".intercalate (chain.links.map fun link => link.dialect.name)

/-- Quotes a name as the first link does. -/
def quote (chain : Chain) (name : String) : String :=
  chain.head.quote name

def link? (chain : Chain) (index : Nat) : Option Link :=
  chain.links[index]?

/-- Changes one link. -/
def modifyLink (chain : Chain) (index : Nat) (change : Link → Link) : Chain :=
  match index with
  | 0 => { chain with head := change chain.head }
  | n + 1 => { chain with tail := chain.tail.modify n change }

/-! ## Registration -/

def updateRegistry (chain : Chain) (update : Registry → Registry) : Chain :=
  { chain with head := { chain.head with registry := update chain.head.registry } }

def registerEnum (chain : Chain) (token : TypeToken) (databaseType : String) : Chain :=
  chain.updateRegistry fun registry => registry.registerEnum token databaseType

def registerComposite (chain : Chain) (token : TypeToken) (databaseType : String) : Chain :=
  chain.updateRegistry fun registry => registry.registerComposite token databaseType

def registerDocument (chain : Chain) (token : TypeToken) : Chain :=
  chain.updateRegistry fun registry => registry.registerDocument token

/-! ## Lookup -/

/-- The answer of the first link that has one, and the links as they are afterwards. -/
def resolveLinks (token : TypeToken) :
    List Link → Except ConfigError (Option Converter) × List Link
  | [] => (.ok none, [])
  | link :: rest =>
      match link.resolve token with
      | (.ok none, link) =>
          let (found, rest) := resolveLinks token rest
          (found, link :: rest)
      | (found, link) => (found, link :: rest)

/-- The converter of a type, none if no link answers for it. -/
def resolve (chain : Chain) (token : TypeToken) :
    Except ConfigError (Option Converter) × Chain :=
  match chain.head.resolve token with
  | (.ok none, head) =>
      let (found, tail) := resolveLinks token chain.tail
      (found, ⟨head, tail⟩)
  | (found, head) => (found, ⟨head, chain.tail⟩)

/-- The error for a type that needs a column and has no converter. -/
def noConverter (chain : Chain) (token : TypeToken) : ConfigError :=
  match token.kind with
  | .structured => .typeNotConfigured token.name
  | _ => .unsupportedType token.name chain.describe

/-- The converter of a type that needs a column. -/
def converterFor (chain : Chain) (token : TypeToken) : Except ConfigError Converter × Chain :=
  match chain.resolve token with
  | (.ok (some converter), chain) => (.ok converter, chain)
  | (.ok none, chain) => (.error (chain.noConverter token), chain)
  | (.error e, chain) => (.error e, chain)

/-- The converter of a registered composite type, by the first link it is registered on. -/
def compositeConverter (chain : Chain) (token : TypeToken) : Except ConfigError Converter :=
  let registered := chain.links.findSome? fun link =>
    (link.registry.compositeType? token).map fun databaseType =>
      link.dialect.composite token databaseType
  registered.getD (.error (.typeNotConfigured token.name))

/-- The converter of a registered document type, by the first link it is registered on. -/
def documentConverter (chain : Chain) (token : TypeToken) : Except ConfigError Converter :=
  match chain.links.find? fun link => link.registry.isDocument token with
  | some link => .ok link.dialect.document
  | none => .error (.typeNotConfigured token.name)

end Chain

namespace Engine

/-- The name of an engine in configuration documents. -/
def label : Engine → String
  | .generic => "generic"
  | .postgres => "postgres"
  | .postgis => "postgis"
  | .mysql => "mysql"

/-- The dialects of an engine in order. -/
def dialects (engine : Engine) (srid : Int) : List Dialect :=
  match engine with
  | .generic => [.generic]
  | .postgres => [.postgres, .generic]
  | .postgis => [.postgis srid, .postgres, .generic]
  | .mysql => [.mysql srid, .generic]

/-- The standard chain of an engine. -/
def chain (engine : Engine) (srid : Int) : Chain :=
  .ofLinks ((engine.dialects srid).map .ofDialect)

end Engine

/-- The chain of the baseline alone. -/
def Chain.standard : Chain :=
  Engine.generic.chain Dialect.defaultSrid

end ObjectRelational
