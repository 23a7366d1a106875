import ObjectRelational.Dialect.Chain
import ObjectRelational.Identifier
import ObjectRelational.Json.Printing
import ObjectRelational.Json.Record

/-!
# Configuration

The engine, the naming convention and the settings of a session, and their form as a document, in
which every field has a default.
-/

namespace ObjectRelational

set_option autoImplicit false

structure Config where
  engine : Engine := .generic
  naming : NamingConvention := .snakeCase
  srid : Int := Dialect.defaultSrid
  /-- Whether loads for single parents are counted. -/
  countsLoads : Bool := true
  /-- The number of such loads that is reported. -/
  loadThreshold : Nat := 3
  deriving DecidableEq, Repr

namespace Config

def standard : Config := {}

def engineNamed? (name : String) : Option Engine :=
  [Engine.generic, .postgres, .postgis, .mysql].find? fun engine => engine.label = name

def namingNamed? (name : String) : Option NamingConvention :=
  [NamingConvention.snakeCase, .verbatim].find? fun naming => naming.label = name

/-- The form of a configuration as a document. -/
def toFields (config : Config) : List (String × Json) :=
  [("engine", .string config.engine.label),
   ("naming", .string config.naming.label),
   ("srid", .number (.integer config.srid)),
   ("n1_detection", .bool config.countsLoads),
   ("n1_threshold", .number (.integer config.loadThreshold))]

/-- The text of a configuration document. -/
def text (config : Config) : String :=
  (Json.ofMembers config.toFields).text

/-- A field that holds its standard content where it is missing. -/
def fieldOf (name : String) (shape : JsonShape) : RecordField :=
  ⟨name, shape, standard.toFields.lookup name, standard.toFields.lookup name⟩

/-- The fields of a configuration document. -/
def shape : RecordShape :=
  [fieldOf "engine" (.choice ["generic", "postgres", "postgis", "mysql"]),
   fieldOf "naming" (.choice ["snake_case", "verbatim"]),
   fieldOf "srid" (.integer IntWidth.int.least IntWidth.int.greatest),
   fieldOf "n1_detection" .boolean,
   fieldOf "n1_threshold" (.integer 0 NumberLiteral.greatestUnsigned)]

/-- The configuration of the fields of a document in order. -/
def ofContents? : List Json → Option Config
  | [.string engine, .string naming, .number (.integer srid), .bool countsLoads,
      .number (.integer loadThreshold)] => do
      let engine ← engineNamed? engine
      let naming ← namingNamed? naming
      return ⟨engine, naming, srid, countsLoads, loadThreshold.toNat⟩
  | _ => none

/-- Reads the text of a configuration document. -/
def read? (text : String) : Option Config := do
  ofContents? ((← shape.read? text).map Prod.snd)

/-- The chain of dialects of a configuration. -/
def chain (config : Config) : Chain :=
  config.engine.chain config.srid

end Config

end ObjectRelational
