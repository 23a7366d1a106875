import ObjectRelational.Mapping.Cache
import ObjectRelational.Session.Config
import ObjectRelational.Session.Connection
import ObjectRelational.Session.LoadTracker

/-!
# Sessions

A session is a connection together with its chain of dialects, the metadata built so far, the
registered entity types and the counts of single loads. Entity types are registered before they are
used, so that wrong declarations show early.
-/

namespace ObjectRelational

set_option autoImplicit false

/-- What a session reports besides its answers. -/
inductive Event where
  | repeatedLoads (warning : LoadWarning)
  /-- Children that belong to no loaded parent. -/
  | orphans (association : String) (count : Nat)
  deriving DecidableEq, Repr

structure Session (E C : Type) where
  schema : Schema E
  config : Config
  connection : C
  cache : MetadataCache E
  registered : List E
  tracker : LoadTracker
  /-- The events so far, in order. -/
  events : List Event

/-- A computation in a session; what it has changed stays changed when it fails. -/
abbrev SessionM (E C : Type) : Type → Type := EStateM Error (Session E C)

namespace Session

variable {E C : Type}

/-- A session on a chain of its own. -/
def openWith (schema : Schema E) (connection : C) (chain : Chain) (config : Config) :
    Session E C where
  schema := schema
  config := config
  connection := connection
  cache := .ofChain chain
  registered := []
  tracker := (LoadTracker.standard.withThreshold config.loadThreshold).withEnabled
    config.countsLoads
  events := []

/-- A session on the standard chain of its engine. -/
def ofConfig (schema : Schema E) (connection : C) (config : Config) : Session E C :=
  openWith schema connection config.chain config

/-! ## Steps in the parts of a session -/

def report (event : Event) : SessionM E C Unit :=
  modify fun session => { session with events := session.events ++ [event] }

/-- Looks something up in the metadata. -/
def inCache {α : Type} (build : MetadataCache.Build E α) : SessionM E C α := fun session =>
  match build session.cache with
  | .ok found cache => .ok found { session with cache }
  | .error e cache => .error (.config e) { session with cache }

/-- Puts a statement together on the chain of the session. -/
def rendering {α : Type} (render : Rendering α) : SessionM E C α := fun session =>
  match render session.cache.chain with
  | .ok found chain => .ok found { session with cache := { session.cache with chain } }
  | .error e chain => .error e { session with cache := { session.cache with chain } }

/-- Uses the connection. -/
def connected {α : Type} (step : EStateM DatabaseError C α) : SessionM E C α := fun session =>
  match step session.connection with
  | .ok found connection => .ok found { session with connection }
  | .error e connection => .error (.database e) { session with connection }

def converted {α : Type} : Except MappingError α → SessionM E C α
  | .ok found => pure found
  | .error e => throw (.mapping e)

def configured {α : Type} : Except ConfigError α → SessionM E C α
  | .ok found => pure found
  | .error e => throw (.config e)

/-! ## Registration -/

variable [DecidableEq E]

/-- The mapper of an entity type, built on first use. -/
def mapper (entity : E) : SessionM E C (RowMapper E) := do
  let session ← get
  inCache (MetadataCache.mapper session.schema session.config.naming entity)

def isRegistered (session : Session E C) (entity : E) : Bool :=
  entity ∈ session.registered

/-- Builds the metadata of an entity type and registers it. -/
def register (entity : E) : SessionM E C Unit := do
  let _ ← mapper entity
  modify fun session =>
    if session.isRegistered entity then session
    else { session with registered := entity :: session.registered }

/-- Refuses an entity type that is not registered. -/
def requireRegistered (entity : E) : SessionM E C Unit := do
  let session ← get
  if session.isRegistered entity then pure ()
  else throw (.config (.repositoryNotFound (session.schema.declaration entity).typeName))

/-! ## Counting loads -/

def loadCount (session : Session E C) (name : AssociationName) : Nat :=
  session.tracker.count name

def loadStats (session : Session E C) : LoadStats :=
  session.tracker.stats

def resetLoads (session : Session E C) : Session E C :=
  { session with tracker := session.tracker.reset }

end Session

end ObjectRelational
