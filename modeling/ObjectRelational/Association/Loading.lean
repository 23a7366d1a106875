import ObjectRelational.Session.Repository
import ObjectRelational.Value.Key

/-!
# Loading associations

The children of any number of parents are loaded by one query for all foreign keys that equal one of
the parents' identifiers. Everything about the declarations is checked before the query goes out.
The collections of all parents are then emptied, and each child is put into the collections of the
parents whose identifier has the same key as its foreign key.

* `Association.Owners` finds the parents of a key;
* `Association.plan` checks the declarations and puts the query together;
* `Association.distribute` hands the children out;
* `Association.load` does both, with the query between them.
-/

namespace ObjectRelational.Association

set_option autoImplicit false

variable {E C : Type} [DecidableEq E]

/-- Which parents an identifier belongs to. -/
structure Owners where
  /-- The places of the parents whose identifiers have a key. -/
  places : Table ValueKey (List Nat)
  /-- The first identifier of each key, in order. -/
  ids : List Value

/-- What is known before the query of a load goes out. -/
structure Plan (E : Type) where
  association : AssociationDecl E
  childMapper : RowMapper E
  foreignKey : SimpleProperty
  owners : Owners
  statement : Statement

/-- How a load ends: with an error or without, and with the parents as they are then. -/
structure Outcome where
  result : Except Error Unit
  parents : List Instance

/-! ## Identifiers -/

namespace Owners

def empty : Owners := ⟨[], []⟩

/-- The places of the parents that a key belongs to, in order. -/
def placesOf (owners : Owners) (key : ValueKey) : List Nat :=
  (owners.places.get? key).getD []

/-- Enters the parent at a place by its identifier; one that is null belongs to no parent. -/
def add (owners : Owners) (place : Nat) (id : Value) : Owners :=
  if id.isNull then owners
  else
    let places := owners.placesOf id.key
    { places := owners.places.put id.key (places ++ [place])
      ids := if places = [] then owners.ids ++ [id] else owners.ids }

/-- Enters some parents by the property that identifies them, counted on from a place. -/
def addAll (id : SimpleProperty) (place : Nat) (owners : Owners) :
    List Instance → Except MappingError Owners
  | [] => .ok owners
  | parent :: rest => do addAll id (place + 1) (owners.add place (← id.get parent)) rest

/-- The owners of all identifiers of some parents. -/
def ofParents (id : SimpleProperty) (parents : List Instance) : Except MappingError Owners :=
  addAll id 0 empty parents

end Owners

/-! ## Handing out children -/

/-- Puts a child into the collections of the parents at some places. -/
def give (slot : String) (child : Instance) (places : List Nat) (parents : List Instance) :
    List Instance :=
  places.foldl (fun parents place => parents.modify place fun parent => parent.pushChild slot child)
    parents

/-- The child of a row and the key of the parents it belongs to. -/
def childOf (plan : Plan E) (row : Row) : Except MappingError (Instance × ValueKey) := do
  let child ← plan.childMapper.mapRow row.view
  return (child, (← plan.foreignKey.get child).key)

/-- Hands out the children of some rows up to the first that cannot be mapped, and counts those
without a parent. -/
def giveAll (plan : Plan E) : Nat → List Row → List Instance → Except MappingError Nat × List Instance
  | orphans, [], parents => (.ok orphans, parents)
  | orphans, row :: rest, parents =>
      match childOf plan row with
      | .error e => (.error e, parents)
      | .ok (child, key) =>
          match plan.owners.placesOf key with
          | [] => giveAll plan (orphans + 1) rest parents
          | places => giveAll plan orphans rest (give plan.association.slot child places parents)

/-- Empties all collections and hands out the children of some rows. -/
def distribute (plan : Plan E) (rows : List Row) (parents : List Instance) :
    Except MappingError Nat × List Instance :=
  giveAll plan 0 rows (parents.map fun parent => parent.withCollection plan.association.slot [])

/-! ## The query -/

/-- The child's property that refers to the parent. -/
def foreignKey (parentName : String) (association : AssociationDecl E)
    (child : EntityMetadata E) : Except ConfigError SimpleProperty :=
  match association.foreignKey? with
  | none => .error (.associationMisconfigured parentName association.property .noForeignKey)
  | some name =>
      match child.simpleProperty? name with
      | some property => .ok property
      | none =>
          .error (.associationMisconfigured parentName association.property
            (.noColumn child.typeName name))

/-- The selection of an association's children. -/
def childSelect (schema : Schema E) (association : AssociationDecl E)
    (childMapper : RowMapper E) : Except ConfigError Select :=
  match (association.descriptor schema).fetchProperties with
  | some names => childMapper.selectProperties names
  | none => .ok childMapper.select

/-- Counts a load for a single parent. -/
def recordLoad (name : AssociationName) : SessionM E C Unit := do
  let (warning, tracker) := (← get).tracker.record name
  modify fun session => { session with tracker }
  match warning with
  | some warning => Session.report (.repeatedLoads warning)
  | none => pure ()

/-- Finds an association of an entity type, and counts the load if there is a single parent. -/
def begin (entity : E) (name : String) (parents : List Instance) :
    SessionM E C (AssociationDecl E) := do
  let metadata := (← Session.mapper entity).metadata
  match metadata.association? name with
  | none => throw (.config (.unknownAssociation metadata.typeName name))
  | some association =>
      if parents.length = 1 then recordLoad ⟨metadata.typeName, association.property⟩
      return association

/-- Checks the declarations on both sides and puts the query together. -/
def plan (entity : E) (association : AssociationDecl E) (parents : List Instance) :
    SessionM E C (Plan E) := do
  Session.requireRegistered association.child
  let parentMapper ← Session.mapper entity
  let childMapper ← Session.mapper association.child
  let schema := (← get).schema
  let parentName := (schema.declaration entity).typeName
  let key ← Session.configured (foreignKey parentName association childMapper.metadata)
  let id ← Session.configured parentMapper.metadata.id
  let select ← Session.configured (childSelect schema association childMapper)
  let owners ← Session.converted (Owners.ofParents id parents)
  let condition := (Condition.oneOf key.column owners.ids).withType key.type.token
  let statement ← Session.rendering (select.filter condition).render
  return ⟨association, childMapper, key, owners, statement⟩

variable [Connection C]

/-- The checks and the query of a load. -/
def fetch (entity : E) (name : String) (parents : List Instance) :
    SessionM E C (Plan E × List Row) := do
  let association ← begin entity name parents
  let plan ← plan entity association parents
  let rows ← Session.connected (Connection.query plan.statement)
  return (plan, rows)

/-- Loads an association of some parents. -/
def load (entity : E) (name : String) (parents : List Instance) :
    StateM (Session E C) Outcome := fun session =>
  match fetch entity name parents session with
  | .error e session => (⟨.error e, parents⟩, session)
  | .ok (plan, rows) session =>
      match distribute plan rows parents with
      | (.error e, parents) => (⟨.error (.mapping e), parents⟩, session)
      | (.ok 0, parents) => (⟨.ok (), parents⟩, session)
      | (.ok orphans, parents) =>
          (⟨.ok (), parents⟩,
            { session with
              events := session.events ++ [.orphans plan.association.property orphans] })

/-- Loads an association of some parents, whose entity type must be registered. -/
def loadRegistered (entity : E) (name : String) (parents : List Instance) :
    StateM (Session E C) Outcome := fun session =>
  match (Repository.mapper entity : SessionM E C (RowMapper E)) session with
  | .error e session => (⟨.error e, parents⟩, session)
  | .ok _ session => load entity name parents session

end ObjectRelational.Association
