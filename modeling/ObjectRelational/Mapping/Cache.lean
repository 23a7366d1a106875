import ObjectRelational.Identifier
import ObjectRelational.Mapping.RowMapper

/-!
# The metadata cache

Mappers are built once for every entity type, on first use, and kept. Building resolves a converter
for every column and the mapper of every nested object; a type in the course of building cannot be
nested again, and is marked as such until its build ends, with or without success. A failed build
keeps the mappers of the nested types that it finished.

* `MetadataCache.mapper` finds or builds the mapper of an entity type;
* `MetadataCache.guarded` marks an entity type for the course of a build;
* `MetadataCache.buildProperties` resolves the properties of one declaration in order.
-/

namespace ObjectRelational

set_option autoImplicit false

/-- The mappers built so far, with the chain of dialects that they are built on. -/
structure MetadataCache (E : Type) where
  chain : Chain
  mappers : Table E (RowMapper E)
  /-- The entity types in the course of building, the innermost first. -/
  building : List E

namespace MetadataCache

variable {E : Type}

/-- A computation that looks types up and can find a declaration to be wrong. -/
abbrev Build (E : Type) : Type → Type := EStateM ConfigError (MetadataCache E)

def ofChain (chain : Chain) : MetadataCache E :=
  ⟨chain, [], []⟩

/-- The converter of a column type. -/
def converterFor (token : TypeToken) : Build E Converter := fun cache =>
  match cache.chain.converterFor token with
  | (.ok converter, chain) => .ok converter { cache with chain }
  | (.error e, chain) => .error e { cache with chain }

/-- Whether a type is stored in a column. -/
def isColumnType (token : TypeToken) : Build E Bool := fun cache =>
  match cache.chain.resolve token with
  | (.ok found, chain) => .ok found.isSome { cache with chain }
  | (.error e, chain) => .error e { cache with chain }

/-- The properties of a declaration after the naming convention, with the mappers of nested
objects taken from `mapperOf`. -/
def buildProperties (schema : Schema E) (naming : NamingConvention)
    (mapperOf : E → Build E (RowMapper E)) :
    List (PropertyDecl E) → Build E (List SimpleProperty × List (NestedProperty × RowMapper E))
  | [] => pure ([], [])
  | property :: rest =>
      match property.kind with
      | .column type optional => do
          let converter ← converterFor type.token
          let (simple, nested) ← buildProperties schema naming mapperOf rest
          let column := property.column?.getD (naming.columnName property.name)
          return (⟨property.name, property.slot, column, type, optional, converter⟩ :: simple,
            nested)
      | .nested entity => do
          let token := (schema.declaration entity).token
          if ← isColumnType token then
            throw (.ambiguousMapping token.name property.name)
          let mapper ← mapperOf entity
          let (simple, nested) ← buildProperties schema naming mapperOf rest
          return (simple, (⟨property.name, property.slot, property.join?⟩, mapper) :: nested)

/-- The mapper of a declaration with its properties. -/
def assemble (entity : E) (declaration : EntityDecl E) (simple : List SimpleProperty)
    (nested : List (NestedProperty × RowMapper E)) : RowMapper E :=
  .mk ⟨entity, declaration.shortName, declaration.table, declaration.idProperty, simple,
    declaration.associations, declaration.blank⟩ nested

/-- Marks an entity type as in the course of building; the mark goes however the build ends. -/
def guarded {α : Type} (entity : E) (build : Build E α) : Build E α := fun cache =>
  match build { cache with building := entity :: cache.building } with
  | .ok found cache => .ok found { cache with building := cache.building.tail }
  | .error e cache => .error e { cache with building := cache.building.tail }

variable [DecidableEq E]

/-- The mapper kept for an entity type. -/
def cached? (cache : MetadataCache E) (entity : E) : Option (RowMapper E) :=
  cache.mappers.get? entity

/-- Keeps a mapper unless the entity type has one, and gives the one that is kept. -/
def keep (entity : E) (mapper : RowMapper E) : Build E (RowMapper E) := fun cache =>
  let mappers := cache.mappers.putNew entity mapper
  .ok ((mappers.get? entity).getD mapper) { cache with mappers }

/-- The entity types that are not in the course of building. -/
def idle (schema : Schema E) (building : List E) : List E :=
  schema.entities.filter (· ∉ building)

theorem idle_cons_length (schema : Schema E) {building : List E} {entity : E}
    (h : entity ∉ building) :
    (idle schema (entity :: building)).length < (idle schema building).length := by
  have hsub : idle schema (entity :: building) = (idle schema building).filter (· ≠ entity) := by
    simp only [idle, List.filter_filter]
    congr 1
    funext e
    simp [not_or]
  rw [hsub]
  refine Nat.lt_of_le_of_ne (List.length_filter_le _ _) fun heq => ?_
  have hmem : entity ∈ idle schema building := by
    simp [idle, h, schema.complete]
  have hall := List.length_filter_eq_length_iff.1 heq
  simpa using hall entity hmem

/-- The mapper of an entity type, built on first use, while the types marked so are in the course of
building. -/
def mapperWithin (schema : Schema E) (naming : NamingConvention) (building : List E)
    (entity : E) : Build E (RowMapper E) := do
  match (← get).cached? entity with
  | some mapper => return mapper
  | none =>
      let declaration := schema.declaration entity
      if _idle : entity ∈ building then throw (.recursiveNesting declaration.shortName)
      else
        let (simple, nested) ← guarded entity (buildProperties schema naming
          (mapperWithin schema naming (entity :: building)) declaration.properties)
        keep entity (assemble entity declaration simple nested)
termination_by (idle schema building).length
decreasing_by exact idle_cons_length schema _idle

/-- The mapper of an entity type, built on first use. -/
def mapper (schema : Schema E) (naming : NamingConvention) (entity : E) :
    Build E (RowMapper E) := do
  mapperWithin schema naming (← get).building entity

end MetadataCache

end ObjectRelational
