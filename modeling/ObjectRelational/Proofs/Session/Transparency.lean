import ObjectRelational.Proofs.Mapping.Transparency
import ObjectRelational.Proofs.Session.Soundness

/-! # Metadata does not depend on the past

As long as no types are registered on its chain, a session answers a lookup of a mapper as a new one
does: with the same metadata or with the same error, whatever it was asked before and however that
ended.

* `Session.lasting_faithful`: what the cache holds is what the declarations give;
* `Session.mapper_after`: the answer after any calls.
-/

namespace ObjectRelational.Session

set_option autoImplicit false

variable {E C : Type} [DecidableEq E]

/-- The mappers of a session are what its declarations give, and none is being built. -/
structure Derived (schema : Schema E) (naming : NamingConvention) (types : TypeToken → Prop)
    (origin : Chain) (session : Session E C) : Prop where
  schema_eq : session.schema = schema
  naming_eq : session.config.naming = naming
  faithful : session.cache.Faithful schema naming types origin
  idle : session.cache.building = []

theorem answerOf_mapper (entity : E) (session : Session E C) :
    answerOf (mapper entity session) = (answerOf (MetadataCache.mapper session.schema
      session.config.naming entity session.cache)).mapError .config := by
  change answerOf (inCache _ session) = _
  unfold inCache
  cases MetadataCache.mapper session.schema session.config.naming entity session.cache <;> rfl

section Answers

variable {schema : Schema E} {naming : NamingConvention} {types : TypeToken → Prop} {origin : Chain}
  (tell : NamesTell types) (mentions : ∀ token, schema.Mentions token → types token)

include tell mentions

/-- A session with derived mappers answers as the declarations do, and its mappers stay derived. -/
theorem Derived.mapper {session : Session E C} (h : session.Derived schema naming types origin)
    (entity : E) :
    (endState (mapper entity session)).Derived schema naming types origin ∧
      answerOf (Session.mapper entity session) =
        (schema.derive naming origin [] entity).mapError .config := by
  obtain ⟨rfl, rfl, hfaithful, hidle⟩ := h
  obtain ⟨hend, hanswer⟩ := MetadataCache.matches_mapper tell mentions entity hfaithful hidle
  have hbuilding := MetadataCache.building_mapper session.schema session.config.naming entity
    session.cache
  rw [endState_mapper, answerOf_mapper, hanswer]
  exact ⟨⟨rfl, rfl, hend, hbuilding.trans hidle⟩, rfl⟩

theorem lasting_faithful :
    Lasting (Derived (C := C) schema naming types origin) types where
  mapper entity session h := by
    obtain ⟨hend, hanswer⟩ := h.mapper tell mentions entity
    refine ⟨hend, fun found session' hfound property hmem => ?_⟩
    rw [hfound] at hanswer
    have hderived : schema.derive naming origin [] entity = .ok found := by
      cases hderived : schema.derive naming origin [] entity with
      | error e =>
        rw [hderived] at hanswer
        cases hanswer
      | ok derived =>
        rw [hderived] at hanswer
        cases hanswer
        rfl
    exact mentions _ (Schema.mentions_of_derive hderived property hmem)
  lookup token htoken session h :=
    ⟨h.schema_eq, h.naming_eq, h.faithful.resolve tell htoken, h.idle⟩
  besides _ _ _ _ h := ⟨h.schema_eq, h.naming_eq, h.faithful, h.idle⟩

end Answers

theorem derived_openWith (schema : Schema E) (types : TypeToken → Prop) (connection : C)
    (chain : Chain) (config : Config) :
    (openWith schema connection chain config).Derived schema config.naming types chain where
  schema_eq := rfl
  naming_eq := rfl
  faithful := ⟨.refl chain, fun entity mapper h => by cases h⟩
  idle := rfl

/-- On a chain whose registrations stay as they are a session answers a lookup of a mapper, after
any calls and whether these succeeded or failed, as it did when it was opened, and as a session with
an empty cache does. The chain may be asked for converters in between; a type is told by its
name. -/
theorem mapper_after [Connection C] (schema : Schema E) (connection : C) (chain : Chain)
    (config : Config) (calls : List (Call E))
    (tell : NamesTell fun token =>
      schema.Mentions token ∨ ∃ asked, .types asked ∈ calls ∧ asked.token = token)
    (fixed : ∀ asked, .types asked ∈ calls → asked.isRegistration = false) (entity : E) :
    let start := openWith schema connection chain config
    let session := start.after calls
    answerOf (mapper entity session) = answerOf (mapper entity start) ∧
      answerOf (mapper entity session) =
        answerOf (mapper entity (session.withCache (.ofChain session.cache.chain))) := by
  intro start session
  let types : TypeToken → Prop := fun token =>
    schema.Mentions token ∨ ∃ asked, .types asked ∈ calls ∧ asked.token = token
  have hmentions : ∀ token, schema.Mentions token → types token := fun _ h => .inl h
  have hstart : start.Derived schema config.naming types chain :=
    derived_openWith schema types connection chain config
  have hsession : session.Derived schema config.naming types chain := by
    refine (lasting_faithful tell hmentions).after
      (fun _ _ h => ⟨h.schema_eq, h.naming_eq, h.faithful, h.idle⟩) calls ?_ hstart
    intro asked hasked before h
    have hchain := before.cache.chain.remembers_lookup tell (fixed asked hasked)
      (.inr ⟨asked, hasked, rfl⟩)
    exact ⟨h.schema_eq, h.naming_eq, ⟨h.faithful.chain.trans hchain, h.faithful.mappers⟩, h.idle⟩
  have hfresh : (session.withCache (.ofChain session.cache.chain)).Derived schema config.naming types
      chain :=
    ⟨hsession.schema_eq, hsession.naming_eq,
      ⟨hsession.faithful.chain, fun entity mapper h => by cases h⟩, rfl⟩
  rw [(hsession.mapper tell hmentions entity).2, (hstart.mapper tell hmentions entity).2,
    (hfresh.mapper tell hmentions entity).2]
  exact ⟨rfl, rfl⟩

/-- Teams with a captain, and groups that would be nested in themselves. -/
inductive League where
  | team
  | player
  | group
  deriving DecidableEq

namespace League

def words : ColumnType := ⟨⟨"String", .scalar .text, none⟩, .text⟩

def schema : Schema League where
  entities := [.team, .player, .group]
  complete entity := by cases entity <;> simp
  declaration
    | .team => .ofProperties "league::Team" "teams" "name"
        [.field "name" words "name", .nested "captain" .player "captain"]
        [⟨"players", "players", .player, some "team", []⟩]
    | .player => .ofProperties "league::Player" "players" "name"
        [.field "name" words "name", .optional "team" words "team"] []
    | .group => .ofProperties "league::Group" "groups" "name"
        [.field "name" words "name", .nested "captain" .player "captain",
          .nested "outer" .group "outer"] []

theorem mentions {token : TypeToken} (h : schema.Mentions token) :
    token ∈ [words.token, (schema.declaration .team).token, (schema.declaration .player).token,
      (schema.declaration .group).token] := by
  rcases h with ⟨entity, rfl⟩ | ⟨entity, property, hmem, type, optional, hkind, rfl⟩
  · cases entity <;> simp
  · have htype : type = words := by
      cases entity <;>
      · simp only [schema, EntityDecl.ofProperties, List.mem_cons, List.not_mem_nil, or_false] at hmem
        rcases hmem with rfl | rfl | rfl <;> cases hkind <;> rfl
    simp [htype]

/-- A failed lookup, a registration, a lookup of an enumeration, and a load that fails because
players are not registered. -/
def calls : List (Call League) :=
  [.mapper .group, .register .team, .types (.resolve Chain.mood), .load .team "players" [.empty]]

end League

theorem mapper_after_league :
    let session := (openWith League.schema ({} : RecordingConnection)
      (Engine.postgres.chain 4326) .standard).after League.calls
    ((answerOf (mapper .team session)).map fun found => found.metadata.columnNames) =
        .ok ["name"] ∧
      ((answerOf (mapper .group session)).map fun found => found.metadata.columnNames) =
        .error (.config (.recursiveNesting "Group")) := by
  intro session
  let tokens : List TypeToken := [League.words.token, (League.schema.declaration .team).token,
    (League.schema.declaration .player).token, (League.schema.declaration .group).token, Chain.mood]
  have hasked : ∀ asked, Call.types asked ∈ League.calls → asked = .resolve Chain.mood := by
    simp [League.calls]
  have hall : ∀ token, (League.schema.Mentions token ∨
      ∃ asked, Call.types asked ∈ League.calls ∧ asked.token = token) → token ∈ tokens := by
    rintro token (h | ⟨asked, h, rfl⟩)
    · exact List.mem_append_left [Chain.mood] (League.mentions h)
    · rw [hasked asked h]
      decide
  have hnames : ∀ token ∈ tokens, ∀ other ∈ tokens, token.name = other.name → token = other := by
    decide
  have tell : NamesTell fun token => League.schema.Mentions token ∨
      ∃ asked, Call.types asked ∈ League.calls ∧ asked.token = token :=
    fun token other h h' => hnames token (hall token h) other (hall other h')
  have fixed : ∀ asked, Call.types asked ∈ League.calls → asked.isRegistration = false :=
    fun asked h => by rw [hasked asked h]; rfl
  have hanswer : ∀ entity, answerOf (mapper entity session) = answerOf (mapper entity _) :=
    fun entity => (mapper_after League.schema ({} : RecordingConnection)
      (Engine.postgres.chain 4326) .standard League.calls tell fixed entity).1
  rw [hanswer, hanswer]
  decide +kernel

end ObjectRelational.Session
