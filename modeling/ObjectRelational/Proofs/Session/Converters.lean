import ObjectRelational.Proofs.Mapping.Derivation
import ObjectRelational.Proofs.Session.Soundness

/-! # Where converters come from

A mapper takes the converters of its columns from the chain at the time it is built, and keeps them
from then on. So what every chain of a session gives for a type is what the columns of that type
have in the mappers, but for mappers that were there before.

* `MetadataCache.Stocked`: the chain is of a kind, and so are the converters of the mappers;
* `MetadataCache.maintains_mapperWithin`: building a mapper keeps a cache stocked;
* `Session.lasting_stocked`: a session's cache stays stocked.
-/

namespace ObjectRelational

set_option autoImplicit false

namespace MetadataCache

variable {E : Type} [DecidableEq E]

/-- The chain is of a kind, the columns of all mappers are of types that are looked up, and but for
some older mappers they have converters of a kind. -/
structure Stocked (types : TypeToken → Prop) (kind : Chain → Prop)
    (given : ColumnType → Converter → Prop) (older : E → Prop) (cache : MetadataCache E) : Prop where
  chain : kind cache.chain
  types : ∀ entity mapper, cache.cached? entity = some mapper →
    ∀ property ∈ mapper.metadata.simple, types property.type.token
  columns : ∀ entity mapper, cache.cached? entity = some mapper → ¬ older entity →
    ∀ property ∈ mapper.metadata.simple, given property.type property.converter

variable {schema : Schema E} {naming : NamingConvention} {types : TypeToken → Prop}
  {kind : Chain → Prop} {given : ColumnType → Converter → Prop} {older : E → Prop}

theorem stocked_ofChain {chain : Chain} (h : kind chain) :
    (ofChain chain : MetadataCache E).Stocked types kind given older :=
  ⟨h, nofun, nofun⟩

theorem Stocked.withChain {cache : MetadataCache E} (h : cache.Stocked types kind given older)
    {chain : Chain} (hchain : kind chain) :
    ({ cache with chain } : MetadataCache E).Stocked types kind given older :=
  ⟨hchain, h.types, h.columns⟩

variable (mentions : ∀ token, schema.Mentions token → types token)
  (lookup : ∀ token, types token → ∀ chain, kind chain → kind (chain.resolve token).2)
  (gives : ∀ type : ColumnType, types type.token → ∀ chain, kind chain →
    ∀ converter, (chain.converterFor type.token).1 = .ok converter → given type converter)

include lookup in
theorem maintains_isColumnType {token : TypeToken} (htoken : types token) :
    Maintains (Stocked (E := E) types kind given older) (isColumnType token) fun _ => True := by
  intro cache hcache
  have hnext := hcache.withChain (lookup token htoken cache.chain hcache.chain)
  unfold isColumnType
  rcases hfound : cache.chain.resolve token with ⟨e | found, chain⟩
  all_goals
    rw [hfound] at hnext
    exact ⟨hnext, fun _ _ _ => trivial⟩

include lookup gives in
theorem maintains_converterFor {type : ColumnType} (htype : types type.token) :
    Maintains (Stocked (E := E) types kind given older) (converterFor type.token)
      fun converter => given type converter := by
  intro cache hcache
  have hnext := hcache.withChain (lookup type.token htype cache.chain hcache.chain)
  have hgiven := gives type htype cache.chain hcache.chain
  rw [← cache.chain.converterFor_chain] at hnext
  unfold converterFor
  rcases hfound : cache.chain.converterFor type.token with ⟨e | converter, chain⟩
  · rw [hfound] at hnext
    refine ⟨hnext, fun _ _ h => ?_⟩
    cases h
  · rw [hfound] at hnext hgiven
    refine ⟨hnext, fun _ _ h => ?_⟩
    cases h
    exact hgiven converter rfl

omit [DecidableEq E] in
theorem maintains_guarded {I : MetadataCache E → Prop} {α : Type} {Q : α → Prop} {entity : E}
    {build : Build E α} (marks : ∀ cache building, I cache → I { cache with building })
    (h : Maintains I build Q) : Maintains I (guarded entity build) Q := by
  intro cache hcache
  obtain ⟨hend, hanswer⟩ := h _ (marks cache (entity :: cache.building) hcache)
  unfold guarded
  split
  · next found built hbuilt =>
    rw [hbuilt] at hend hanswer
    refine ⟨marks _ _ hend, fun answer _ h => ?_⟩
    cases h
    exact hanswer found built rfl
  · next e built hbuilt =>
    rw [hbuilt] at hend
    refine ⟨marks _ _ hend, fun _ _ h => ?_⟩
    cases h

/-- A mapper with converters of the kind is kept. -/
theorem maintains_keep {entity : E} {mapper : RowMapper E}
    (h : ∀ property ∈ mapper.metadata.simple,
      types property.type.token ∧ given property.type property.converter) :
    Maintains (Stocked types kind given older) (keep entity mapper) fun _ => True := by
  intro cache hcache
  refine ⟨⟨hcache.chain, ?_, ?_⟩, fun _ _ _ => trivial⟩
  · intro other found hfound
    rcases eq_or_cached?_of_keep hfound with ⟨-, rfl⟩ | hold
    · exact fun property hmem => (h property hmem).1
    · exact hcache.types other found hold
  · intro other found hfound hnew
    rcases eq_or_cached?_of_keep hfound with ⟨-, rfl⟩ | hold
    · exact fun property hmem => (h property hmem).2
    · exact hcache.columns other found hold hnew

include mentions lookup gives

theorem maintains_buildProperties {entity : E} {mapperOf : E → Build E (RowMapper E)}
    {properties : List (PropertyDecl E)}
    (hproperties : ∀ property ∈ properties, property ∈ (schema.declaration entity).properties)
    (hm : ∀ inner, Maintains (Stocked types kind given older) (mapperOf inner) fun _ => True) :
    Maintains (Stocked types kind given older)
      (buildProperties schema naming mapperOf properties) fun found =>
        ∀ simple ∈ found.1, types simple.type.token ∧ given simple.type simple.converter := by
  induction properties with
  | nil => exact .pure fun simple hmem => by cases hmem
  | cons property rest ih =>
    have hrest := ih fun other hmem => hproperties other (List.mem_cons_of_mem _ hmem)
    have hproperty := hproperties property List.mem_cons_self
    cases hkind : property.kind with
    | column type optional =>
      have htype : types type.token :=
        mentions _ (.inr ⟨entity, property, hproperty, type, optional, hkind, rfl⟩)
      rw [buildProperties_column hkind]
      refine .bind (maintains_converterFor lookup gives htype) fun converter hconverter => ?_
      refine .bind hrest fun found hfound => .pure fun simple hmem => ?_
      rcases List.mem_cons.1 hmem with rfl | hmem
      · exact ⟨htype, hconverter⟩
      · exact hfound simple hmem
    | nested inner =>
      rw [buildProperties_nested hkind]
      refine .bind (maintains_isColumnType lookup (mentions _ (.inl ⟨inner, rfl⟩)))
        fun isColumn _ => ?_
      cases isColumn with
      | true => exact .throw _
      | false =>
        refine .bind (hm inner) fun mapper _ => ?_
        exact .bind hrest fun found hfound => .pure hfound

theorem maintains_mapperWithin (building : List E) (entity : E) :
    Maintains (Stocked types kind given older) (mapperWithin schema naming building entity)
      fun _ => True := by
  induction building, entity using mapperWithin.induct schema with
  | case1 building entity ih =>
    unfold mapperWithin
    refine .bind_get fun cache => ?_
    split
    · exact .pure trivial
    · split
      · exact .throw _
      · next hidle =>
        have hproperties : ∀ property ∈ (schema.declaration entity).properties,
            property ∈ (schema.declaration entity).properties := fun _ h => h
        refine .bind (maintains_guarded (fun _ _ h => ⟨h.chain, h.types, h.columns⟩)
          (maintains_buildProperties mentions lookup gives hproperties (ih hidle)))
          fun found hfound => maintains_keep hfound

end MetadataCache

namespace Session

variable {E C : Type} [DecidableEq E] {schema : Schema E} {types : TypeToken → Prop}
  {kind : Chain → Prop} {given : ColumnType → Converter → Prop} {older : E → Prop}
  (mentions : ∀ token, schema.Mentions token → types token)
  (lookup : ∀ token, types token → ∀ chain, kind chain → kind (chain.resolve token).2)
  (gives : ∀ type : ColumnType, types type.token → ∀ chain, kind chain →
    ∀ converter, (chain.converterFor type.token).1 = .ok converter → given type converter)

include mentions lookup gives

theorem lasting_stocked :
    Lasting (fun session : Session E C => session.schema = schema ∧
      session.cache.Stocked types kind given older) types where
  mapper entity := by
    rintro session ⟨rfl, hstocked⟩
    have hend : (endState (MetadataCache.mapperWithin session.schema session.config.naming
        session.cache.building entity session.cache)).Stocked types kind given older :=
      (MetadataCache.maintains_mapperWithin mentions lookup gives _ entity).state hstocked
    have hsession : (endState (mapper entity session)).schema = session.schema ∧
        (endState (mapper entity session)).cache.Stocked types kind given older := by
      rw [endState_mapper]
      exact ⟨rfl, hend⟩
    refine ⟨hsession, fun found session' hfound => ?_⟩
    rw [hfound] at hsession
    exact hsession.2.types entity found (cached?_of_mapper hfound)
  lookup token htoken session h := ⟨h.1, h.2.withChain (lookup token htoken _ h.2.chain)⟩
  besides _ _ _ _ h := h

variable [Connection C]

/-- After any calls that keep the chain of its kind, a stocked session is still stocked. -/
theorem stocked_after {session : Session E C} (calls : List (Call E))
    (asks : ∀ asked, .types asked ∈ calls → ∀ chain, kind chain → kind (chain.perform asked))
    (h : session.schema = schema ∧ session.cache.Stocked types kind given older) :
    (session.after calls).schema = schema ∧
      (session.after calls).cache.Stocked types kind given older :=
  (lasting_stocked mentions lookup gives).after (fun _ _ h => h) calls
    (fun asked hasked _ h => ⟨h.1, h.2.withChain (asks asked hasked _ h.2.chain)⟩) h

end Session

end ObjectRelational
