import ObjectRelational.Proofs.Dialect.History
import ObjectRelational.Proofs.Mapping.Derivation

/-! # What a cache answers

A cache on a chain whose registrations stay as they are answers every lookup as the declarations do.
A hit passes over the build and all its checks; but a type that has a mapper has passed them, and it
reaches no type that is in the course of building, since such a type would reach itself.

* `Matches`: a computation keeps an invariant, and its answer is a given one;
* `MetadataCache.Faithful`: the chain differs by what it remembers, and the mappers are derived;
* `MetadataCache.matches_mapper`: looking a mapper up answers as the declarations do.
-/

namespace ObjectRelational

set_option autoImplicit false

/-! ## Computations with a known answer -/

section Answers

variable {ε σ α β : Type} {I : σ → Prop}

/-- The answer of a computation apart from its last state. -/
def answerOf : EStateM.Result ε σ α → Except ε α
  | .ok a _ => .ok a
  | .error e _ => .error e

/-- From a state with an invariant the computation ends in one, with the given answer. -/
def Matches (I : σ → Prop) (m : EStateM ε σ α) (answer : Except ε α) : Prop :=
  ∀ s, I s → I (endState (m s)) ∧ answerOf (m s) = answer

theorem Matches.pure (a : α) : Matches I (pure a : EStateM ε σ α) (.ok a) :=
  fun _ hs => ⟨hs, rfl⟩

theorem Matches.throw (e : ε) : Matches I (throw e : EStateM ε σ α) (.error e) :=
  fun _ hs => ⟨hs, rfl⟩

theorem Matches.bind {m : EStateM ε σ α} {k : α → EStateM ε σ β} {answer : Except ε α}
    {next : α → Except ε β} (hm : Matches I m answer)
    (hk : ∀ a, answer = .ok a → Matches I (k a) (next a)) :
    Matches I (m >>= k) (answer >>= next) := by
  intro s hs
  obtain ⟨hend, rfl⟩ := hm s hs
  rw [bind_apply]
  cases h : m s with
  | error e s₁ =>
    rw [h] at hend
    exact ⟨hend, rfl⟩
  | ok a s₁ =>
    rw [h] at hend hk
    exact hk a rfl s₁ hend

end Answers

/-! ## Caches -/

namespace MetadataCache

variable {E : Type} [DecidableEq E]

/-- The chain is the given one but for what it remembers, and every mapper is what the declarations
give on it. -/
structure Faithful (schema : Schema E) (naming : NamingConvention) (types : TypeToken → Prop)
    (origin : Chain) (cache : MetadataCache E) : Prop where
  chain : origin.Remembers types cache.chain
  mappers : ∀ entity mapper, cache.cached? entity = some mapper →
    schema.derive naming origin [] entity = .ok mapper

variable {schema : Schema E} {naming : NamingConvention} {types : TypeToken → Prop} {origin : Chain}

section Lookups

variable (tell : NamesTell types) {token : TypeToken} (htoken : types token)

include tell htoken

theorem Faithful.resolve {cache : MetadataCache E}
    (h : cache.Faithful schema naming types origin) :
    ({ cache with chain := (cache.chain.resolve token).2 } : MetadataCache E).Faithful schema naming
      types origin :=
  ⟨h.chain.trans (cache.chain.remembers_resolve tell htoken), h.mappers⟩

theorem matches_converterFor :
    Matches (Faithful schema naming types origin) (converterFor token)
      (origin.converterFor token).1 := by
  intro cache hcache
  have hnext := hcache.resolve tell htoken
  rw [← cache.chain.converterFor_chain] at hnext
  rw [← Chain.converterFor_of_remembers tell hcache.chain htoken]
  unfold converterFor
  rcases hfound : cache.chain.converterFor token with ⟨e | converter, chain⟩
  all_goals
    rw [hfound] at hnext
    exact ⟨hnext, rfl⟩

theorem matches_isColumnType :
    Matches (Faithful schema naming types origin) (isColumnType token)
      ((origin.resolve token).1.map Option.isSome) := by
  intro cache hcache
  have hnext := hcache.resolve tell htoken
  rw [origin.resolve_answer, ← Chain.answer_of_remembers hcache.chain htoken,
    ← cache.chain.resolve_answer]
  unfold isColumnType
  rcases hfound : cache.chain.resolve token with ⟨e | found, chain⟩
  all_goals
    rw [hfound] at hnext
    exact ⟨hnext, rfl⟩

end Lookups

theorem matches_guarded {α : Type} {entity : E} {build : Build E α}
    {answer : Except ConfigError α}
    (hb : Matches (Faithful schema naming types origin) build answer) :
    Matches (Faithful schema naming types origin) (guarded entity build) answer := by
  intro cache hcache
  obtain ⟨hend, hanswer⟩ := hb { cache with building := entity :: cache.building }
    ⟨hcache.chain, hcache.mappers⟩
  unfold guarded
  split
  all_goals
    next h =>
      rw [h] at hend hanswer
      exact ⟨⟨hend.chain, hend.mappers⟩, hanswer⟩

/-- Keeping a mapper that is derived. -/
theorem matches_keep {entity : E} {mapper : RowMapper E}
    (hmapper : schema.derive naming origin [] entity = .ok mapper) :
    Matches (Faithful schema naming types origin) (keep entity mapper) (.ok mapper) := by
  intro cache hcache
  have hkept : (cache.cached? entity).getD mapper = mapper := by
    cases hc : cache.cached? entity with
    | none => rfl
    | some kept => exact Except.ok.inj ((hcache.mappers entity kept hc).symm.trans hmapper)
  refine ⟨⟨hcache.chain, fun other found hfound => ?_⟩, ?_⟩
  · rw [cached?_keep, hkept] at hfound
    by_cases he : entity = other
    · subst he
      rw [if_pos rfl] at hfound
      cases hfound
      exact hmapper
    · rw [if_neg he] at hfound
      exact hcache.mappers other found hfound
  · have hfound : (keep entity mapper cache) = .ok ((cache.cached? entity).getD mapper)
        { cache with mappers := cache.mappers.putNew entity mapper } := by
      simp only [keep, cached?, Table.get?_putNew, if_true, Option.getD_some]
    rw [hfound, hkept]
    rfl

variable (tell : NamesTell types) (mentions : ∀ token, schema.Mentions token → types token)

include tell mentions

theorem matches_buildProperties {entity : E} {mapperOf : E → Build E (RowMapper E)}
    {derived : E → Except ConfigError (RowMapper E)} {properties : List (PropertyDecl E)}
    (hproperties : ∀ property ∈ properties, property ∈ (schema.declaration entity).properties)
    (hm : ∀ inner, schema.Nests entity inner →
      Matches (Faithful schema naming types origin) (mapperOf inner) (derived inner)) :
    Matches (Faithful schema naming types origin)
      (buildProperties schema naming mapperOf properties)
      (schema.deriveProperties naming origin derived properties) := by
  induction properties with
  | nil => exact .pure _
  | cons property rest ih =>
    have hrest := ih fun other hmem => hproperties other (List.mem_cons_of_mem _ hmem)
    have hproperty := hproperties property List.mem_cons_self
    unfold Schema.deriveProperties
    cases hkind : property.kind with
    | column type optional =>
      have htype : types type.token :=
        mentions _ (.inr ⟨entity, property, hproperty, type, optional, hkind, rfl⟩)
      rw [buildProperties_column hkind]
      refine .bind (matches_converterFor tell htype) fun converter _ => ?_
      exact .bind hrest fun found _ => .pure _
    | nested inner =>
      have htype : types (schema.declaration inner).token := mentions _ (.inl ⟨inner, rfl⟩)
      have hanswer : ∀ next : Bool → Except ConfigError
            (List SimpleProperty × List (NestedProperty × RowMapper E)),
          ((origin.resolve (schema.declaration inner).token).1 >>= fun found => next found.isSome) =
            (origin.resolve (schema.declaration inner).token).1.map Option.isSome >>= next := by
        intro next
        cases (origin.resolve (schema.declaration inner).token).1 <;> rfl
      rw [buildProperties_nested hkind]
      dsimp only
      rw [hanswer fun isColumn => if isColumn = true then _ else _]
      refine .bind (matches_isColumnType tell htype) fun isColumn _ => ?_
      cases isColumn with
      | true => exact .throw _
      | false =>
        refine .bind (hm inner ⟨property, hproperty, hkind⟩) fun mapper _ => ?_
        exact .bind hrest fun found _ => .pure _

/-- A lookup that is reached through some types answers as the declarations do. -/
theorem matches_mapperWithin (building : List E) (entity : E)
    (hreached : ∀ outer ∈ building, Relation.TransGen schema.Nests outer entity) :
    Matches (Faithful schema naming types origin) (mapperWithin schema naming building entity)
      (schema.derive naming origin building entity) := by
  induction building, entity using mapperWithin.induct schema with
  | case1 building entity ih =>
    intro cache hcache
    rw [mapperWithin_eq]
    cases hc : cache.cached? entity with
    -- A kept mapper was derived without marks. All marked types reach this one, which does not
    -- reach itself, so that they are not in its way.
    | some mapper =>
      have hderived := hcache.mappers entity mapper hc
      have hfree : ∀ reached, Relation.ReflTransGen schema.Nests entity reached →
          reached ∉ building := by
        intro reached hreach hmem
        exact Schema.acyclic_of_derive hderived
          (Relation.TransGen.trans_right hreach (hreached reached hmem))
      rw [Schema.derive_congr hderived hfree]
      exact ⟨hcache, rfl⟩
    | none =>
      rw [Schema.derive]
      by_cases hmarked : entity ∈ building
      · simp only [if_pos hmarked, dif_pos hmarked]
        exact ⟨hcache, rfl⟩
      · simp only [if_neg hmarked, dif_neg hmarked]
        have hnested : ∀ inner, schema.Nests entity inner →
            Matches (Faithful schema naming types origin)
              (mapperWithin schema naming (entity :: building) inner)
              (schema.derive naming origin (entity :: building) inner) := by
          intro inner hstep
          refine ih hmarked inner fun outer hmem => ?_
          rcases List.mem_cons.1 hmem with rfl | hmem
          · exact .single hstep
          · exact .tail (hreached outer hmem) hstep
        refine Matches.bind (matches_guarded (matches_buildProperties tell mentions
          (fun _ h => h) hnested)) (fun found hfound => matches_keep ?derived) cache hcache
        case derived =>
          have hderived : schema.derive naming origin building entity =
              .ok (assemble entity (schema.declaration entity) found.1 found.2) := by
            rw [Schema.derive, dif_neg hmarked, hfound]
            rfl
          exact Schema.derive_congr hderived fun _ _ => List.not_mem_nil

/-- Outside of any build a lookup answers as the declarations do. -/
theorem matches_mapper (entity : E) {cache : MetadataCache E}
    (hcache : cache.Faithful schema naming types origin) (hidle : cache.building = []) :
    (endState (mapper schema naming entity cache)).Faithful schema naming types origin ∧
      answerOf (mapper schema naming entity cache) = schema.derive naming origin [] entity := by
  have hmapper : mapper schema naming entity cache = mapperWithin schema naming [] entity cache := by
    rw [← hidle]
    rfl
  rw [hmapper]
  exact matches_mapperWithin tell mentions [] entity (fun _ hmem => by cases hmem) cache hcache

end MetadataCache

end ObjectRelational
