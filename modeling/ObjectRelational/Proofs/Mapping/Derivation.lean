import ObjectRelational.Proofs.Dialect.Resolution
import ObjectRelational.Proofs.Mapping.Cells
import ObjectRelational.Proofs.Mapping.Nesting

/-! # Mappers without a cache

What the declarations alone give on a chain of dialects that stays as it is: the mapper of a type,
or the first error on the way to it. A type with a mapper reaches neither itself nor any type on the
path to it, so that its mapper does not depend on the path.

* `Schema.derive`: the mapper of a type from the declarations;
* `Schema.not_mem_of_derive`, `Schema.acyclic_of_derive`: what a type with a mapper does not reach;
* `Schema.derive_congr`: the mapper on other paths.
-/

namespace ObjectRelational

set_option autoImplicit false

/-! ## What declarations give -/

namespace Schema

variable {E : Type}

/-- A type is mentioned as an entity type or as the type of a column. -/
def Mentions (schema : Schema E) (token : TypeToken) : Prop :=
  (∃ entity, (schema.declaration entity).token = token) ∨
    ∃ entity, ∃ property ∈ (schema.declaration entity).properties, ∃ type optional,
      property.kind = .column type optional ∧ type.token = token

/-- The properties of a declaration, with the mappers of nested objects taken from `mapperOf`. -/
def deriveProperties (schema : Schema E) (naming : NamingConvention) (chain : Chain)
    (mapperOf : E → Except ConfigError (RowMapper E)) :
    List (PropertyDecl E) →
      Except ConfigError (List SimpleProperty × List (NestedProperty × RowMapper E))
  | [] => .ok ([], [])
  | property :: rest =>
      match property.kind with
      | .column type optional => do
          let converter ← (chain.converterFor type.token).1
          let found ← deriveProperties schema naming chain mapperOf rest
          return (MetadataCache.simpleOf naming property type optional converter :: found.1, found.2)
      | .nested inner => do
          let token := (schema.declaration inner).token
          let answer ← (chain.resolve token).1
          if answer.isSome then .error (.ambiguousMapping token.name property.name)
          else
            let mapper ← mapperOf inner
            let found ← deriveProperties schema naming chain mapperOf rest
            return (found.1, (MetadataCache.nestedOf property, mapper) :: found.2)

variable [DecidableEq E]

/-- The mapper of a type that is reached through some others. -/
def derive (schema : Schema E) (naming : NamingConvention) (chain : Chain) (path : List E)
    (entity : E) : Except ConfigError (RowMapper E) :=
  if _new : entity ∈ path then .error (.recursiveNesting (schema.declaration entity).shortName)
  else do
    let found ← deriveProperties schema naming chain (derive schema naming chain (entity :: path))
      (schema.declaration entity).properties
    return MetadataCache.assemble entity (schema.declaration entity) found.1 found.2
termination_by (MetadataCache.idle schema path).length
decreasing_by exact MetadataCache.idle_cons_length schema _new

section Derivations

variable {schema : Schema E} {naming : NamingConvention} {chain : Chain}

omit [DecidableEq E] in
theorem deriveProperties_cons_ok {mapperOf : E → Except ConfigError (RowMapper E)}
    {property : PropertyDecl E} {rest : List (PropertyDecl E)}
    {found : List SimpleProperty × List (NestedProperty × RowMapper E)}
    (h : schema.deriveProperties naming chain mapperOf (property :: rest) = .ok found) :
    ∃ others, schema.deriveProperties naming chain mapperOf rest = .ok others ∧
      ((∃ type optional converter, property.kind = .column type optional ∧
        found = (MetadataCache.simpleOf naming property type optional converter :: others.1,
          others.2)) ∨
      ∃ inner mapper, property.kind = .nested inner ∧ mapperOf inner = .ok mapper ∧
        found = (others.1, (MetadataCache.nestedOf property, mapper) :: others.2)) := by
  unfold deriveProperties at h
  cases hkind : property.kind with
  | column type optional =>
    simp only [hkind] at h
    obtain ⟨converter, -, h⟩ := except_bind_ok h
    obtain ⟨others, hrest, h⟩ := except_bind_ok h
    cases h
    exact ⟨others, hrest, .inl ⟨type, optional, converter, rfl, rfl⟩⟩
  | nested inner =>
    simp only [hkind] at h
    obtain ⟨answer, -, h⟩ := except_bind_ok h
    cases hanswer : answer.isSome with
    | true =>
      simp only [hanswer, if_true] at h
      cases h
    | false =>
      simp only [hanswer, Bool.false_eq_true, if_false] at h
      obtain ⟨mapper, hmapper, h⟩ := except_bind_ok h
      obtain ⟨others, hrest, h⟩ := except_bind_ok h
      cases h
      exact ⟨others, hrest, .inr ⟨inner, mapper, rfl, hmapper, rfl⟩⟩

omit [DecidableEq E] in
/-- The nested types of properties that are found have mappers. -/
theorem mapper_of_deriveProperties {mapperOf : E → Except ConfigError (RowMapper E)}
    {properties : List (PropertyDecl E)}
    {found : List SimpleProperty × List (NestedProperty × RowMapper E)}
    (h : schema.deriveProperties naming chain mapperOf properties = .ok found) :
    ∀ property ∈ properties, ∀ inner, property.kind = .nested inner →
      ∃ mapper, mapperOf inner = .ok mapper := by
  induction properties generalizing found with
  | nil => exact fun _ hmem => by cases hmem
  | cons first rest ih =>
    intro property hmem inner hinner
    obtain ⟨others, hrest, hfirst⟩ := deriveProperties_cons_ok h
    rcases List.mem_cons.1 hmem with rfl | hmem
    · rcases hfirst with ⟨type, optional, converter, hkind, -⟩ | ⟨nested, mapper, hkind, hmapper, -⟩
      · cases hkind.symm.trans hinner
      · cases hkind.symm.trans hinner
        exact ⟨mapper, hmapper⟩
    · exact ih hrest property hmem inner hinner

omit [DecidableEq E] in
/-- The columns that are found are of the types declared. -/
theorem types_of_deriveProperties {mapperOf : E → Except ConfigError (RowMapper E)}
    {properties : List (PropertyDecl E)}
    {found : List SimpleProperty × List (NestedProperty × RowMapper E)}
    (h : schema.deriveProperties naming chain mapperOf properties = .ok found) :
    ∀ simple ∈ found.1, ∃ property ∈ properties, ∃ type optional,
      property.kind = .column type optional ∧ type = simple.type := by
  induction properties generalizing found with
  | nil =>
    cases h
    exact fun _ hmem => by cases hmem
  | cons first rest ih =>
    intro simple hmem
    obtain ⟨others, hrest, hfirst⟩ := deriveProperties_cons_ok h
    have hothers : simple ∈ others.1 → ∃ property ∈ first :: rest, ∃ type optional,
        property.kind = .column type optional ∧ type = simple.type := by
      intro hsimple
      obtain ⟨property, hproperty, hfound⟩ := ih hrest simple hsimple
      exact ⟨property, List.mem_cons_of_mem _ hproperty, hfound⟩
    rcases hfirst with ⟨type, optional, converter, hkind, rfl⟩ | ⟨inner, mapper, -, -, rfl⟩
    · rcases List.mem_cons.1 hmem with rfl | hmem
      · exact ⟨first, List.mem_cons_self, type, optional, hkind, rfl⟩
      · exact hothers hmem
    · exact hothers hmem

omit [DecidableEq E] in
/-- Mappers that are found in one way are found in another that agrees on the nested types. -/
theorem deriveProperties_congr {mapperOf mapperOf' : E → Except ConfigError (RowMapper E)}
    {properties : List (PropertyDecl E)}
    (hsame : ∀ property ∈ properties, ∀ inner, property.kind = .nested inner →
      mapperOf' inner = mapperOf inner) :
    schema.deriveProperties naming chain mapperOf' properties =
      schema.deriveProperties naming chain mapperOf properties := by
  induction properties with
  | nil => rfl
  | cons property rest ih =>
    have hrest := ih fun other hmem => hsame other (List.mem_cons_of_mem _ hmem)
    have hfirst := hsame property List.mem_cons_self
    unfold deriveProperties
    rw [hrest]
    cases hkind : property.kind with
    | column type optional => rfl
    | nested inner => simp only [hfirst inner hkind]

theorem derive_ok {path : List E} {entity : E} {mapper : RowMapper E}
    (h : schema.derive naming chain path entity = .ok mapper) :
    entity ∉ path ∧ ∃ found,
      schema.deriveProperties naming chain (schema.derive naming chain (entity :: path))
        (schema.declaration entity).properties = .ok found ∧
      mapper = MetadataCache.assemble entity (schema.declaration entity) found.1 found.2 := by
  unfold derive at h
  by_cases hnew : entity ∈ path
  · simp only [dif_pos hnew] at h
    cases h
  · simp only [dif_neg hnew] at h
    obtain ⟨found, hfound, h⟩ := except_bind_ok h
    cases h
    exact ⟨hnew, found, hfound, rfl⟩

/-- The columns of a mapper are of types that the declarations mention. -/
theorem mentions_of_derive {path : List E} {entity : E} {mapper : RowMapper E}
    (h : schema.derive naming chain path entity = .ok mapper) :
    ∀ property ∈ mapper.metadata.simple, schema.Mentions property.type.token := by
  obtain ⟨-, found, hfound, rfl⟩ := derive_ok h
  intro simple hmem
  obtain ⟨property, hproperty, type, optional, hkind, rfl⟩ :=
    types_of_deriveProperties hfound simple hmem
  exact .inr ⟨entity, property, hproperty, simple.type, optional, hkind, rfl⟩

theorem derive_of_nests {path : List E} {outer inner : E} {mapper : RowMapper E}
    (h : schema.derive naming chain path outer = .ok mapper) (hstep : schema.Nests outer inner) :
    ∃ nested, schema.derive naming chain (outer :: path) inner = .ok nested := by
  obtain ⟨-, found, hfound, -⟩ := derive_ok h
  obtain ⟨property, hmem, hkind⟩ := hstep
  exact mapper_of_deriveProperties hfound property hmem inner hkind

/-- A type with a mapper reaches no type on the path to it. -/
theorem not_mem_of_derive {path : List E} {entity : E} {mapper : RowMapper E}
    (h : schema.derive naming chain path entity = .ok mapper) {reached : E}
    (hreach : Relation.ReflTransGen schema.Nests entity reached) : reached ∉ path := by
  induction hreach using Relation.ReflTransGen.head_induction_on generalizing path mapper with
  | refl => exact (derive_ok h).1
  | head hstep _ ih =>
    obtain ⟨nested, hnested⟩ := derive_of_nests h hstep
    exact fun hmem => ih hnested (List.mem_cons_of_mem _ hmem)

/-- A type with a mapper does not reach itself. -/
theorem acyclic_of_derive {path : List E} {entity : E} {mapper : RowMapper E}
    (h : schema.derive naming chain path entity = .ok mapper) :
    ¬ Relation.TransGen schema.Nests entity entity := by
  intro hcycle
  obtain ⟨inner, hstep, hback⟩ := Relation.TransGen.head'_iff.1 hcycle
  obtain ⟨nested, hnested⟩ := derive_of_nests h hstep
  exact not_mem_of_derive hnested hback List.mem_cons_self

/-- The mapper of a type does not depend on the path to it, as long as the type reaches none of
it. -/
theorem derive_congr {path path' : List E} {entity : E} {mapper : RowMapper E}
    (h : schema.derive naming chain path entity = .ok mapper)
    (hfree : ∀ reached, Relation.ReflTransGen schema.Nests entity reached → reached ∉ path') :
    schema.derive naming chain path' entity = .ok mapper := by
  -- The induction follows the nested types. The other path gains the type itself on the way, and
  -- none of them reaches it, as it has a mapper and so does not reach itself.
  induction path, entity using derive.induct schema generalizing path' mapper with
  | case1 path entity hmem => exact absurd hmem (derive_ok h).1
  | case2 path entity hnew ih =>
    obtain ⟨-, found, hfound, rfl⟩ := derive_ok h
    have hacyclic := acyclic_of_derive h
    have hnested : ∀ property ∈ (schema.declaration entity).properties, ∀ inner,
        property.kind = .nested inner → schema.derive naming chain (entity :: path') inner =
          schema.derive naming chain (entity :: path) inner := by
      intro property hmem inner hkind
      have hstep : schema.Nests entity inner := ⟨property, hmem, hkind⟩
      obtain ⟨nested, hderived⟩ := derive_of_nests h hstep
      rw [hderived]
      refine ih inner hderived fun reached hreach hmember => ?_
      rcases List.mem_cons.1 hmember with rfl | hmember
      · exact hacyclic (.head' hstep hreach)
      · exact hfree reached (.head hstep hreach) hmember
    rw [derive, dif_neg (hfree entity .refl), deriveProperties_congr hnested, hfound]
    rfl

end Derivations

end Schema

end ObjectRelational
