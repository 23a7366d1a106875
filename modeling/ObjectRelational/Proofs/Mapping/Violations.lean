import ObjectRelational.Proofs.Mapping.Transparency

/-! # What is wrong with declarations

Declarations are walked through depth first and in their order, and a type that is met on the way
from itself is not entered again. The first violation on this walk is the error with which a lookup
on an empty cache fails, although the lookup stops at it and enters no type a second time that has
a mapper already. Whether there is any violation does not depend on the walk: columns have to have
converters, nested types must not be stored in columns, and no type may reach itself.

* `Violation`: what can be wrong, and the error it is told by;
* `Schema.violations`: all violations on the walk from a type;
* `Schema.failsFirst_derive`: declarations give a mapper or the first violation;
* `Schema.violations_eq_nil_iff`: declarations without violations;
* `MetadataCache.mapper_ofChain`: lookups on an empty cache.
-/

namespace ObjectRelational

set_option autoImplicit false

/-! ## Violations -/

inductive Violation (E : Type) where
  /-- A column of a type without a converter, and the reason. -/
  | column (type : ColumnType) (reason : ConfigError)
  /-- A nested object of a type that a dialect refuses, and the reason. -/
  | refused (entity : E) (reason : ConfigError)
  /-- A nested object, in some property, of a type that is stored in a column. -/
  | stored (entity : E) (property : String)
  /-- A type that is entered on the way from itself. -/
  | reentered (entity : E)

namespace Schema

variable {E : Type}

/-- The error that tells of a violation. -/
def errorOf (schema : Schema E) : Violation E → ConfigError
  | .column _ reason => reason
  | .refused _ reason => reason
  | .stored entity property => .ambiguousMapping (schema.declaration entity).token.name property
  | .reentered entity => .recursiveNesting (schema.declaration entity).shortName

/-- What is wrong with a property, and, by `below`, with the nested type it has. -/
def propertyViolations (schema : Schema E) (chain : Chain) (below : E → List (Violation E))
    (property : PropertyDecl E) : List (Violation E) :=
  match property.kind with
  | .column type _ =>
      match (chain.converterFor type.token).1 with
      | .ok _ => []
      | .error reason => [.column type reason]
  | .nested inner =>
      match (chain.resolve (schema.declaration inner).token).1 with
      | .error reason => [.refused inner reason]
      | .ok (some _) => [.stored inner property.name]
      | .ok none => below inner

/-- A computation fails with the first of some violations, and succeeds if there are none. -/
def FailsFirst {α : Type} (schema : Schema E) (violations : List (Violation E))
    (answer : Except ConfigError α) : Prop :=
  match violations with
  | [] => ∃ a, answer = .ok a
  | first :: _ => answer = .error (schema.errorOf first)

namespace FailsFirst

variable {schema : Schema E} {α β : Type} {violations later : List (Violation E)}
  {answer : Except ConfigError α}

theorem bind {next : α → Except ConfigError β} (h : schema.FailsFirst violations answer)
    (hnext : ∀ a, schema.FailsFirst later (next a)) :
    schema.FailsFirst (violations ++ later) (answer >>= next) := by
  cases violations with
  | nil =>
    obtain ⟨a, rfl⟩ := h
    exact hnext a
  | cons first rest =>
    obtain rfl : answer = .error (schema.errorOf first) := h
    rfl

theorem bind_pure (h : schema.FailsFirst violations answer) (next : α → β) :
    schema.FailsFirst violations (answer >>= fun a => pure (next a)) := by
  rw [← List.append_nil violations]
  exact h.bind fun a => ⟨next a, rfl⟩

theorem ok_iff (h : schema.FailsFirst violations answer) :
    (∃ a, answer = .ok a) ↔ violations = [] := by
  cases violations with
  | nil => exact ⟨fun _ => rfl, fun _ => h⟩
  | cons first rest =>
    obtain rfl : answer = .error (schema.errorOf first) := h
    simp

theorem error_iff (h : schema.FailsFirst violations answer) (e : ConfigError) :
    answer = .error e ↔ violations.head?.map schema.errorOf = some e := by
  cases violations with
  | nil =>
    obtain ⟨a, rfl⟩ := h
    simp
  | cons first rest =>
    obtain rfl : answer = .error (schema.errorOf first) := h
    simp

end FailsFirst

/-- All that is wrong on the way down from a type that is reached through some others, depth first
and in the order of declaration. -/
def violations [DecidableEq E] (schema : Schema E) (chain : Chain) (path : List E) (entity : E) :
    List (Violation E) :=
  if _new : entity ∈ path then [.reentered entity]
  else
    (schema.declaration entity).properties.flatMap
      (schema.propertyViolations chain (violations schema chain (entity :: path)))
termination_by (MetadataCache.idle schema path).length
decreasing_by exact MetadataCache.idle_cons_length schema _new

/-! ## The first violation -/

section First

variable {schema : Schema E} {naming : NamingConvention} {chain : Chain}

theorem failsFirst_deriveProperties {below : E → List (Violation E)}
    {mapperOf : E → Except ConfigError (RowMapper E)}
    (hbelow : ∀ inner, schema.FailsFirst (below inner) (mapperOf inner))
    (properties : List (PropertyDecl E)) :
    schema.FailsFirst (properties.flatMap (schema.propertyViolations chain below))
      (schema.deriveProperties naming chain mapperOf properties) := by
  induction properties with
  | nil => exact ⟨_, rfl⟩
  | cons property rest ih =>
    rw [List.flatMap_cons]
    unfold propertyViolations deriveProperties
    cases hkind : property.kind with
    | column type optional =>
      refine .bind ?_ fun converter => ih.bind_pure _
      dsimp only
      cases (chain.converterFor type.token).1 with
      | ok converter => exact ⟨converter, rfl⟩
      | error reason => rfl
    | nested inner =>
      dsimp only
      cases (chain.resolve (schema.declaration inner).token).1 with
      | error reason => rfl
      | ok found =>
        cases found with
        | some converter => rfl
        | none => exact (hbelow inner).bind fun mapper => ih.bind_pure _

/-- Declarations give a mapper, or the error of the first violation. -/
theorem failsFirst_derive [DecidableEq E] (path : List E) (entity : E) :
    schema.FailsFirst (schema.violations chain path entity)
      (schema.derive naming chain path entity) := by
  induction path, entity using derive.induct schema with
  | case1 path entity hmem =>
    rw [violations, derive, dif_pos hmem, dif_pos hmem]
    rfl
  | case2 path entity hnew ih =>
    rw [violations, derive, dif_neg hnew, dif_neg hnew]
    exact (failsFirst_deriveProperties ih _).bind_pure _

end First

/-! ## Declarations without violations -/

section Free

variable {schema : Schema E} {chain : Chain}

/-- What a property of a declaration has to be: a column with a converter, or a nested object of a
type that no dialect answers for. -/
def Fits (schema : Schema E) (chain : Chain) (property : PropertyDecl E) : Prop :=
  match property.kind with
  | .column type _ => ∃ converter, (chain.resolve type.token).1 = .ok (some converter)
  | .nested inner => (chain.resolve (schema.declaration inner).token).1 = .ok none

theorem forall_fits_iff {holder : E} :
    (∀ property ∈ (schema.declaration holder).properties, schema.Fits chain property) ↔
      (∀ property ∈ (schema.declaration holder).properties, ∀ type optional,
        property.kind = .column type optional →
          ∃ converter, (chain.resolve type.token).1 = .ok (some converter)) ∧
      ∀ inner, schema.Nests holder inner →
        (chain.resolve (schema.declaration inner).token).1 = .ok none := by
  constructor
  · intro h
    refine ⟨fun property hmem type optional hkind => ?_, fun inner ⟨property, hmem, hkind⟩ => ?_⟩
    · simpa only [Fits, hkind] using h property hmem
    · simpa only [Fits, hkind] using h property hmem
  · rintro ⟨hcolumns, hnested⟩ property hmem
    cases hkind : property.kind with
    | column type optional => simpa only [Fits, hkind] using hcolumns property hmem type optional hkind
    | nested inner => simpa only [Fits, hkind] using hnested inner ⟨property, hmem, hkind⟩

theorem propertyViolations_eq_nil_iff {below : E → List (Violation E)} {property : PropertyDecl E} :
    schema.propertyViolations chain below property = [] ↔
      schema.Fits chain property ∧ ∀ inner, property.kind = .nested inner → below inner = [] := by
  unfold propertyViolations Fits
  cases property.kind with
  | column type optional =>
    simp only [reduceCtorEq, false_implies, implies_true, and_true]
    unfold Chain.converterFor
    rcases chain.resolve type.token with ⟨e | _ | converter, chain'⟩ <;> simp
  | nested inner =>
    dsimp only
    generalize (chain.resolve (schema.declaration inner).token).1 = answer
    rcases answer with e | _ | converter <;> simp

variable [DecidableEq E]

theorem violations_eq_nil_iff {path : List E} {entity : E} :
    schema.violations chain path entity = [] ↔ entity ∉ path ∧
      ∀ property ∈ (schema.declaration entity).properties, schema.Fits chain property ∧
        ∀ inner, property.kind = .nested inner →
          schema.violations chain (entity :: path) inner = [] := by
  rw [violations]
  by_cases hmem : entity ∈ path
  · simp [hmem]
  · rw [dif_neg hmem, List.flatMap_eq_nil_iff]
    simp only [propertyViolations_eq_nil_iff, hmem, not_false_eq_true, true_and]

/-- Below a type without violations there are none on any way. -/
theorem violations_of_reached {path : List E} {entity reached : E}
    (h : schema.violations chain path entity = [])
    (hreach : Relation.ReflTransGen schema.Nests entity reached) :
    ∃ path', path ⊆ path' ∧ schema.violations chain path' reached = [] := by
  induction hreach using Relation.ReflTransGen.head_induction_on generalizing path with
  | refl => exact ⟨path, List.Subset.refl path, h⟩
  | head hstep _ ih =>
    obtain ⟨property, hmem, hkind⟩ := hstep
    obtain ⟨path', hsubset, hnone⟩ := ih (((violations_eq_nil_iff.1 h).2 property hmem).2 _ hkind)
    exact ⟨path', List.Subset.trans (List.subset_cons_self _ _) hsubset, hnone⟩

theorem acyclic_of_violations {path : List E} {entity : E}
    (h : schema.violations chain path entity = []) :
    ¬ Relation.TransGen schema.Nests entity entity := by
  intro hcycle
  obtain ⟨inner, ⟨property, hmem, hkind⟩, hback⟩ := Relation.TransGen.head'_iff.1 hcycle
  obtain ⟨path', hsubset, hnone⟩ :=
    violations_of_reached (((violations_eq_nil_iff.1 h).2 property hmem).2 inner hkind) hback
  exact (violations_eq_nil_iff.1 hnone).1 (hsubset List.mem_cons_self)

/-- There are no violations if all properties of all types below are as they have to be, and no such
type reaches itself or is on the way already. -/
theorem violations_eq_nil_iff_reached {path : List E} {entity : E} :
    schema.violations chain path entity = [] ↔
      ∀ reached, Relation.ReflTransGen schema.Nests entity reached → reached ∉ path ∧
        (∀ property ∈ (schema.declaration reached).properties, schema.Fits chain property) ∧
        ¬ Relation.TransGen schema.Nests reached reached := by
  constructor
  · intro h reached hreach
    obtain ⟨path', hsubset, hnone⟩ := violations_of_reached h hreach
    obtain ⟨hnew, hproperties⟩ := violations_eq_nil_iff.1 hnone
    exact ⟨fun hmem => hnew (hsubset hmem), fun property hmem => (hproperties property hmem).1,
      acyclic_of_violations hnone⟩
  · intro h
    induction path, entity using violations.induct schema with
    | case1 path entity hmem => exact absurd hmem (h entity .refl).1
    | case2 path entity hnew ih =>
      refine violations_eq_nil_iff.2 ⟨hnew, fun property hmem => ⟨(h entity .refl).2.1 property hmem, ?_⟩⟩
      intro inner hkind
      have hstep : schema.Nests entity inner := ⟨property, hmem, hkind⟩
      refine ih inner fun reached hreach => ?_
      obtain ⟨hfree, hfits, hacyclic⟩ := h reached (.head hstep hreach)
      refine ⟨fun hmember => ?_, hfits, hacyclic⟩
      rcases List.mem_cons.1 hmember with rfl | hmember
      · exact hacyclic (.head' hstep hreach)
      · exact hfree hmember

/-- A type that is entered again is reached, and it reaches itself. -/
theorem reaches_of_reentered {path : List E} {entity again : E}
    (hpath : ∀ outer ∈ path, Relation.TransGen schema.Nests outer entity)
    (h : .reentered again ∈ schema.violations chain path entity) :
    Relation.ReflTransGen schema.Nests entity again ∧
      Relation.TransGen schema.Nests again again := by
  induction path, entity using violations.induct schema with
  | case1 path entity hmem =>
    rw [violations, dif_pos hmem, List.mem_singleton] at h
    obtain rfl : again = entity := by injection h
    exact ⟨.refl, hpath again hmem⟩
  | case2 path entity hnew ih =>
    rw [violations, dif_neg hnew] at h
    obtain ⟨property, hproperty, hmem⟩ := List.mem_flatMap.1 h
    unfold propertyViolations at hmem
    split at hmem
    · split at hmem <;> simp at hmem
    · next inner hkind =>
      have hstep : schema.Nests entity inner := ⟨property, hproperty, hkind⟩
      split at hmem
      · simp at hmem
      · simp at hmem
      · have hbelow : ∀ outer ∈ entity :: path, Relation.TransGen schema.Nests outer inner := by
          intro outer houter
          rcases List.mem_cons.1 houter with rfl | houter
          · exact .single hstep
          · exact .tail (hpath outer houter) hstep
        obtain ⟨hreach, hcycle⟩ := ih inner hbelow hmem
        exact ⟨.head hstep hreach, hcycle⟩

end Free

end Schema

/-! ## Lookups -/

namespace MetadataCache

variable {E : Type} [DecidableEq E]

/-- On a cache without mappers a mapper is found exactly if of all types that the entity type
reaches, itself among them, every column has a converter, no nested object is of a type that a
dialect answers for or refuses, and no type reaches itself. Otherwise the lookup fails with the first
violation, depth first and in the order of declaration, and a type that is entered on the way from
itself is one that is reached and reaches itself. A type is told by its name. -/
theorem mapper_ofChain (schema : Schema E) (naming : NamingConvention) (chain : Chain) (entity : E)
    (tell : NamesTell schema.Mentions) :
    let answer := answerOf (mapper schema naming entity (ofChain chain))
    ((∃ found, answer = .ok found) ↔
      ∀ reached, Relation.ReflTransGen schema.Nests entity reached →
        (∀ property ∈ (schema.declaration reached).properties, ∀ type optional,
          property.kind = .column type optional →
            ∃ converter, (chain.resolve type.token).1 = .ok (some converter)) ∧
        (∀ inner, schema.Nests reached inner →
          (chain.resolve (schema.declaration inner).token).1 = .ok none) ∧
        ¬ Relation.TransGen schema.Nests reached reached) ∧
    (∀ e, answer = .error e ↔
      (schema.violations chain [] entity).head?.map schema.errorOf = some e) ∧
    ∀ again, .reentered again ∈ schema.violations chain [] entity →
      Relation.ReflTransGen schema.Nests entity again ∧
        Relation.TransGen schema.Nests again again := by
  intro answer
  have hfaithful : (ofChain chain).Faithful schema naming schema.Mentions chain :=
    ⟨.refl chain, fun _ _ h => by cases h⟩
  have hfirst : schema.FailsFirst (schema.violations chain [] entity) answer := by
    rw [show answer = schema.derive naming chain [] entity from
      (matches_mapper tell (fun _ h => h) entity hfaithful rfl).2]
    exact Schema.failsFirst_derive [] entity
  refine ⟨?_, hfirst.error_iff, fun again => Schema.reaches_of_reentered fun _ h => by cases h⟩
  rw [hfirst.ok_iff, Schema.violations_eq_nil_iff_reached]
  simp only [Schema.forall_fits_iff, List.not_mem_nil, not_false_eq_true, true_and, and_assoc]

namespace Trade

/-- Firms with an owner and a seat, and offices with a keeper and a firm. -/
inductive Party where
  | firm
  | office
  | person
  deriving DecidableEq

def words : ColumnType := ⟨⟨"String", .scalar .text, none⟩, .text⟩

/-- A type that no dialect knows how to store. -/
def picture : ColumnType := ⟨⟨"trade::Picture", .structured, none⟩, .text⟩

def schema : Schema Party where
  entities := [.firm, .office, .person]
  complete entity := by cases entity <;> simp
  declaration
    | .firm => .ofProperties "trade::Firm" "firms" "name"
        [.nested "owner" .person "owner", .nested "seat" .office "seat", .field "logo" picture "logo"] []
    | .office => .ofProperties "trade::Office" "offices" "town"
        [.nested "keeper" .person "keeper", .nested "firm" .firm "firm", .field "town" words "town"] []
    | .person => .ofProperties "trade::Person" "people" "name" [.field "name" words "name"] []

theorem mentions {token : TypeToken} (h : schema.Mentions token) :
    token ∈ [words.token, picture.token, (schema.declaration .firm).token,
      (schema.declaration .office).token, (schema.declaration .person).token] := by
  rcases h with ⟨entity, rfl⟩ | ⟨entity, property, hmem, type, optional, hkind, rfl⟩
  · cases entity <;> simp
  · have htype : type = words ∨ type = picture := by
      cases entity
      all_goals
        simp only [schema, EntityDecl.ofProperties, List.mem_cons, List.not_mem_nil, or_false] at hmem
        rcases hmem with rfl | rfl | rfl <;> cases hkind
      all_goals simp
    rcases htype with rfl | rfl <;> simp

end Trade

/-- The owner is all right and is met again as the keeper; the firm is entered again before its logo
is looked at. -/
theorem mapper_ofChain_firm :
    let answer := fun party => answerOf (mapper Trade.schema .snakeCase party (ofChain .standard))
    answer .firm = .error (.recursiveNesting "Firm") ∧
      answer .office = .error (.recursiveNesting "Office") ∧
      ∃ found, answer .person = .ok found := by
  have hnames : ∀ token ∈ [Trade.words.token, Trade.picture.token,
      (Trade.schema.declaration .firm).token, (Trade.schema.declaration .office).token,
      (Trade.schema.declaration .person).token],
      ∀ other ∈ [Trade.words.token, Trade.picture.token,
        (Trade.schema.declaration .firm).token, (Trade.schema.declaration .office).token,
        (Trade.schema.declaration .person).token], token.name = other.name → token = other := by
    decide
  have tell : NamesTell Trade.schema.Mentions := fun token other h h' =>
    hnames token (Trade.mentions h) other (Trade.mentions h')
  have hleaf : ∀ inner, ¬ Trade.schema.Nests .person inner := by
    rintro inner ⟨property, hmem, hkind⟩
    rw [List.mem_singleton.1 hmem] at hkind
    cases hkind
  refine ⟨((mapper_ofChain Trade.schema .snakeCase .standard .firm tell).2.1 _).2 (by decide +kernel),
    ((mapper_ofChain Trade.schema .snakeCase .standard .office tell).2.1 _).2 (by decide +kernel),
    (mapper_ofChain Trade.schema .snakeCase .standard .person tell).1.2 fun reached hreach => ?_⟩
  obtain rfl : reached = .person := by
    rcases Relation.ReflTransGen.cases_head hreach with rfl | ⟨inner, hstep, -⟩
    · rfl
    · exact absurd hstep (hleaf inner)
  refine ⟨fun property hmem type optional hkind => ?_, fun inner h => absurd h (hleaf inner), ?_⟩
  · rw [List.mem_singleton.1 hmem] at hkind
    cases hkind
    exact ⟨.passThrough "text", by decide +kernel⟩
  · intro hcycle
    obtain ⟨inner, hstep, -⟩ := Relation.TransGen.head'_iff.1 hcycle
    exact hleaf inner hstep

end MetadataCache

end ObjectRelational
