import Mathlib.Logic.Relation
import ObjectRelational.Proofs.Session.Frames

/-! # Nested types and the metadata cache

A mapper is kept only when the mappers of all nested types are, and a type in the course of building
gets no mapper before its own build ends. So the types with a mapper are closed under nesting, and
none of them can be reached from itself. However a build ends, the types marked as in the course of
building are those that were marked before.

* `Schema.Nests`: a type has a nested property of another;
* `MetadataCache.Sound`: what is kept is closed under nesting and free of cycles;
* `MetadataCache.mapper_eq`: looking a mapper up, with every nested lookup reading the marks;
* `MetadataCache.building_mapper`, `MetadataCache.sound_mapper`: what a lookup keeps true.
-/

namespace ObjectRelational

set_option autoImplicit false

/-- An entity type has a nested property of another. -/
def Schema.Nests {E : Type} (schema : Schema E) (outer inner : E) : Prop :=
  ∃ property ∈ (schema.declaration outer).properties, property.kind = .nested inner

namespace MetadataCache

variable {E : Type} [DecidableEq E]

/-- The entity type has a mapper. -/
def Kept (cache : MetadataCache E) (entity : E) : Prop :=
  ∃ mapper, cache.cached? entity = some mapper

/-- The types with a mapper are closed under nesting, and none can be reached from itself. -/
structure Sound (schema : Schema E) (cache : MetadataCache E) : Prop where
  closed : ∀ outer inner, cache.Kept outer → schema.Nests outer inner → cache.Kept inner
  acyclic : ∀ entity, cache.Kept entity → ¬ Relation.TransGen schema.Nests entity entity

theorem sound_ofChain (schema : Schema E) (chain : Chain) : (ofChain chain).Sound schema where
  closed := by
    rintro outer inner ⟨mapper, h⟩
    cases h
  acyclic := by
    rintro entity ⟨mapper, h⟩
    cases h

theorem Kept.extend {before after : MetadataCache E} (h : before.Extends after) {entity : E}
    (hkept : before.Kept entity) : after.Kept entity := by
  obtain ⟨mapper, hmapper⟩ := hkept
  exact ⟨mapper, h entity mapper hmapper⟩

/-! ## Marks -/

omit [DecidableEq E] in
/-- A guarded build leaves the marks as they were if the build itself does. -/
theorem building_guarded {α : Type} {entity : E} {build : Build E α}
    (hb : Respects (fun before after => after.building = before.building) build) :
    Respects (fun before after => after.building = before.building) (guarded entity build) := by
  intro cache
  have hbuilt := hb { cache with building := entity :: cache.building }
  unfold guarded
  split
  all_goals
    next h =>
      rw [h] at hbuilt
      simp only [endState] at hbuilt ⊢
      rw [hbuilt, List.tail_cons]

omit [DecidableEq E] in
theorem guarded_ok {α : Type} {entity : E} {build : Build E α} {found : α}
    {cache cache' : MetadataCache E} (h : guarded entity build cache = .ok found cache') :
    ∃ built, build { cache with building := entity :: cache.building } = .ok found built ∧
      cache' = { built with building := built.building.tail } := by
  unfold guarded at h
  split at h
  · next built hbuilt =>
    cases h
    exact ⟨built, hbuilt, rfl⟩
  · cases h

omit [DecidableEq E] in
theorem building_frame :
    IsFrame fun before after : MetadataCache E => after.building = before.building :=
  ⟨fun _ => rfl, fun _ _ _ h h' => h'.trans h⟩

theorem building_mapperWithin (schema : Schema E) (naming : NamingConvention) (building : List E)
    (entity : E) :
    Respects (fun before after => after.building = before.building)
      (mapperWithin schema naming building entity) :=
  respects_mapperWithin (R := fun _ before after => after.building = before.building)
    (fun _ => building_frame) (fun _ _ _ => rfl) schema naming
    (fun _ _ _ _ _ => building_guarded) (fun _ _ _ _ _ _ => rfl) building entity

/-- Looking a mapper up leaves the marks as they were. -/
theorem building_mapper (schema : Schema E) (naming : NamingConvention) (entity : E) :
    Respects (fun before after => after.building = before.building)
      (mapper schema naming entity) :=
  fun cache => building_mapperWithin schema naming cache.building entity cache

/-! ## One property after the other -/

section Properties

variable {schema : Schema E} {naming : NamingConvention} {mapperOf : E → Build E (RowMapper E)}
  {property : PropertyDecl E} {rest : List (PropertyDecl E)}

omit [DecidableEq E]

/-- A column as it is built. -/
def simpleOf (naming : NamingConvention) (property : PropertyDecl E) (type : ColumnType)
    (optional : Bool) (converter : Converter) : SimpleProperty :=
  ⟨property.name, property.slot, property.column?.getD (naming.columnName property.name), type,
    optional, converter⟩

/-- A nested object apart from its mapper as it is built. -/
def nestedOf (property : PropertyDecl E) : NestedProperty :=
  ⟨property.name, property.slot, property.join?⟩

theorem buildProperties_column {type : ColumnType} {optional : Bool}
    (h : property.kind = .column type optional) :
    buildProperties schema naming mapperOf (property :: rest) =
      converterFor type.token >>= fun converter =>
        buildProperties schema naming mapperOf rest >>= fun found =>
          pure (simpleOf naming property type optional converter :: found.1, found.2) := by
  rw [buildProperties]
  simp only [h]
  rfl

theorem buildProperties_nested {inner : E} (h : property.kind = .nested inner) :
    buildProperties schema naming mapperOf (property :: rest) =
      isColumnType (schema.declaration inner).token >>= fun isColumn =>
        if isColumn then
          throw (.ambiguousMapping (schema.declaration inner).token.name property.name)
        else
          mapperOf inner >>= fun mapper =>
            buildProperties schema naming mapperOf rest >>= fun found =>
              pure (found.1, (nestedOf property, mapper) :: found.2) := by
  rw [buildProperties]
  simp only [h]
  rfl

/-- What is built first and last when the properties of a declaration are built. -/
theorem buildProperties_cons_ok {cache cache' : MetadataCache E}
    {found : List SimpleProperty × List (NestedProperty × RowMapper E)}
    (h : buildProperties schema naming mapperOf (property :: rest) cache = .ok found cache') :
    (∃ type optional converter others cache₁, property.kind = .column type optional ∧
      converterFor type.token cache = .ok converter cache₁ ∧
      buildProperties schema naming mapperOf rest cache₁ = .ok others cache' ∧
      found = (simpleOf naming property type optional converter :: others.1, others.2)) ∨
    ∃ inner mapper others cache₁ cache₂, property.kind = .nested inner ∧
      mapperOf inner cache₁ = .ok mapper cache₂ ∧
      buildProperties schema naming mapperOf rest cache₂ = .ok others cache' ∧
      found = (others.1, (nestedOf property, mapper) :: others.2) := by
  cases hkind : property.kind with
  | column type optional =>
    rw [buildProperties_column hkind] at h
    obtain ⟨converter, cache₁, hconverter, h⟩ := bind_ok h
    obtain ⟨others, cache₂, hrest, h⟩ := bind_ok h
    cases h
    exact .inl ⟨type, optional, converter, others, cache₁, rfl, hconverter, hrest, rfl⟩
  | nested inner =>
    rw [buildProperties_nested hkind] at h
    obtain ⟨isColumn, cache₁, -, h⟩ := bind_ok h
    cases isColumn with
    | true => cases h
    | false =>
      obtain ⟨mapper, cache₂, hmapper, h⟩ := bind_ok h
      obtain ⟨others, cache₃, hrest, h⟩ := bind_ok h
      cases h
      exact .inr ⟨inner, mapper, others, cache₁, cache₂, rfl, hmapper, hrest, rfl⟩

/-- Two ways to find nested mappers that agree under the present marks build the same. -/
theorem buildProperties_congr {mapperOf' : E → Build E (RowMapper E)} {building : List E}
    (hsame : ∀ entity cache, cache.building = building →
      mapperOf entity cache = mapperOf' entity cache)
    (hmarks : ∀ entity, Respects (fun before after => after.building = before.building)
      (mapperOf entity)) :
    ∀ properties cache, cache.building = building →
      buildProperties schema naming mapperOf properties cache =
        buildProperties schema naming mapperOf' properties cache := by
  intro properties
  induction properties with
  | nil => exact fun _ _ => rfl
  | cons property rest ih =>
    intro cache hcache
    cases hkind : property.kind with
    | column type optional =>
      have hmark := respects_converterFor
        (R := fun before after : MetadataCache E => after.building = before.building)
        (fun _ _ => rfl) type.token
      rw [buildProperties_column hkind, buildProperties_column hkind, bind_apply, bind_apply]
      cases hconverter : converterFor type.token cache with
      | error e cache₁ => rfl
      | ok converter cache₁ =>
        dsimp only
        rw [bind_apply, bind_apply, ih cache₁ ((hmark.of_ok hconverter).trans hcache)]
    | nested inner =>
      have hmark := respects_isColumnType
        (R := fun before after : MetadataCache E => after.building = before.building)
        (fun _ _ => rfl) (schema.declaration inner).token
      rw [buildProperties_nested hkind, buildProperties_nested hkind, bind_apply, bind_apply]
      cases hcolumn : isColumnType (schema.declaration inner).token cache with
      | error e cache₁ => rfl
      | ok isColumn cache₁ =>
        have hcache₁ := (hmark.of_ok hcolumn).trans hcache
        cases isColumn with
        | true => rfl
        | false =>
          simp only [Bool.false_eq_true, if_false]
          rw [bind_apply, bind_apply, ← hsame inner cache₁ hcache₁]
          cases hinner : mapperOf inner cache₁ with
          | error e cache₂ => rfl
          | ok mapper cache₂ =>
            dsimp only
            rw [bind_apply, bind_apply, ih cache₂ (((hmarks inner).of_ok hinner).trans hcache₁)]

end Properties

theorem mapperWithin_eq (schema : Schema E) (naming : NamingConvention) (building : List E)
    (entity : E) (cache : MetadataCache E) :
    mapperWithin schema naming building entity cache =
      match cache.cached? entity with
      | some mapper => .ok mapper cache
      | none =>
          if entity ∈ building then
            .error (.recursiveNesting (schema.declaration entity).shortName) cache
          else
            (guarded entity (buildProperties schema naming
              (mapperWithin schema naming (entity :: building))
              (schema.declaration entity).properties) >>= fun found =>
                keep entity (assemble entity (schema.declaration entity) found.1 found.2)) cache := by
  rw [mapperWithin, bind_apply]
  change (match cache.cached? entity with | some mapper => pure mapper | none => _ :
    Build E (RowMapper E)) cache = _
  cases cache.cached? entity with
  | some mapper => rfl
  | none =>
    by_cases hmarked : entity ∈ building
    · simp only [if_pos hmarked, dif_pos hmarked]
      rfl
    · simp only [if_neg hmarked, dif_neg hmarked]

/-- The mapper of an entity type is the one that is kept, or it is built. A type that is marked
cannot be built; another is marked while it is, and every nested lookup reads the marks. -/
theorem mapper_eq (schema : Schema E) (naming : NamingConvention) (entity : E)
    (cache : MetadataCache E) :
    mapper schema naming entity cache =
      match cache.cached? entity with
      | some mapper => .ok mapper cache
      | none =>
          if entity ∈ cache.building then
            .error (.recursiveNesting (schema.declaration entity).shortName) cache
          else
            (guarded entity (buildProperties schema naming (mapper schema naming)
              (schema.declaration entity).properties) >>= fun found =>
                keep entity (assemble entity (schema.declaration entity) found.1 found.2)) cache := by
  change mapperWithin schema naming cache.building entity cache = _
  rw [mapperWithin_eq]
  cases cache.cached? entity with
  | some mapper => rfl
  | none =>
    by_cases hmarked : entity ∈ cache.building
    · simp only [if_pos hmarked]
    · have hmarks : ∀ inner (cache' : MetadataCache E),
          cache'.building = entity :: cache.building →
            mapperWithin schema naming (entity :: cache.building) inner cache' =
              mapper schema naming inner cache' := by
        intro inner cache' hbuilding
        rw [← hbuilding]
        rfl
      simp only [if_neg hmarked]
      rw [bind_apply, bind_apply]
      unfold guarded
      rw [buildProperties_congr hmarks (building_mapperWithin schema naming _) _ _ rfl]

/-! ## What is kept -/

/-- A type in the course of building gets no mapper. -/
theorem cached?_of_building (schema : Schema E) (naming : NamingConvention) (building : List E)
    (entity : E) :
    Respects (fun before after => ∀ marked ∈ building, after.cached? marked = before.cached? marked)
      (mapperWithin schema naming building entity) := by
  refine respects_mapperWithin (R := fun building before after =>
      ∀ marked ∈ building, after.cached? marked = before.cached? marked)
    (fun _ => ⟨fun _ _ _ => rfl, fun _ _ _ h h' marked hm => (h' marked hm).trans (h marked hm)⟩)
    (fun _ _ _ _ _ => rfl) schema naming ?_ ?_ building entity
  · intro building entity α build _ hb cache marked hmarked
    have hbuilt := hb { cache with building := entity :: cache.building } marked
      (List.mem_cons_of_mem _ hmarked)
    unfold guarded
    split
    all_goals
      next h =>
        rw [h] at hbuilt
        exact hbuilt
  · intro building entity simple nested hidle cache marked hmarked
    rw [cached?_keep, if_neg]
    rintro rfl
    exact hidle hmarked

theorem extends_buildProperties {schema : Schema E} {naming : NamingConvention}
    {building : List E} (properties : List (PropertyDecl E)) :
    Respects Extends
      (buildProperties schema naming (mapperWithin schema naming building) properties) :=
  respects_buildProperties extends_frame (fun _ _ _ _ h => h) schema naming
    (extends_mapperWithin schema naming building) properties

/-- Once the properties of a declaration are built, all nested types have a mapper. -/
theorem kept_of_buildProperties {schema : Schema E} {naming : NamingConvention} {building : List E}
    {properties : List (PropertyDecl E)} {found : List SimpleProperty × List (NestedProperty × RowMapper E)}
    {cache cache' : MetadataCache E}
    (h : buildProperties schema naming (mapperWithin schema naming building) properties cache =
      .ok found cache') :
    ∀ property ∈ properties, ∀ inner, property.kind = .nested inner → cache'.Kept inner := by
  induction properties generalizing found cache with
  | nil => exact fun _ hmem => by cases hmem
  | cons first rest ih =>
    intro property hmem inner hinner
    obtain ⟨type, optional, converter, others, cache₁, hkind, -, hrest, -⟩ |
      ⟨nested, mapper, others, cache₁, cache₂, hkind, hmapper, hrest, -⟩ :=
      buildProperties_cons_ok h
    · rcases List.mem_cons.1 hmem with rfl | hmem
      · cases hkind.symm.trans hinner
      · exact ih hrest property hmem inner hinner
    · rcases List.mem_cons.1 hmem with rfl | hmem
      · cases hkind.symm.trans hinner
        exact .extend ((extends_buildProperties rest).of_ok hrest)
          ⟨mapper, cached?_of_mapperWithin hmapper⟩
      · exact ih hrest property hmem inner hinner

theorem Sound.reaches {schema : Schema E} {cache : MetadataCache E} (h : cache.Sound schema)
    {outer inner : E} (hreach : Relation.ReflTransGen schema.Nests outer inner)
    (hkept : cache.Kept outer) : cache.Kept inner := by
  induction hreach with
  | refl => exact hkept
  | tail _ hstep ih => exact h.closed _ _ ih hstep

/-- A cache stays sound when a type gets its mapper after all that it nests. -/
theorem sound_keep {schema : Schema E} {cache : MetadataCache E} (h : cache.Sound schema)
    {entity : E} (hnone : cache.cached? entity = none)
    (hnested : ∀ inner, schema.Nests entity inner → cache.Kept inner) (mapper : RowMapper E) :
    (endState (keep entity mapper cache)).Sound schema := by
  have hkept : ∀ other, (endState (keep entity mapper cache)).Kept other ↔
      entity = other ∨ cache.Kept other := by
    intro other
    unfold Kept
    rw [cached?_keep]
    by_cases he : entity = other <;> simp [he]
  -- Whatever the new type reaches was kept before it, and it was not.
  have hcycle : ¬ Relation.TransGen schema.Nests entity entity := by
    intro hcycle
    obtain ⟨inner, hstep, hback⟩ := Relation.TransGen.head'_iff.1 hcycle
    obtain ⟨kept, hkept⟩ := h.reaches hback (hnested inner hstep)
    cases hnone.symm.trans hkept
  constructor
  · intro outer inner houter hstep
    rw [hkept] at houter ⊢
    rcases houter with rfl | houter
    · exact .inr (hnested inner hstep)
    · exact .inr (h.closed outer inner houter hstep)
  · intro other hother
    rcases (hkept other).1 hother with rfl | hother
    · exact hcycle
    · exact h.acyclic other hother

theorem sound_frame (schema : Schema E) :
    IsFrame fun before after : MetadataCache E => before.Sound schema → after.Sound schema :=
  ⟨fun _ h => h, fun _ _ _ h h' hs => h' (h hs)⟩

theorem sound_mapperWithin (schema : Schema E) (naming : NamingConvention) (building : List E)
    (entity : E) :
    Respects (fun before after => before.Sound schema → after.Sound schema)
      (mapperWithin schema naming building entity) := by
  induction building, entity using mapperWithin.induct schema with
  | case1 building entity ih =>
    intro cache hsound
    rw [mapperWithin_eq]
    cases hnone : cache.cached? entity with
    | some mapper => exact hsound
    | none =>
      by_cases hmarked : entity ∈ building
      · simp only [if_pos hmarked]
        exact hsound
      · simp only [if_neg hmarked]
        let nested := buildProperties schema naming
          (mapperWithin schema naming (entity :: building)) (schema.declaration entity).properties
        have hnested : Respects (fun before after => before.Sound schema → after.Sound schema)
            (guarded entity nested) :=
          respects_guarded (sound_frame schema) (fun _ _ hs => ⟨hs.closed, hs.acyclic⟩)
            (respects_buildProperties (sound_frame schema)
              (fun _ _ hs => ⟨hs.closed, hs.acyclic⟩) schema naming (ih hmarked) _)
        rw [bind_apply]
        cases hbuilt : guarded entity nested cache with
        | error e cache₁ => exact hnested.of_error hbuilt hsound
        | ok found cache₁ =>
          have hsound₁ := hnested.of_ok hbuilt hsound
          obtain ⟨built, hproperties, rfl⟩ := guarded_ok hbuilt
          refine sound_keep hsound₁ ?unkept ?inner _
          -- The type is marked while its nested types are looked up: none of them gives it a mapper.
          case unkept =>
            have hunchanged : Respects (fun before after => after.cached? entity = before.cached? entity)
                nested :=
              respects_buildProperties
                (R := fun before after => after.cached? entity = before.cached? entity)
                ⟨fun _ => rfl, fun _ _ _ h h' => h'.trans h⟩ (fun _ _ => rfl) schema naming
                (fun inner cache =>
                  cached?_of_building schema naming _ inner cache entity List.mem_cons_self) _
            exact (hunchanged.of_ok hproperties).trans hnone
          case inner =>
            rintro inner ⟨property, hmem, hkind⟩
            exact kept_of_buildProperties hproperties property hmem inner hkind

/-- Looking a mapper up keeps a cache sound, whether a mapper is found or not. -/
theorem sound_mapper (schema : Schema E) (naming : NamingConvention) (entity : E) :
    Respects (fun before after => before.Sound schema → after.Sound schema)
      (mapper schema naming entity) :=
  fun cache => sound_mapperWithin schema naming cache.building entity cache

end MetadataCache

end ObjectRelational
