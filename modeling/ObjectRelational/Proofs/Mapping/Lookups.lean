import ObjectRelational.Proofs.Mapping.Cells

/-! # The columns a mapper looks up

A mapper and the mappers of its nested objects form a tree. A mapping looks up the columns of the
root, and after them those of each nested object, in the order of declaration and depth first, under
the names of the nested properties on the way.

* `Lookup`: a column that is looked up;
* `RowMapper.Within`: a mapper in the tree of another;
* `RowMapper.mapView_congr`: a mapping depends on nothing but its lookups;
* `RowMapper.eq_none_of_mapView`: an object comes into being exactly if a lookup finds a value.
-/

namespace ObjectRelational

set_option autoImplicit false

/-! ## Names below a path -/

/-- A column that a mapper looks up. -/
structure Lookup where
  /-- The names of the nested properties on the way. -/
  path : List String
  column : String
  /-- Whether all of them declare a join. -/
  joined : Bool

namespace Lookup

def parts (lookup : Lookup) : List String :=
  lookup.path ++ [lookup.column]

def name (lookup : Lookup) : String :=
  ".".intercalate lookup.parts

def own (column : String) : Lookup :=
  ⟨[], column, true⟩

/-- A lookup of a nested object, as one of the object around it. -/
def below (property : NestedProperty) (lookup : Lookup) : Lookup :=
  ⟨property.name :: lookup.path, lookup.column, property.join?.isSome && lookup.joined⟩

@[simp]
theorem name_own (column : String) : (own column).name = column := by
  simp [name, parts, own]

@[simp]
theorem parts_below (property : NestedProperty) (lookup : Lookup) :
    (lookup.below property).parts = property.name :: lookup.parts := rfl

@[simp]
theorem name_below (property : NestedProperty) (lookup : Lookup) :
    (lookup.below property).name = property.name ++ "." ++ lookup.name := by
  unfold name
  rw [parts_below, String.intercalate_cons_of_ne_nil (by simp [parts])]

end Lookup

theorem cell?_under (view : RowView) (property : NestedProperty) (lookup : Lookup) :
    (view.under property.name).cell? lookup.name = view.cell? (lookup.below property).name := by
  unfold RowView.cell? RowView.under
  rw [Lookup.name_below]

namespace RowMapper

variable {E : Type}

/-! ## The tree of a mapper -/

/-- What holds of a mapper whenever it holds of the mappers of its nested objects holds of all. -/
@[elab_as_elim]
theorem tree_induction {motive : RowMapper E → Prop}
    (node : ∀ mapper, (∀ entry ∈ mapper.nested, motive entry.2) → motive mapper) :
    ∀ mapper, motive mapper
  | mk metadata nested => node (mk metadata nested) fun entry _ => tree_induction node entry.2
termination_by mapper => sizeOf mapper
decreasing_by
  next hmem =>
  have hlt := List.sizeOf_lt_of_mem (show entry ∈ nested from hmem)
  have hentry : sizeOf entry = 1 + sizeOf entry.1 + sizeOf entry.2 := by
    cases entry
    rfl
  rw [mk.sizeOf_spec]
  omega

/-- The mapper of the nested objects at a path below the objects of another. -/
inductive Within : RowMapper E → List String → RowMapper E → Prop
  | root (mapper : RowMapper E) : Within mapper [] mapper
  | inside {mapper inner : RowMapper E} {entry : NestedProperty × RowMapper E} {path : List String}
      (hentry : entry ∈ mapper.nested) (hinner : Within entry.2 path inner) :
      Within mapper (entry.1.name :: path) inner

mutual

/-- The columns that a mapping looks up, in order. -/
def lookups : RowMapper E → List Lookup
  | mk metadata nested => metadata.columnNames.map .own ++ nestedLookups nested

def nestedLookups : List (NestedProperty × RowMapper E) → List Lookup
  | [] => []
  | (property, mapper) :: rest => (lookups mapper).map (.below property) ++ nestedLookups rest

end

theorem mem_nestedLookups {nested : List (NestedProperty × RowMapper E)} {lookup : Lookup} :
    lookup ∈ nestedLookups nested ↔
      ∃ entry ∈ nested, ∃ inner ∈ entry.2.lookups, lookup = inner.below entry.1 := by
  induction nested with
  | nil => simp [nestedLookups]
  | cons entry rest ih =>
    obtain ⟨property, mapper⟩ := entry
    simp [nestedLookups, ih, eq_comm]

theorem mem_lookups {mapper : RowMapper E} {lookup : Lookup} :
    lookup ∈ mapper.lookups ↔
      (∃ property ∈ mapper.metadata.simple, lookup = .own property.column) ∨
      ∃ entry ∈ mapper.nested, ∃ inner ∈ entry.2.lookups, lookup = inner.below entry.1 := by
  cases mapper
  simp [lookups, metadata, nested, EntityMetadata.columnNames, mem_nestedLookups, eq_comm]

/-- A lookup is for a property of the mapper at its path. -/
theorem within_of_mem_lookups (mapper : RowMapper E) : ∀ {lookup : Lookup}, lookup ∈ mapper.lookups →
    ∃ inner, Within mapper lookup.path inner ∧
      ∃ property ∈ inner.metadata.simple, property.column = lookup.column := by
  induction mapper using tree_induction with
  | node mapper ih =>
    intro lookup h
    obtain ⟨property, hproperty, rfl⟩ | ⟨entry, hentry, below, hbelow, rfl⟩ := mem_lookups.1 h
    · exact ⟨mapper, .root mapper, property, hproperty, rfl⟩
    · obtain ⟨inner, hwithin, property, hproperty, hcolumn⟩ := ih entry hentry hbelow
      exact ⟨inner, .inside hentry hwithin, property, hproperty, hcolumn⟩

/-! ## Objects below a path -/

section Nested

variable {view : RowView} {blank : Instance}

theorem mapView_eq (mapper : RowMapper E) (view : RowView) :
    mapper.mapView view = (mapSimple mapper.metadata view mapper.metadata.simple none >>=
      mapNested mapper.metadata.blank mapper.nested view) := by
  cases mapper
  rfl

theorem mapView_ok {mapper : RowMapper E} {found : Option Instance}
    (h : mapper.mapView view = .ok found) :
    ∃ target, mapSimple mapper.metadata view mapper.metadata.simple none = .ok target ∧
      mapNested mapper.metadata.blank mapper.nested view target = .ok found := by
  rw [mapView_eq] at h
  exact except_bind_ok h

theorem mapNested_cons_ok {property : NestedProperty} {mapper : RowMapper E}
    {rest : List (NestedProperty × RowMapper E)} {target target' : Option Instance}
    (h : mapNested blank ((property, mapper) :: rest) view target = .ok target') :
    (mapper.mapView (view.under property.name) = .ok none ∧
      mapNested blank rest view target = .ok target') ∨
    ∃ child, mapper.mapView (view.under property.name) = .ok (some child) ∧
      mapNested blank rest view (some ((target.getD blank).withNested property.slot child)) =
        .ok target' := by
  unfold mapNested at h
  obtain ⟨found, hfound, h⟩ := except_bind_ok h
  cases found with
  | none => exact .inl ⟨hfound, h⟩
  | some child => exact .inr ⟨child, hfound, h⟩

theorem mapView_of_mapNested {nested : List (NestedProperty × RowMapper E)}
    {target target' : Option Instance} (h : mapNested blank nested view target = .ok target') :
    ∀ entry ∈ nested, ∃ found, entry.2.mapView (view.under entry.1.name) = .ok found := by
  induction nested generalizing target with
  | nil => simp
  | cons entry rest ih =>
    rw [List.forall_mem_cons]
    obtain ⟨hmapped, hrest⟩ | ⟨child, hmapped, hrest⟩ := mapNested_cons_ok h
    · exact ⟨⟨none, hmapped⟩, ih hrest⟩
    · exact ⟨⟨some child, hmapped⟩, ih hrest⟩

theorem mapNested_eq_none {nested : List (NestedProperty × RowMapper E)}
    {target target' : Option Instance} (h : mapNested blank nested view target = .ok target') :
    target' = none ↔ target = none ∧
      ∀ entry ∈ nested, entry.2.mapView (view.under entry.1.name) = .ok none := by
  induction nested generalizing target with
  | nil =>
    cases h
    simp
  | cons entry rest ih =>
    rw [List.forall_mem_cons]
    obtain ⟨hmapped, hrest⟩ | ⟨child, hmapped, hrest⟩ := mapNested_cons_ok h
    · rw [ih hrest]
      simp [hmapped]
    · rw [ih hrest]
      simp [hmapped]

theorem column_mapNested {nested : List (NestedProperty × RowMapper E)}
    {target target' : Option Instance} (h : mapNested blank nested view target = .ok target')
    (slot : String) : (target'.getD blank).column slot = (target.getD blank).column slot := by
  induction nested generalizing target with
  | nil =>
    cases h
    rfl
  | cons entry rest ih =>
    obtain ⟨-, hrest⟩ | ⟨child, -, hrest⟩ := mapNested_cons_ok h
    · exact ih hrest
    · rw [ih hrest]
      simp

theorem nested?_mapNested_of_not_mem {nested : List (NestedProperty × RowMapper E)}
    {target target' : Option Instance} (h : mapNested blank nested view target = .ok target')
    {slot : String} (hslot : slot ∉ nested.map fun entry => entry.1.slot) :
    (target'.getD blank).nested? slot = (target.getD blank).nested? slot := by
  induction nested generalizing target with
  | nil =>
    cases h
    rfl
  | cons entry rest ih =>
    rw [List.map_cons, List.mem_cons, not_or] at hslot
    obtain ⟨-, hrest⟩ | ⟨child, -, hrest⟩ := mapNested_cons_ok h
    · exact ih hrest hslot.2
    · rw [ih hrest hslot.2]
      simp [Ne.symm hslot.1]

/-- What is found for a nested property is stored, and nothing is stored if nothing is found. -/
theorem nested?_mapNested_of_mem {nested : List (NestedProperty × RowMapper E)}
    {target target' : Option Instance} (h : mapNested blank nested view target = .ok target')
    (hslots : (nested.map fun entry => entry.1.slot).Nodup) {entry : NestedProperty × RowMapper E}
    (hentry : entry ∈ nested) {found : Option Instance}
    (hfound : entry.2.mapView (view.under entry.1.name) = .ok found) :
    (target'.getD blank).nested? entry.1.slot =
      found.or ((target.getD blank).nested? entry.1.slot) := by
  induction nested generalizing target with
  | nil => cases hentry
  | cons first rest ih =>
    rw [List.map_cons, List.nodup_cons] at hslots
    rcases List.mem_cons.1 hentry with rfl | hlater
    · obtain ⟨hmapped, hrest⟩ | ⟨child, hmapped, hrest⟩ := mapNested_cons_ok h
      · rw [hfound] at hmapped
        cases hmapped
        exact nested?_mapNested_of_not_mem hrest hslots.1
      · rw [hfound] at hmapped
        cases hmapped
        rw [nested?_mapNested_of_not_mem hrest hslots.1]
        simp
    · have hne : first.1.slot ≠ entry.1.slot := by
        intro he
        exact hslots.1 (he ▸ List.mem_map_of_mem (f := fun entry => entry.1.slot) hlater)
      obtain ⟨-, hrest⟩ | ⟨child, -, hrest⟩ := mapNested_cons_ok h
      · exact ih hrest hslots.2 hlater
      · rw [ih hrest hslots.2 hlater]
        simp [hne]

theorem nested?_mapNested {nested : List (NestedProperty × RowMapper E)}
    {target target' : Option Instance} (h : mapNested blank nested view target = .ok target')
    (hslots : (nested.map fun entry => entry.1.slot).Nodup)
    (hempty : ∀ entry ∈ nested, (target.getD blank).nested? entry.1.slot = none) :
    ∀ entry ∈ nested, entry.2.mapView (view.under entry.1.name) =
      .ok ((target'.getD blank).nested? entry.1.slot) := by
  intro entry hentry
  obtain ⟨found, hfound⟩ := mapView_of_mapNested h entry hentry
  rw [nested?_mapNested_of_mem h hslots hentry hfound, hempty entry hentry, Option.or_none, hfound]

end Nested

/-! ## What the lookups decide -/

/-- There is no object exactly if no lookup finds a cell that counts. -/
theorem eq_none_of_mapView (mapper : RowMapper E) :
    ∀ {view : RowView} {found : Option Instance}, mapper.mapView view = .ok found →
      (found = none ↔ ∀ lookup ∈ mapper.lookups, view.cell? lookup.name = none) := by
  induction mapper using tree_induction with
  | node mapper ih =>
    intro view found h
    obtain ⟨target, hsimple, hnested⟩ := mapView_ok h
    rw [mapNested_eq_none hnested, mapSimple_eq_none hsimple]
    have hentry : ∀ entry ∈ mapper.nested,
        (entry.2.mapView (view.under entry.1.name) = .ok none ↔
          ∀ inner ∈ entry.2.lookups, view.cell? (inner.below entry.1).name = none) := by
      intro entry hmem
      obtain ⟨object, hobject⟩ := mapView_of_mapNested hnested entry hmem
      have hinner := ih entry hmem hobject
      simp only [cell?_under] at hinner
      rw [hobject, ← hinner, Except.ok.injEq]
    constructor
    · rintro ⟨⟨-, hown⟩, hbelow⟩ lookup hlookup
      obtain ⟨property, hproperty, rfl⟩ | ⟨entry, hmem, inner, hinner, rfl⟩ := mem_lookups.1 hlookup
      · rw [Lookup.name_own]
        exact hown property hproperty
      · exact (hentry entry hmem).1 (hbelow entry hmem) inner hinner
    · intro hall
      refine ⟨⟨rfl, ?_⟩, ?_⟩
      · intro property hproperty
        have hlookup := hall (.own property.column) (mem_lookups.2 (.inl ⟨property, hproperty, rfl⟩))
        rwa [Lookup.name_own] at hlookup
      · intro entry hmem
        refine (hentry entry hmem).2 ?_
        intro inner hinner
        exact hall _ (mem_lookups.2 (.inr ⟨entry, hmem, inner, hinner, rfl⟩))

theorem mapSimple_congr (metadata : EntityMetadata E) {view view' : RowView}
    {properties : List SimpleProperty}
    (h : ∀ property ∈ properties, view property.column = view' property.column)
    (target : Option Instance) :
    mapSimple metadata view properties target = mapSimple metadata view' properties target := by
  induction properties generalizing target with
  | nil => rfl
  | cons property rest ih =>
    rw [List.forall_mem_cons] at h
    have hstep : mapProperty metadata view target property =
        mapProperty metadata view' target property := by
      unfold mapProperty Converter.readColumn
      rw [h.1]
    unfold mapSimple
    rw [hstep]
    cases mapProperty metadata view' target property with
    | error e => rfl
    | ok next => exact ih h.2 next

theorem mapNested_congr {blank : Instance} {view view' : RowView}
    {nested : List (NestedProperty × RowMapper E)}
    (h : ∀ entry ∈ nested, entry.2.mapView (view.under entry.1.name) =
      entry.2.mapView (view'.under entry.1.name)) (target : Option Instance) :
    mapNested blank nested view target = mapNested blank nested view' target := by
  induction nested generalizing target with
  | nil => rfl
  | cons entry rest ih =>
    rw [List.forall_mem_cons] at h
    unfold mapNested
    rw [h.1]
    cases entry.2.mapView (view'.under entry.1.name) with
    | error e => rfl
    | ok found => cases found <;> exact ih h.2 _

/-- Two views are mapped alike if they agree on all lookups. -/
theorem mapView_congr (mapper : RowMapper E) :
    ∀ {view view' : RowView}, (∀ lookup ∈ mapper.lookups, view lookup.name = view' lookup.name) →
      mapper.mapView view = mapper.mapView view' := by
  induction mapper using tree_induction with
  | node mapper ih =>
    intro view view' h
    have hown : ∀ property ∈ mapper.metadata.simple,
        view property.column = view' property.column := by
      intro property hproperty
      have hlookup := h (.own property.column) (mem_lookups.2 (.inl ⟨property, hproperty, rfl⟩))
      rwa [Lookup.name_own] at hlookup
    have hbelow : ∀ entry ∈ mapper.nested, entry.2.mapView (view.under entry.1.name) =
        entry.2.mapView (view'.under entry.1.name) := by
      intro entry hmem
      refine ih entry hmem ?_
      intro inner hinner
      have hlookup := h _ (mem_lookups.2 (.inr ⟨entry, hmem, inner, hinner, rfl⟩))
      rwa [Lookup.name_below] at hlookup
    rw [mapView_eq, mapView_eq, mapSimple_congr mapper.metadata hown]
    cases mapSimple mapper.metadata view' mapper.metadata.simple none with
    | error e => rfl
    | ok target => exact mapNested_congr hbelow target

/-! ## Users in groups -/

namespace Users

def nameOf : SimpleProperty :=
  ⟨"name", "name", "name", ⟨⟨"String", .scalar .text, none⟩, .text⟩, false, .passThrough "text"⟩

def named (typeName table : String) (nested : List (NestedProperty × RowMapper Unit)) :
    RowMapper Unit :=
  mk ⟨(), typeName, table, "name", [nameOf], [], .empty⟩ nested

def owner : RowMapper Unit := named "Owner" "owners" []

def group : RowMapper Unit :=
  named "Group" "groups" [(⟨"owner", "owner", some ⟨.left, "owner_id", "id"⟩⟩, owner)]

/-- A user with an address, which is not joined, and a group, which is. -/
def user : RowMapper Unit :=
  named "User" "users" [(⟨"address", "address", none⟩, named "Address" "addresses" []),
    (⟨"group", "group", some ⟨.left, "group_id", "id"⟩⟩, group)]

theorem within_user {path : List String} {inner : RowMapper Unit} (h : Within user path inner) :
    inner = user ∨ inner = named "Address" "addresses" [] ∨ inner = group ∨ inner = owner := by
  rcases h with _ | ⟨hentry, h⟩
  · exact .inl rfl
  · obtain rfl | hentry := List.mem_cons.1 hentry
    · rcases h with _ | ⟨hentry, h⟩
      · exact .inr (.inl rfl)
      · cases hentry
    · obtain rfl := List.mem_singleton.1 hentry
      rcases h with _ | ⟨hentry, h⟩
      · exact .inr (.inr (.inl rfl))
      · obtain rfl := List.mem_singleton.1 hentry
        rcases h with _ | ⟨hentry, h⟩
        · exact .inr (.inr (.inr rfl))
        · cases hentry

end Users

end RowMapper

end ObjectRelational
