import ObjectRelational.Mapping.Cache
import ObjectRelational.Proofs.Mapping.Selection

/-! # The names of selected tables

A root table stands in a selection under its own name, and a joined table under the path of its
nested property. Paths tell the joins of a tree apart. Nothing keeps the name of the root table
apart from them.

* `Outline.names`: the names under which the tables of a selection stand;
* `RowMapper.nodup_aliases`: no two joins have one alias;
* `RowMapper.names_of_select`: the tables of a selection are told apart exactly if the root table has
  the name of no alias.
-/

namespace ObjectRelational

set_option autoImplicit false

/-- The names under which the tables of a selection stand, the root table first. -/
def Outline.names (outline : Outline) : List String :=
  outline.table :: outline.joined.map JoinedTable.name

namespace RowMapper

variable {E : Type} {mapper : RowMapper E}

/-- The nested properties of each mapper in a tree are told apart by names without dots. -/
structure PlainNests (mapper : RowMapper E) : Prop where
  plain : mapper.PlainPaths
  nodup : ∀ path inner, Within mapper path inner →
    (inner.nested.map fun entry => entry.1.name).Nodup

theorem PlainNests.inner (h : mapper.PlainNests) {entry : NestedProperty × RowMapper E}
    (hentry : entry ∈ mapper.nested) : entry.2.PlainNests where
  plain := h.plain.inner hentry
  nodup _ inner hwithin := h.nodup _ inner (.inside hentry hwithin)

/-! ## Aliases -/

/-- The paths of the joins below one nested property, counted from that property. -/
def pathsBelow (entry : NestedProperty × RowMapper E) : List (List String) :=
  if entry.1.join?.isSome then [] :: entry.2.joinSites.map JoinSite.path else []

theorem paths_nestedSites (entries : List (NestedProperty × RowMapper E)) :
    (nestedSites entries).map JoinSite.path =
      entries.flatMap fun entry => (pathsBelow entry).map (List.cons entry.1.name) := by
  induction entries with
  | nil => rfl
  | cons entry rest ih =>
    obtain ⟨property, mapper⟩ := entry
    unfold nestedSites
    rw [List.flatMap_cons, ← ih]
    cases hjoin : property.join? with
    | none => simp [pathsBelow, hjoin]
    | some decl => simp [pathsBelow, hjoin, JoinSite.below, Function.comp_def]

theorem nodup_joinSites (mapper : RowMapper E) (h : mapper.PlainNests) :
    (mapper.joinSites.map JoinSite.path).Nodup := by
  induction mapper using tree_induction with
  | node mapper ih =>
    have hbelow : ∀ entry ∈ mapper.nested, (pathsBelow entry).Nodup := by
      intro entry hentry
      unfold pathsBelow
      split
      · refine List.nodup_cons.2 ⟨?_, ih entry hentry (h.inner hentry)⟩
        intro hmem
        obtain ⟨site, hsite, hpath⟩ := List.mem_map.1 hmem
        exact path_ne_nil hsite hpath
      · exact List.nodup_nil
    have hnested := nodup_flatMap_cons (h.nodup [] mapper (.root mapper)) hbelow
    rw [← paths_nestedSites] at hnested
    cases mapper
    exact hnested

/-- No two joins have one alias. -/
theorem nodup_aliases (h : mapper.PlainNests) :
    (mapper.outline.joined.map JoinedTable.name).Nodup := by
  have hdots := plain_of_mem_joinSites mapper h.plain
  have haliases : mapper.outline.joined.map JoinedTable.name =
      (mapper.joinSites.map JoinSite.path).map ".".intercalate := by
    unfold outline
    rw [List.map_map, List.map_map]
    rfl
  rw [haliases]
  refine (nodup_joinSites mapper h).map_on ?_
  intro path hpath path' hpath' hsame
  obtain ⟨site, hsite, rfl⟩ := List.mem_map.1 hpath
  obtain ⟨site', hsite', rfl⟩ := List.mem_map.1 hpath'
  exact Path.intercalate_injective (path_ne_nil hsite) (path_ne_nil hsite') (hdots site hsite)
    (hdots site' hsite') hsame

/-! ## Qualifiers -/

theorem source_mem_names {column : SelectedColumn} (h : column ∈ mapper.outline.columns) :
    column.source ∈ mapper.outline.names := by
  obtain hroot | ⟨joined, hjoined, hsource⟩ := source_joined h
  · exact List.mem_cons.2 (.inl hroot)
  · exact List.mem_cons_of_mem _ (hsource ▸ List.mem_map_of_mem hjoined)

theorem left_mem_names {joined : JoinedTable} (h : joined ∈ mapper.outline.joined) :
    joined.left ∈ mapper.outline.names := by
  obtain ⟨i, hi⟩ := List.mem_iff_getElem?.1 h
  obtain ⟨site, -, -, ⟨-, hroot⟩ | ⟨j, -, enclosing, henclosing, -, hleft⟩⟩ := joined_hangs hi
  · exact List.mem_cons.2 (.inl hroot)
  · have hjoined : joinedAt mapper.metadata.table enclosing ∈ mapper.outline.joined :=
      List.mem_map_of_mem (List.mem_of_getElem? henclosing)
    exact List.mem_cons_of_mem _ (hleft ▸ List.mem_map_of_mem (f := JoinedTable.name) hjoined)

/-- A selection lists its columns and then its root table and its joined tables, each under the name
that qualifies its columns. No two joins have one alias, so that all names are told apart exactly if
the root table does not have the name of an alias; then every column that is selected or joined on is
one of exactly one table. -/
theorem names_of_select (h : mapper.PlainNests) :
    (∀ chain, mapper.select.render chain = .ok ⟨"SELECT " ++
      ", ".intercalate (wholeTable chain.quote mapper.select ++
        mapper.outline.columns.map (SelectedColumn.text chain.quote)) ++
      mapper.outline.fromText chain.quote, []⟩ chain) ∧
    (mapper.outline.joined.map JoinedTable.name).Nodup ∧
    (mapper.outline.names.Nodup ↔
      ∀ site ∈ mapper.joinSites, ".".intercalate site.path ≠ mapper.metadata.table) ∧
    (mapper.outline.names.Nodup → mapper.outline.names.count mapper.outline.table = 1 ∧
      (∀ column ∈ mapper.outline.columns, mapper.outline.names.count column.source = 1) ∧
      ∀ joined ∈ mapper.outline.joined, mapper.outline.names.count joined.left = 1 ∧
        mapper.outline.names.count joined.name = 1) := by
  have haliases := nodup_aliases h
  refine ⟨render_select_tables h.plain, haliases, ?_, fun hnames => ⟨?_, ?_, ?_⟩⟩
  · have hmem : mapper.metadata.table ∈ mapper.outline.joined.map JoinedTable.name ↔
        ∃ site ∈ mapper.joinSites, ".".intercalate site.path = mapper.metadata.table := by
      simp [outline, joinedAt]
    rw [Outline.names, List.nodup_cons, show mapper.outline.table = mapper.metadata.table from rfl,
      hmem]
    simp [haliases]
  · exact List.count_eq_one_of_mem hnames List.mem_cons_self
  · intro column hcolumn
    exact List.count_eq_one_of_mem hnames (source_mem_names hcolumn)
  · intro joined hjoined
    exact ⟨List.count_eq_one_of_mem hnames (left_mem_names hjoined),
      List.count_eq_one_of_mem hnames (List.mem_cons_of_mem _ (List.mem_map_of_mem hjoined))⟩

theorem names_of_select_user :
    Users.user.outline.names = ["users", "group", "group.owner"] ∧
      ∀ column ∈ Users.user.outline.columns,
        Users.user.outline.names.count column.source = 1 := by
  obtain ⟨-, -, hnodup, hcount⟩ :=
    names_of_select ⟨Users.plainPaths_user, Users.plainColumns_user.nested⟩
  exact ⟨by decide, (hcount (hnodup.2 (by decide))).2.1⟩

namespace Rosters

/-- Players, kept in a table named team, and the teams they are nested in. -/
inductive Sheet where
  | player
  | team
  deriving DecidableEq

def words : ColumnType := Users.nameOf.type

def schema : Schema Sheet where
  entities := [.player, .team]
  complete entity := by cases entity <;> simp
  declaration
    | .player => .ofProperties "rosters::Player" "team" "name"
        [.field "name" words "name", (PropertyDecl.nested "team" .team "team").joined .left "team_id" "id"]
        []
    | .team => .ofProperties "rosters::Team" "teams" "id" [.field "id" words "id"] []

def built : EStateM.Result ConfigError (MetadataCache Sheet) (RowMapper Sheet) :=
  MetadataCache.mapper schema .snakeCase .player (.ofChain (Engine.generic.chain 4326))

end Rosters

/-- A root table can have the name of an alias. -/
theorem not_nodup_names : ¬ ∀ (schema : Schema Rosters.Sheet) (naming : NamingConvention)
    (entity : Rosters.Sheet) (chain : Chain) (mapper : RowMapper Rosters.Sheet)
    (cache : MetadataCache Rosters.Sheet),
    MetadataCache.mapper schema naming entity (.ofChain chain) = .ok mapper cache →
      (∀ entity, ((schema.declaration entity).properties.map PropertyDecl.name).Nodup) →
      (∀ entity, ∀ property ∈ (schema.declaration entity).properties,
        '.' ∉ property.name.toList) →
      mapper.outline.names.Nodup := by
  intro hall
  have hnames : (match Rosters.built with
      | .ok mapper _ => some mapper.outline.names
      | .error _ _ => none) = some ["team", "team"] := by decide +kernel
  cases hbuilt : Rosters.built with
  | error e cache =>
    rw [hbuilt] at hnames
    cases hnames
  | ok mapper cache =>
    rw [hbuilt] at hnames
    have hnodup := hall Rosters.schema .snakeCase .player _ mapper cache hbuilt
      (fun entity => by cases entity <;> decide) (fun entity => by cases entity <;> decide)
    rw [Option.some.inj hnames] at hnodup
    exact absurd hnodup (by decide)

end RowMapper

end ObjectRelational
