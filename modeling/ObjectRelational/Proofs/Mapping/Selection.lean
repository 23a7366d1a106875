import Mathlib.Data.List.Nodup
import ObjectRelational.Proofs.Mapping.Absence
import ObjectRelational.Proofs.Mapping.Faults

/-! # The selection of a mapper

The selection that a mapper puts together has one column for every lookup whose nested properties
all declare joins, under the name that is looked up. Every joined table has its path as its alias
and hangs off the alias one step up, which has been joined before it.

* `Outline`: a selection by its columns and joined tables, and its text;
* `RowMapper.joinSites`: the joins in the tree of a mapper;
* `RowMapper.outline`: the outline that the lookups of a mapper ask for;
* `RowMapper.Reads`: a mapping takes a property from a lookup;
* `RowMapper.selection_of_lookups`: the rendered selection has this outline.
-/

namespace ObjectRelational

set_option autoImplicit false

/-! ## The text of pieces -/

namespace Sql

/-- The text of some pieces. -/
def written (mark : Char) (sql : Sql) : String :=
  String.ofList (sql.chars mark)

variable (mark : Char)

@[simp]
theorem written_nil : written mark [] = "" := rfl

@[simp]
theorem written_text (s : String) (rest : Sql) :
    written mark (.text s :: rest) = s ++ written mark rest := by
  simp [written, chars, pieceChars]

@[simp]
theorem written_name (s : String) (rest : Sql) :
    written mark (.name s :: rest) = Text.quote mark s ++ written mark rest := by
  simp [written, chars, pieceChars, Text.quote]

@[simp]
theorem written_append (first second : Sql) :
    written mark (first ++ second) = written mark first ++ written mark second := by
  simp [written, chars]

theorem written_separated (separator : String) (sqls : List Sql) :
    written mark (separated separator sqls) = separator.intercalate (sqls.map (written mark)) := by
  induction sqls with
  | nil => rfl
  | cons sql rest ih =>
    cases rest with
    | nil => simp [separated]
    | cons next rest =>
      rw [separated, written_append, written_text, ih, List.map_cons, List.map_cons,
        List.map_cons, String.intercalate_cons_cons, String.append_assoc]
      simp

theorem written_flatMap {α : Type} (f : α → Sql) (xs : List α) :
    written mark (xs.flatMap f) = String.join (xs.map fun x => written mark (f x)) := by
  induction xs with
  | nil => rfl
  | cons x rest ih => simp [ih]

end Sql

/-! ## Paths -/

namespace Path

theorem intercalate_injective {names names' : List String} (hnames : names ≠ [])
    (hnames' : names' ≠ []) (hdots : ∀ name ∈ names, '.' ∉ name.toList)
    (hdots' : ∀ name ∈ names', '.' ∉ name.toList)
    (h : ".".intercalate names = ".".intercalate names') : names = names' := by
  have hsplit : ∀ {names : List String}, names ≠ [] → (∀ name ∈ names, '.' ∉ name.toList) →
      (".".intercalate names).toList.splitOn '.' = names.map String.toList := by
    intro names hne hdots
    rw [String.toList_intercalate]
    apply List.splitOn_intercalate
    · simpa using hdots
    · simpa using hne
  have hlists : names.map String.toList = names'.map String.toList := by
    rw [← hsplit hnames hdots, ← hsplit hnames' hdots', h]
  exact List.map_injective_iff.2 (fun _ _ => String.toList_injective) hlists

theorem dropWhile_reverse {name : List Char} (h : '.' ∉ name) (rest : List Char) :
    (name.reverse ++ rest).dropWhile (· ≠ '.') = rest.dropWhile (· ≠ '.') := by
  rw [List.dropWhile_append_of_pos]
  intro c hc
  have hne : c ≠ '.' := by
    rintro rfl
    exact h (List.mem_reverse.1 hc)
  simpa using hne

theorem parent?_intercalate (names : List String) {name : String} (h : '.' ∉ name.toList) :
    parent? (".".intercalate (names ++ [name])) =
      if names = [] then none else some (".".intercalate names) := by
  unfold parent? beforeLastDot?
  by_cases hnames : names = []
  · subst hnames
    have hdrop := dropWhile_reverse h []
    rw [List.append_nil, List.dropWhile_nil] at hdrop
    rw [List.nil_append, String.intercalate_singleton, hdrop]
    rfl
  · rw [String.intercalate_append_of_ne_nil hnames (by simp), String.intercalate_singleton,
      String.toList_append, String.toList_append, List.reverse_append, dropWhile_reverse h]
    simp [hnames, -String.toList_intercalate]

end Path

/-! ## Outlines -/

/-- A selected column: the table or alias that it is of, and the name under which it comes out. -/
structure SelectedColumn where
  source : String
  column : String
  name : String

/-- A joined table: its alias, and the alias or table and the columns that it is joined on. -/
structure JoinedTable where
  kind : JoinKind
  table : String
  name : String
  left : String
  localColumn : String
  remoteColumn : String

structure Outline where
  columns : List SelectedColumn
  table : String
  joined : List JoinedTable

def SelectedColumn.text (quote : String → String) (column : SelectedColumn) : String :=
  quote column.source ++ "." ++ quote column.column ++ " AS " ++ quote column.name

def JoinedTable.text (quote : String → String) (joined : JoinedTable) : String :=
  String.join [" ", joined.kind.sql, " ", quote joined.table, " AS ", quote joined.name, " ON ",
    quote joined.left, ".", quote joined.localColumn, " = ",
    quote joined.name, ".", quote joined.remoteColumn]

/-- The text of a selection with its names quoted. -/
def Outline.text (quote : String → String) (outline : Outline) : String :=
  "SELECT " ++ ", ".intercalate (outline.columns.map (SelectedColumn.text quote)) ++ " FROM " ++
    quote outline.table ++ String.join (outline.joined.map (JoinedTable.text quote))

/-- The tables of a selection as they stand after the columns. -/
def Outline.fromText (quote : String → String) (outline : Outline) : String :=
  " FROM " ++ quote outline.table ++ String.join (outline.joined.map (JoinedTable.text quote))

namespace RowMapper

variable {E : Type}

/-! ## The joins of a tree -/

/-- A join in the tree of a mapper: the names on its way and the table that it joins. -/
structure JoinSite where
  path : List String
  decl : JoinDecl
  table : String
  columns : List String

namespace JoinSite

/-- A join of a nested object, as one of the object around it. -/
def below (name : String) (site : JoinSite) : JoinSite :=
  { site with path := name :: site.path }

def lookups (site : JoinSite) : List Lookup :=
  site.columns.map fun column => ⟨site.path, column, true⟩

end JoinSite

mutual

/-- The joins in the tree of a mapper, each before those below it. -/
def joinSites : RowMapper E → List JoinSite
  | mk _ nested => nestedSites nested

def nestedSites : List (NestedProperty × RowMapper E) → List JoinSite
  | [] => []
  | (property, mapper) :: rest =>
      match property.join? with
      | none => nestedSites rest
      | some decl =>
          ⟨[property.name], decl, mapper.metadata.table, mapper.metadata.columnNames⟩ ::
            (joinSites mapper).map (.below property.name) ++ nestedSites rest

end

/-- The table or alias that the columns at a path are of. -/
def sourceAt (root : String) (path : List String) : String :=
  if path = [] then root else ".".intercalate path

def selectedAt (root : String) (lookup : Lookup) : SelectedColumn :=
  ⟨sourceAt root lookup.path, lookup.column, lookup.name⟩

/-- The table that is joined at a site: its alias is the path of the site, and it hangs off what is
one step up. -/
def joinedAt (root : String) (site : JoinSite) : JoinedTable :=
  ⟨site.decl.kind, site.table, ".".intercalate site.path, sourceAt root site.path.dropLast,
    site.decl.localColumn, site.decl.remoteColumn⟩

/-- The selection of all lookups whose nested properties declare joins. -/
def outline (mapper : RowMapper E) : Outline where
  columns := (mapper.lookups.filter Lookup.joined).map (selectedAt mapper.metadata.table)
  table := mapper.metadata.table
  joined := mapper.joinSites.map (joinedAt mapper.metadata.table)

/-! ## Joins and their sites -/

def pathOf (names : List String) : Option String :=
  if names = [] then none else some (".".intercalate names)

theorem pathBelow_pathOf (names : List String) (name : String) :
    pathBelow (pathOf names) name = ".".intercalate (names ++ [name]) := by
  unfold pathOf
  by_cases hnames : names = []
  · subst hnames
    simp [pathBelow]
  · rw [if_neg hnames, String.intercalate_append_of_ne_nil hnames (by simp),
      String.intercalate_singleton]
    rfl

def JoinSite.join (names : List String) (site : JoinSite) : Join :=
  ⟨site.decl.kind, site.table, ".".intercalate (names ++ site.path), site.decl.localColumn,
    site.decl.remoteColumn, site.columns⟩

theorem JoinSite.join_below (names : List String) (name : String) (site : JoinSite) :
    (site.below name).join names = site.join (names ++ [name]) := by
  simp [join, below]

theorem nestedJoins_eq {names : List String} {entries : List (NestedProperty × RowMapper E)}
    (h : ∀ entry ∈ entries, ∀ names,
      joins (pathOf names) entry.2 = entry.2.joinSites.map (JoinSite.join names)) :
    nestedJoins (pathOf names) entries = (nestedSites entries).map (JoinSite.join names) := by
  induction entries with
  | nil => rfl
  | cons entry rest ih =>
    obtain ⟨property, mapper⟩ := entry
    rw [List.forall_mem_cons] at h
    have hrest := ih h.2
    unfold nestedJoins nestedSites
    cases hjoin : property.join? with
    | none => exact hrest
    | some decl =>
      have hinner := h.1 (names ++ [property.name])
      have hpath : pathOf (names ++ [property.name]) =
          some (".".intercalate (names ++ [property.name])) := by simp [pathOf]
      rw [hpath] at hinner
      simp only [pathBelow_pathOf, hinner, hrest, List.map_append, List.map_cons, List.map_map]
      congr 2
      apply List.map_congr_left
      intro site _
      exact (JoinSite.join_below names property.name site).symm

theorem joins_eq (mapper : RowMapper E) :
    ∀ names, joins (pathOf names) mapper = mapper.joinSites.map (JoinSite.join names) := by
  induction mapper using tree_induction with
  | node mapper ih =>
    intro names
    cases mapper
    exact nestedJoins_eq ih

theorem JoinSite.lookups_below (property : NestedProperty) (site : JoinSite)
    (h : property.join?.isSome = true) :
    (site.below property.name).lookups = site.lookups.map (.below property) := by
  simp [lookups, below, Lookup.below, h]

theorem joined_nestedLookups {entries : List (NestedProperty × RowMapper E)}
    (h : ∀ entry ∈ entries, entry.2.lookups.filter Lookup.joined =
      entry.2.metadata.columnNames.map Lookup.own ++ entry.2.joinSites.flatMap JoinSite.lookups) :
    (nestedLookups entries).filter Lookup.joined =
      (nestedSites entries).flatMap JoinSite.lookups := by
  induction entries with
  | nil => rfl
  | cons entry rest ih =>
    obtain ⟨property, mapper⟩ := entry
    rw [List.forall_mem_cons] at h
    unfold nestedLookups nestedSites
    rw [List.filter_append, ih h.2, List.filter_map]
    cases hjoin : property.join? with
    | none =>
      have hnone : mapper.lookups.filter (Lookup.joined ∘ Lookup.below property) = [] := by
        apply List.filter_eq_nil_iff.2
        intro lookup _
        simp [Lookup.below, hjoin]
      rw [hnone]
      rfl
    | some decl =>
      have hsome : property.join?.isSome = true := by simp [hjoin]
      have hsame : mapper.lookups.filter (Lookup.joined ∘ Lookup.below property) =
          mapper.lookups.filter Lookup.joined := by
        congr 1
        funext lookup
        simp [Lookup.below, hjoin]
      rw [hsame, h.1]
      simp only [List.map_append, List.flatMap_append, List.flatMap_cons, List.map_map,
        List.map_flatMap, List.flatMap_map, JoinSite.lookups_below property _ hsome]
      congr 2
      simp [JoinSite.lookups, Lookup.own, Lookup.below, hjoin]

/-- The lookups below nested properties with joins are those of the joined tables, in order. -/
theorem joined_lookups (mapper : RowMapper E) :
    mapper.lookups.filter Lookup.joined = mapper.metadata.columnNames.map Lookup.own ++
      mapper.joinSites.flatMap JoinSite.lookups := by
  induction mapper using tree_induction with
  | node mapper ih =>
    obtain ⟨metadata, entries⟩ := mapper
    have hown : (metadata.columnNames.map Lookup.own).filter Lookup.joined =
        metadata.columnNames.map Lookup.own := by
      apply List.filter_eq_self.2
      intro lookup hlookup
      obtain ⟨column, -, rfl⟩ := List.mem_map.1 hlookup
      rfl
    unfold lookups joinSites
    rw [List.filter_append, hown]
    exact congrArg _ (joined_nestedLookups ih)

/-! ## The order of joins -/

theorem mem_nestedSites {entries : List (NestedProperty × RowMapper E)} {site : JoinSite}
    (h : site ∈ nestedSites entries) :
    ∃ entry ∈ entries, site.path = [entry.1.name] ∨
      ∃ inner ∈ entry.2.joinSites, site = inner.below entry.1.name := by
  induction entries with
  | nil => cases h
  | cons entry rest ih =>
    obtain ⟨property, mapper⟩ := entry
    rw [List.exists_mem_cons_iff]
    unfold nestedSites at h
    cases hjoin : property.join? with
    | none =>
      rw [hjoin] at h
      exact .inr (ih h)
    | some decl =>
      simp only [hjoin, List.cons_append, List.mem_cons, List.mem_append, List.mem_map] at h
      obtain rfl | ⟨inner, hinner, rfl⟩ | h := h
      · exact .inl (.inl rfl)
      · exact .inl (.inr ⟨inner, hinner, rfl⟩)
      · exact .inr (ih h)

theorem mem_joinSites {mapper : RowMapper E} {site : JoinSite} (h : site ∈ mapper.joinSites) :
    ∃ entry ∈ mapper.nested, site.path = [entry.1.name] ∨
      ∃ inner ∈ entry.2.joinSites, site = inner.below entry.1.name := by
  cases mapper
  exact mem_nestedSites h

theorem path_ne_nil {mapper : RowMapper E} {site : JoinSite} (h : site ∈ mapper.joinSites) :
    site.path ≠ [] := by
  obtain ⟨entry, -, hpath | ⟨inner, -, rfl⟩⟩ := mem_joinSites h
  · simp [hpath]
  · simp [JoinSite.below]

/-- Every site but those at depth one comes after the site one step up. -/
def Ordered (sites : List JoinSite) : Prop :=
  ∀ (i : Nat) (site : JoinSite), sites[i]? = some site → site.path.dropLast = [] ∨
    ∃ j < i, ∃ enclosing, sites[j]? = some enclosing ∧ enclosing.path = site.path.dropLast

theorem ordered_append {sites sites' : List JoinSite} (h : Ordered sites) (h' : Ordered sites') :
    Ordered (sites ++ sites') := by
  intro i site hsite
  by_cases hi : i < sites.length
  · rw [List.getElem?_append_left hi] at hsite
    obtain hroot | ⟨j, hj, enclosing, henclosing, hpath⟩ := h i site hsite
    · exact .inl hroot
    · refine .inr ⟨j, hj, enclosing, ?_, hpath⟩
      rw [List.getElem?_append_left (by omega)]
      exact henclosing
  · rw [List.getElem?_append_right (by omega)] at hsite
    obtain hroot | ⟨j, hj, enclosing, henclosing, hpath⟩ := h' _ site hsite
    · exact .inl hroot
    · refine .inr ⟨sites.length + j, by omega, enclosing, ?_, hpath⟩
      rw [List.getElem?_append_right (by omega), Nat.add_sub_cancel_left]
      exact henclosing

theorem ordered_below {first : JoinSite} {name : String} {sites : List JoinSite}
    (hfirst : first.path = [name]) (hpaths : ∀ site ∈ sites, site.path ≠ []) (h : Ordered sites) :
    Ordered (first :: sites.map (.below name)) := by
  intro i site hsite
  cases i with
  | zero =>
    cases hsite
    simp [hfirst]
  | succ i =>
    rw [List.getElem?_cons_succ, List.getElem?_map, Option.map_eq_some_iff] at hsite
    obtain ⟨inner, hinner, rfl⟩ := hsite
    have hne := hpaths inner (List.mem_of_getElem? hinner)
    have hup : (inner.below name).path.dropLast = name :: inner.path.dropLast :=
      List.dropLast_cons_of_ne_nil hne
    rw [hup]
    right
    obtain hroot | ⟨j, hj, enclosing, henclosing, hpath⟩ := h i inner hinner
    · exact ⟨0, by omega, first, rfl, by rw [hfirst, hroot]⟩
    · refine ⟨j + 1, by omega, enclosing.below name, ?_, ?_⟩
      · rw [List.getElem?_cons_succ, List.getElem?_map, henclosing]
        rfl
      · rw [← hpath]
        rfl

theorem ordered_nestedSites {entries : List (NestedProperty × RowMapper E)}
    (h : ∀ entry ∈ entries, Ordered entry.2.joinSites) : Ordered (nestedSites entries) := by
  induction entries with
  | nil =>
    intro i site hsite
    cases hsite
  | cons entry rest ih =>
    obtain ⟨property, mapper⟩ := entry
    rw [List.forall_mem_cons] at h
    unfold nestedSites
    cases property.join? with
    | none => exact ih h.2
    | some decl =>
      refine ordered_append ?_ (ih h.2)
      exact ordered_below rfl (fun _ => path_ne_nil) h.1

theorem ordered_joinSites (mapper : RowMapper E) : Ordered mapper.joinSites := by
  induction mapper using tree_induction with
  | node mapper ih =>
    cases mapper
    exact ordered_nestedSites ih

/-! ## Names without dots -/

/-- The names of nested properties in the tree of a mapper have no dots. -/
def PlainPaths (mapper : RowMapper E) : Prop :=
  ∀ path inner, Within mapper path inner → ∀ entry ∈ inner.nested, '.' ∉ entry.1.name.toList

/-- Neither have those of its columns, and each mapper tells its columns and its nested properties
apart by their names. -/
structure PlainColumns (mapper : RowMapper E) : Prop where
  plain : ∀ path inner, Within mapper path inner →
    ∀ column ∈ inner.metadata.columnNames, '.' ∉ column.toList
  columns : ∀ path inner, Within mapper path inner → inner.metadata.columnNames.Nodup
  nested : ∀ path inner, Within mapper path inner →
    (inner.nested.map fun entry => entry.1.name).Nodup

theorem PlainPaths.inner {mapper : RowMapper E} (h : mapper.PlainPaths)
    {entry : NestedProperty × RowMapper E} (hentry : entry ∈ mapper.nested) : entry.2.PlainPaths :=
  fun _ inner hwithin => h _ inner (.inside hentry hwithin)

theorem PlainColumns.inner {mapper : RowMapper E} (h : mapper.PlainColumns)
    {entry : NestedProperty × RowMapper E} (hentry : entry ∈ mapper.nested) :
    entry.2.PlainColumns where
  plain _ inner hwithin := h.plain _ inner (.inside hentry hwithin)
  columns _ inner hwithin := h.columns _ inner (.inside hentry hwithin)
  nested _ inner hwithin := h.nested _ inner (.inside hentry hwithin)

theorem plain_of_mem_joinSites (mapper : RowMapper E) (hplain : mapper.PlainPaths) :
    ∀ site ∈ mapper.joinSites, ∀ name ∈ site.path, '.' ∉ name.toList := by
  induction mapper using tree_induction with
  | node mapper ih =>
    intro site hsite name hname
    obtain ⟨entry, hentry, hpath | ⟨inner, hinner, rfl⟩⟩ := mem_joinSites hsite
    · rw [hpath, List.mem_singleton] at hname
      exact hname ▸ hplain [] mapper (.root mapper) entry hentry
    · obtain rfl | hname := List.mem_cons.1 hname
      · exact hplain [] mapper (.root mapper) entry hentry
      · exact ih entry hentry (hplain.inner hentry) inner hinner name hname

theorem plain_of_mem_lookups (mapper : RowMapper E) (hplain : mapper.PlainPaths)
    (hcolumns : mapper.PlainColumns) :
    ∀ lookup ∈ mapper.lookups, ∀ name ∈ lookup.parts, '.' ∉ name.toList := by
  induction mapper using tree_induction with
  | node mapper ih =>
    intro lookup hlookup name hname
    obtain ⟨property, hproperty, rfl⟩ | ⟨entry, hentry, inner, hinner, rfl⟩ :=
      mem_lookups.1 hlookup
    · rw [List.mem_singleton.1 hname]
      exact hcolumns.plain [] mapper (.root mapper) _ (List.mem_map_of_mem hproperty)
    · obtain rfl | hname := List.mem_cons.1 hname
      · exact hplain [] mapper (.root mapper) entry hentry
      · exact ih entry hentry (hplain.inner hentry) (hcolumns.inner hentry) inner hinner name hname

/-- Paths that start with different names are apart. -/
theorem nodup_flatMap_cons {α : Type} {xs : List α} {name : α → String}
    {paths : α → List (List String)} (hnames : (xs.map name).Nodup)
    (h : ∀ x ∈ xs, (paths x).Nodup) :
    (xs.flatMap fun x => (paths x).map (List.cons (name x))).Nodup := by
  rw [List.nodup_flatMap]
  refine ⟨fun x hx => (h x hx).map List.cons_injective, (List.pairwise_map.1 hnames).imp ?_⟩
  intro x y hne path hx hy
  obtain ⟨_, -, rfl⟩ := List.mem_map.1 hx
  obtain ⟨_, -, hsame⟩ := List.mem_map.1 hy
  exact hne (List.cons.inj hsame).1.symm

theorem parts_nestedLookups (entries : List (NestedProperty × RowMapper E)) :
    (nestedLookups entries).map Lookup.parts = entries.flatMap fun entry =>
      (entry.2.lookups.map Lookup.parts).map (List.cons entry.1.name) := by
  induction entries with
  | nil => rfl
  | cons entry rest ih =>
    unfold nestedLookups
    rw [List.map_append, ih, List.flatMap_cons, List.map_map, List.map_map]
    rfl

theorem nodup_lookups (mapper : RowMapper E) (hcolumns : mapper.PlainColumns) :
    (mapper.lookups.map Lookup.parts).Nodup := by
  induction mapper using tree_induction with
  | node mapper ih =>
    have hown := hcolumns.columns [] mapper (.root mapper)
    have hnested := nodup_flatMap_cons (hcolumns.nested [] mapper (.root mapper))
      fun entry hentry => ih entry hentry (hcolumns.inner hentry)
    rw [← parts_nestedLookups] at hnested
    obtain ⟨metadata, entries⟩ := mapper
    unfold lookups
    rw [List.map_append, List.map_map, List.nodup_append]
    refine ⟨hown.map ?_, hnested, ?_⟩
    · intro column column' hsame
      simpa [Lookup.parts, Lookup.own] using hsame
    · rintro parts hparts parts' hparts' rfl
      obtain ⟨column, -, rfl⟩ := List.mem_map.1 hparts
      obtain ⟨lookup, hlookup, hsame⟩ := List.mem_map.1 hparts'
      obtain ⟨entry, -, inner, -, rfl⟩ := mem_nestedLookups.1 hlookup
      simp [Lookup.parts, Lookup.own, Lookup.below] at hsame

theorem nodup_names (mapper : RowMapper E) (hplain : mapper.PlainPaths)
    (hcolumns : mapper.PlainColumns) : (mapper.lookups.map Lookup.name).Nodup := by
  have hnodup := nodup_lookups mapper hcolumns
  have hdots := plain_of_mem_lookups mapper hplain hcolumns
  have hmap : mapper.lookups.map Lookup.name =
      (mapper.lookups.map Lookup.parts).map ".".intercalate := by
    rw [List.map_map]
    rfl
  rw [hmap]
  refine List.Nodup.map_on ?_ hnodup
  intro parts hparts parts' hparts' hsame
  obtain ⟨lookup, hlookup, rfl⟩ := List.mem_map.1 hparts
  obtain ⟨lookup', hlookup', rfl⟩ := List.mem_map.1 hparts'
  exact Path.intercalate_injective (by simp [Lookup.parts]) (by simp [Lookup.parts])
    (hdots lookup hlookup) (hdots lookup' hlookup') hsame

/-! ## The rendered selection -/

theorem written_join_selected (mark : Char) (root : String) {site : JoinSite}
    (hpath : site.path ≠ []) :
    (site.join []).selected.map (Sql.written mark) =
      (site.lookups.map (selectedAt root)).map (SelectedColumn.text (Text.quote mark)) := by
  unfold Join.selected JoinSite.lookups
  rw [List.map_map, List.map_map, List.map_map]
  apply List.map_congr_left
  intro column _
  have hname : Path.column (".".intercalate site.path) column =
      ".".intercalate (site.path ++ [column]) := by
    rw [String.intercalate_append_of_ne_nil hpath (by simp), String.intercalate_singleton]
    rfl
  simp [JoinSite.join, Sql.qualified, SelectedColumn.text, selectedAt, sourceAt, hpath, hname,
    Lookup.name, Lookup.parts, String.append_assoc]

theorem written_join_sql (mark : Char) (root : String) {site : JoinSite} (hpath : site.path ≠ [])
    (hplain : ∀ name ∈ site.path, '.' ∉ name.toList) :
    Sql.written mark ((site.join []).sql root) =
      (joinedAt root site).text (Text.quote mark) := by
  have hparent : (site.join []).parent root = sourceAt root site.path.dropLast := by
    have hlast := hplain _ (List.getLast_mem hpath)
    have hup := Path.parent?_intercalate site.path.dropLast hlast
    rw [List.dropLast_concat_getLast hpath] at hup
    unfold Join.parent sourceAt
    rw [JoinSite.join, List.nil_append, hup]
    split <;> rfl
  unfold Join.sql
  rw [hparent]
  simp [JoinSite.join, joinedAt, Sql.qualified, JoinedTable.text, String.append_assoc]

theorem select_joins (mapper : RowMapper E) :
    mapper.select.joins = mapper.joinSites.map (JoinSite.join []) :=
  joins_eq mapper []

/-- Without columns of its own all of a root table is selected. -/
def wholeTable (quote : String → String) (select : Select) : List String :=
  if select.columns = [] then [quote select.table ++ ".*"] else []

theorem written_rootSelected (mark : Char) (select : Select) :
    select.rootSelected.map (Sql.written mark) = wholeTable (Text.quote mark) select ++
      ((select.columns.map Lookup.own).map (selectedAt select.table)).map
        (SelectedColumn.text (Text.quote mark)) := by
  unfold Select.rootSelected wholeTable
  split
  · next hnil => simp [hnil]
  · next hcolumns =>
    rw [if_neg hcolumns, List.nil_append, List.map_map, List.map_map, List.map_map]
    apply List.map_congr_left
    intro column _
    simp [Sql.qualified, SelectedColumn.text, selectedAt, sourceAt, Lookup.own, Lookup.name,
      Lookup.parts, String.append_assoc]

theorem written_selected (mark : Char) (mapper : RowMapper E) :
    (mapper.select.rootSelected ++ mapper.select.joins.flatMap Join.selected).map
      (Sql.written mark) = wholeTable (Text.quote mark) mapper.select ++
        mapper.outline.columns.map (SelectedColumn.text (Text.quote mark)) := by
  have hjoins : (mapper.select.joins.flatMap Join.selected).map (Sql.written mark) =
      ((mapper.joinSites.flatMap JoinSite.lookups).map (selectedAt mapper.metadata.table)).map
        (SelectedColumn.text (Text.quote mark)) := by
    rw [select_joins, List.flatMap_map, List.map_flatMap, List.map_flatMap, List.map_flatMap]
    apply List.flatMap_congr
    intro site hsite
    exact written_join_selected mark _ (path_ne_nil hsite)
  unfold outline
  rw [List.map_append, written_rootSelected mark, hjoins, joined_lookups, List.map_append,
    List.map_append, List.append_assoc]
  rfl

theorem written_fromSql (mark : Char) {mapper : RowMapper E} (hplain : mapper.PlainPaths) :
    Sql.written mark mapper.select.fromSql = "SELECT " ++
      ", ".intercalate (wholeTable (Text.quote mark) mapper.select ++
        mapper.outline.columns.map (SelectedColumn.text (Text.quote mark))) ++
      mapper.outline.fromText (Text.quote mark) := by
  have hjoins : (mapper.select.joins.map fun join =>
      Sql.written mark (join.sql mapper.select.table)) =
        mapper.outline.joined.map (JoinedTable.text (Text.quote mark)) := by
    have htable : mapper.select.table = mapper.metadata.table := rfl
    unfold outline
    rw [select_joins, List.map_map, List.map_map, htable]
    apply List.map_congr_left
    intro site hsite
    rw [Function.comp, Function.comp]
    exact written_join_sql mark _ (path_ne_nil hsite) (plain_of_mem_joinSites mapper hplain site hsite)
  unfold Select.fromSql Outline.fromText
  rw [List.cons_append, List.cons_append, Sql.written_text, Sql.written_append, Sql.written_append,
    Sql.written_separated, written_selected mark, Sql.written_flatMap, hjoins]
  simp [outline, select, Select.ofTable, String.append_assoc]

/-- Whatever its columns, the tables of a mapper's selection are those of its outline. -/
theorem render_select_tables {mapper : RowMapper E} (hplain : mapper.PlainPaths) (chain : Chain) :
    mapper.select.render chain = .ok ⟨"SELECT " ++
      ", ".intercalate (wholeTable chain.quote mapper.select ++
        mapper.outline.columns.map (SelectedColumn.text chain.quote)) ++
      mapper.outline.fromText chain.quote, []⟩ chain := by
  have htext := written_fromSql chain.head.dialect.quoteMark hplain
  have hrender : mapper.select.render chain = .ok ⟨Sql.written chain.head.dialect.quoteMark
      (mapper.select.fromSql ++ [] ++ []), []⟩ chain := rfl
  rw [hrender, List.append_nil, List.append_nil, htext]
  rfl

theorem render_select {mapper : RowMapper E} (hsimple : mapper.metadata.simple ≠ [])
    (hplain : mapper.PlainPaths) (chain : Chain) :
    mapper.select.render chain = .ok ⟨mapper.outline.text chain.quote, []⟩ chain := by
  have hcolumns : mapper.select.columns ≠ [] := by simpa [select, EntityMetadata.columnNames]
  rw [render_select_tables hplain chain, wholeTable, if_neg hcolumns]
  simp [Outline.text, Outline.fromText, String.append_assoc]

/-- Each joined table hangs off the root table or off a table that has been joined before it. -/
theorem joined_hangs {mapper : RowMapper E} {i : Nat} {joined : JoinedTable}
    (h : mapper.outline.joined[i]? = some joined) :
    ∃ site, mapper.joinSites[i]? = some site ∧ joined.name = ".".intercalate site.path ∧
      (site.path.length = 1 ∧ joined.left = mapper.metadata.table ∨
        ∃ j < i, ∃ enclosing, mapper.joinSites[j]? = some enclosing ∧
          enclosing.path = site.path.dropLast ∧ joined.left = ".".intercalate enclosing.path) := by
  unfold outline at h
  rw [List.getElem?_map, Option.map_eq_some_iff] at h
  obtain ⟨site, hsite, rfl⟩ := h
  refine ⟨site, hsite, rfl, ?_⟩
  have hpath := path_ne_nil (List.mem_of_getElem? hsite)
  by_cases hroot : site.path.dropLast = []
  · left
    have hlength := congrArg List.length hroot
    have hpos := List.length_pos_iff.2 hpath
    rw [List.length_dropLast, List.length_nil] at hlength
    exact ⟨by omega, by simp [joinedAt, sourceAt, hroot]⟩
  · right
    obtain hnil | ⟨j, hj, enclosing, henclosing, hup⟩ := ordered_joinSites mapper i site hsite
    · exact absurd hnil hroot
    · exact ⟨j, hj, enclosing, henclosing, hup, by simp [joinedAt, sourceAt, hroot, hup]⟩

/-- Each column is one of the root table or of a joined table. -/
theorem source_joined {mapper : RowMapper E} {column : SelectedColumn}
    (h : column ∈ mapper.outline.columns) : column.source = mapper.metadata.table ∨
      ∃ joined ∈ mapper.outline.joined, column.source = joined.name := by
  unfold outline at h ⊢
  rw [joined_lookups] at h
  obtain ⟨lookup, hlookup, rfl⟩ := List.mem_map.1 h
  obtain hown | hjoined := List.mem_append.1 hlookup
  · obtain ⟨name, -, rfl⟩ := List.mem_map.1 hown
    exact .inl rfl
  · obtain ⟨site, hsite, hlookup⟩ := List.mem_flatMap.1 hjoined
    obtain ⟨name, -, rfl⟩ := List.mem_map.1 hlookup
    refine .inr ⟨joinedAt mapper.metadata.table site, List.mem_map_of_mem hsite, ?_⟩
    simp [selectedAt, sourceAt, joinedAt, path_ne_nil hsite]

/-! ## What is read -/

/-- A mapping takes a property of the object at the path of a lookup from that lookup. -/
structure Reads (mapper : RowMapper E) (lookup : Lookup) (inner : RowMapper E)
    (property : SimpleProperty) : Prop where
  /-- A cell that the property refuses is an error of the row. -/
  refused : ∀ (view : RowView) (cell : Value) (cause : MappingError),
    view.cell? lookup.name = some cell → property.Refuses cell cause →
      ∃ e, mapper.mapRow view = .error e
  /-- A cell that it takes brings the object into being, which holds what it has been taken for
  unless another property stores something in the same slot. -/
  stored : ∀ (view : RowView) (cell : Value) (object : Instance),
    view.cell? lookup.name = some cell → mapper.mapRow view = .ok object → mapper.NestsApart →
      ∃ found, Located mapper object lookup.path inner found ∧
        ((∀ other ∈ inner.metadata.simple, other.slot = property.slot → other = property) →
          property.fromCell cell = .ok (found.column property.slot))

theorem reads_of_within {mapper inner : RowMapper E} {lookup : Lookup} {property : SimpleProperty}
    (hwithin : Within mapper lookup.path inner) (hproperty : property ∈ inner.metadata.simple)
    (hcolumn : property.column = lookup.column) : mapper.Reads lookup inner property := by
  have hname : lookup.name = ".".intercalate (lookup.path ++ [property.column]) := by
    rw [hcolumn]
    rfl
  constructor
  case refused =>
    intro view cell cause hcell hrefuses
    have hreading : (⟨lookup.path, inner.metadata.typeName, property⟩ : Reading) ∈ mapper.readings :=
      mapper.mem_readings.2 ⟨inner, hwithin, hproperty, rfl⟩
    rw [hname] at hcell
    obtain ⟨e, he⟩ := findSome?_fault?_isSome.2 ⟨_, hreading, cell, cause, hcell, hrefuses⟩
    exact ⟨e, ((mapper.failsWith_mapRow view).error_iff e).2 he⟩
  case stored =>
    intro view cell object hcell h hapart
    rw [hname, ← RowView.cell?_below] at hcell
    have hfinds : inner.FindsCell (view.below lookup.path) := by
      refine ⟨.own property.column, mem_lookups.2 (.inl ⟨property, hproperty, rfl⟩), ?_⟩
      rw [Lookup.name_own, hcell]
      exact Option.some_ne_none cell
    obtain ⟨root, hroot, rfl⟩ := mapRow_ok h
    obtain ⟨found, hlocated⟩ := hwithin.exists_located hapart hroot (.inr hfinds)
    obtain ⟨result, hresult, rfl⟩ := hlocated.mapped hapart hroot rfl (.inr hfinds)
    exact ⟨_, hlocated, fun halone => fromCell_of_mapView hresult hproperty halone hcell⟩

/-- The rendered selection has one column for each lookup whose nested properties declare joins,
in the order of the lookups and under the name that is looked up; the joins have their paths as
aliases and hang off one another as the nested properties do; and the object of a row depends on its
lookups, on each of them, as a property at its path is taken from it, and on nothing else. Without
dots in the names of columns no two columns come out under one name. -/
theorem selection_of_lookups {mapper : RowMapper E} (hsimple : mapper.metadata.simple ≠ [])
    (hplain : mapper.PlainPaths) :
    (∀ chain, mapper.select.render chain = .ok ⟨mapper.outline.text chain.quote, []⟩ chain) ∧
    mapper.outline.columns.map SelectedColumn.name =
      (mapper.lookups.filter Lookup.joined).map Lookup.name ∧
    (∀ column ∈ mapper.outline.columns, column.source = mapper.metadata.table ∨
      ∃ joined ∈ mapper.outline.joined, column.source = joined.name) ∧
    (∀ (i : Nat) (joined : JoinedTable), mapper.outline.joined[i]? = some joined →
      ∃ site, mapper.joinSites[i]? = some site ∧ joined.name = ".".intercalate site.path ∧
        (site.path.length = 1 ∧ joined.left = mapper.metadata.table ∨
          ∃ j < i, ∃ enclosing, mapper.joinSites[j]? = some enclosing ∧
            enclosing.path = site.path.dropLast ∧
            joined.left = ".".intercalate enclosing.path)) ∧
    (∀ view view' : RowView, (∀ lookup ∈ mapper.lookups, view lookup.name = view' lookup.name) →
      mapper.mapRow view = mapper.mapRow view') ∧
    (∀ view : RowView, ∀ lookup ∈ mapper.lookups, view.cell? lookup.name ≠ none →
      mapper.mapView view ≠ .ok none) ∧
    (∀ lookup ∈ mapper.lookups, ∃ inner, Within mapper lookup.path inner ∧
      ∃ property ∈ inner.metadata.simple, property.column = lookup.column ∧
        mapper.Reads lookup inner property) ∧
    (mapper.PlainColumns → (mapper.outline.columns.map SelectedColumn.name).Nodup) := by
  have hnames : mapper.outline.columns.map SelectedColumn.name =
      (mapper.lookups.filter Lookup.joined).map Lookup.name := by
    unfold outline
    rw [List.map_map]
    rfl
  refine ⟨render_select hsimple hplain, hnames, fun _ => source_joined, fun _ _ => joined_hangs,
    ?_, ?_, ?_, ?_⟩
  · intro view view' hagree
    unfold mapRow
    rw [mapView_congr mapper hagree]
  · intro view lookup hlookup hcell hnone
    exact hcell ((eq_none_of_mapView mapper hnone).1 rfl lookup hlookup)
  · intro lookup hlookup
    obtain ⟨inner, hwithin, property, hproperty, hcolumn⟩ := mapper.within_of_mem_lookups hlookup
    exact ⟨inner, hwithin, property, hproperty, hcolumn, reads_of_within hwithin hproperty hcolumn⟩
  · intro hcolumns
    rw [hnames]
    exact (nodup_names mapper hplain hcolumns).sublist (List.filter_sublist.map Lookup.name)

/-! ## The selection of users -/

namespace Users

theorem plainPaths_user : user.PlainPaths := by
  intro path inner h
  obtain rfl | rfl | rfl | rfl := within_user h <;> decide

theorem plainColumns_user : user.PlainColumns := by
  constructor <;> intro path inner h <;>
    obtain rfl | rfl | rfl | rfl := within_user h <;> decide

end Users

theorem selection_of_lookups_user :
    Users.user.outline.columns.map SelectedColumn.name = ["name", "group.name", "group.owner.name"] ∧
    Users.user.outline.joined.map JoinedTable.left = ["users", "group"] ∧
    Users.user.select.render Chain.standard =
      .ok ⟨Users.user.outline.text Chain.standard.quote, []⟩ Chain.standard ∧
    (Users.user.outline.columns.map SelectedColumn.name).Nodup := by
  obtain ⟨hrender, -, -, -, -, -, -, hnodup⟩ :=
    selection_of_lookups (by decide) Users.plainPaths_user
  exact ⟨by decide, by decide, hrender Chain.standard, hnodup Users.plainColumns_user⟩

end RowMapper

end ObjectRelational
