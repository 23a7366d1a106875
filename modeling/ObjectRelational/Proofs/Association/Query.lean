import Mathlib.Data.List.Nodup
import ObjectRelational.Proofs.Association.Return
import ObjectRelational.Proofs.Association.Traffic
import ObjectRelational.Proofs.Query.Parameters

/-! # What the query of a load asks for

The query of a load selects children by the identifiers of the parents: by the first identifier of
each key, in the form that the converter of the foreign key writes. It always selects the column of
the foreign key, whatever properties the association fetches.

* `firstOfKeys`: values without those whose key has come before;
* `Select.listed`: the columns that a selection lists;
* `listed_foreignKey`: among those of a load there is the foreign key's column, once;
* `Queried`: the query of a load for some parents;
* `query_of_load`: whenever a load sends a query, it is this one.
-/

namespace ObjectRelational

set_option autoImplicit false

/-! ## The text of a selection -/

namespace Select

/-- The columns that a selection lists, if it names those of its root table. -/
def listed (select : Select) : List SelectedColumn :=
  (select.columns.map fun column => ⟨select.table, column, column⟩) ++
    select.joins.flatMap fun join =>
      join.columns.map fun column => ⟨join.path, column, Path.column join.path column⟩

/-- The text of a selection up to its joins, if it names the columns of its root table. -/
def text (mark : Char) (select : Select) : String :=
  "SELECT " ++ ", ".intercalate (select.listed.map (SelectedColumn.text (Text.quote mark))) ++
    " FROM " ++ Text.quote mark select.table ++
    Sql.written mark (select.joins.flatMap fun join => join.sql select.table)

theorem written_listed (mark : Char) {select : Select} (h : select.columns ≠ []) :
    (select.rootSelected ++ select.joins.flatMap Join.selected).map (Sql.written mark) =
      select.listed.map (SelectedColumn.text (Text.quote mark)) := by
  have hroot : (select.columns.map Lookup.own).map (RowMapper.selectedAt select.table) =
      select.columns.map fun column => ⟨select.table, column, column⟩ := by
    simp [Function.comp_def, RowMapper.selectedAt, RowMapper.sourceAt, Lookup.own, Lookup.name,
      Lookup.parts]
  unfold listed Join.selected
  rw [List.map_append, List.map_append, RowMapper.written_rootSelected mark, RowMapper.wholeTable,
    if_neg h, List.nil_append, hroot, List.map_flatMap, List.map_flatMap]
  simp [Function.comp_def, Sql.qualified, SelectedColumn.text, String.append_assoc]

theorem written_text (mark : Char) {select : Select} (h : select.columns ≠ []) :
    Sql.written mark select.fromSql = select.text mark := by
  unfold fromSql text
  rw [List.cons_append, List.cons_append, Sql.written_text, Sql.written_append, Sql.written_append,
    Sql.written_separated, written_listed mark h]
  simp [String.append_assoc]

end Select

namespace Condition

/-- Membership of a column in a list of placeholders; without any it is never true. -/
def membershipText (quote : String → String) (table column : String)
    (placeholders : List String) : String :=
  if placeholders = [] then "1 = 0"
  else quote table ++ "." ++ quote column ++ " IN (" ++ ", ".intercalate placeholders ++ ")"

theorem written_oneOf {table column : String} {writer : Converter} {taken : Nat}
    {items : List Value} {sql : Sql} {parameters : List Parameter} (mark : Char)
    (h : testSql (Sql.qualified table column) (some writer) taken (.oneOf items) =
      .ok (sql, parameters)) :
    Sql.written mark sql = membershipText (Text.quote mark) table column
      (parameters.map fun parameter => writer.placeholder parameter.name) := by
  by_cases hne : items = []
  · subst hne
    cases h
    rfl
  · rw [testSql_oneOf _ _ _ hne] at h
    obtain ⟨bound, hbound, hpair⟩ := Composite.map_eq_ok h
    cases hpair
    have hentries := (bindItems_bound hbound).1
    have hplaceholders : bound.map Prod.fst =
        (bound.map Prod.snd).map fun parameter => writer.placeholder parameter.name := by
      rw [List.map_map]
      apply List.map_congr_left
      intro entry hentry
      obtain ⟨item, -, hitem⟩ := Association.exists_left_of_forall₂ hentries entry hentry
      obtain ⟨value, -, hvalue⟩ := except_bind_ok hitem
      exact congrArg Prod.fst (Except.ok.inj hvalue).symm
    have hsome : bound.map Prod.fst ≠ [] := by
      rw [Ne, ← List.length_eq_zero_iff, List.length_map, ← hentries.length_eq]
      exact mt List.length_eq_zero_iff.1 hne
    rw [← hplaceholders, membershipText, if_neg hsome, Sql.written_append, Sql.written_append,
      Sql.written_text, Sql.written_separated]
    simp [Sql.qualified, Function.comp_def, String.append_assoc]

end Condition

/-- The chain that has given a converter gives it again. -/
theorem Chain.converterFor_again {chain chain' : Chain} {token : TypeToken} {converter : Converter}
    (h : chain.converterFor token = (.ok converter, chain')) :
    (chain'.converterFor token).1 = .ok converter := by
  have tell : NamesTell (· = token) := fun _ _ h h' _ => h.trans h'.symm
  have hremembers := chain.remembers_resolve tell rfl
  rw [← converterFor_chain, h] at hremembers
  rw [converterFor_of_remembers tell hremembers rfl, h]

/-- A selection of some columns by a list alone. -/
theorem Select.render_membership {select : Select} {column : String} {items : List Value}
    {token : TypeToken} {chain chain' : Chain} {statement : Statement}
    (hconditions : select.conditions = []) (htail : select.tailSql = [])
    (hcolumns : select.columns ≠ [])
    (h : (select.filter ((Condition.oneOf column items).withType token)).render chain =
      .ok statement chain') :
    ∃ writer, (chain'.converterFor token).1 = .ok writer ∧
      List.Forall₂ (fun item parameter => writer.write item = .ok parameter.value) items
        statement.parameters ∧
      statement.sql = select.text chain'.head.dialect.quoteMark ++ " WHERE " ++
        Condition.membershipText chain'.quote select.table column
          (statement.parameters.map fun parameter => writer.placeholder parameter.name) := by
  obtain ⟨sql, hcondition, hsql⟩ := render_single hconditions h
  obtain ⟨found, ⟨writer, rfl, hfound⟩, htest⟩ := Condition.render_ok hcondition
  have hpredicate := Condition.written_oneOf chain'.head.dialect.quoteMark htest
  refine ⟨writer, Chain.converterFor_again hfound, Condition.testSql_oneOf_ok htest, ?_⟩
  rw [htail, List.append_nil] at hsql
  change statement.sql = Sql.written chain'.head.dialect.quoteMark _ at hsql
  rw [hsql, Sql.written_append, Sql.written_text, hpredicate, written_text _ hcolumns,
    String.append_assoc]
  rfl

/-! ## The listed columns -/

namespace AssociationDescriptor

/-- The foreign key is among the properties to fetch, once if none of them is repeated. -/
theorem fetchProperties_of_key {descriptor : AssociationDescriptor} {key : String}
    (hkey : descriptor.foreignKey? = some key) :
    descriptor.fetchProperties = none ∨
      ∃ names, descriptor.fetchProperties = some names ∧ key ∈ names ∧
        (descriptor.columns.Nodup → names.Nodup) := by
  unfold fetchProperties
  rw [hkey]
  by_cases hall : descriptor.columns = []
  · exact .inl (if_pos hall)
  · right
    simp only [if_neg hall]
    by_cases hmem : key ∈ descriptor.columns
    · exact ⟨descriptor.columns, if_pos hmem, hmem, id⟩
    · refine ⟨descriptor.columns ++ [key], if_neg hmem, by simp, fun hnodup => ?_⟩
      exact hnodup.append (List.nodup_singleton key) (by simpa using hmem)

end AssociationDescriptor

namespace RowMapper

variable {E : Type}

theorem name_of_simpleProperty? {metadata : EntityMetadata E} {name : String}
    {property : SimpleProperty} (h : metadata.simpleProperty? name = some property) :
    property.name = name := by
  unfold EntityMetadata.simpleProperty? at h
  simpa using List.find?_some h

theorem columnsOf_ok {metadata : EntityMetadata E} {names columns : List String}
    (h : columnsOf metadata names = .ok columns) :
    ∃ properties, List.Forall₂ (fun name property => metadata.simpleProperty? name = some property)
        names properties ∧ columns = properties.map SimpleProperty.column := by
  induction names generalizing columns with
  | nil =>
    cases h
    exact ⟨[], .nil, rfl⟩
  | cons name rest ih =>
    unfold columnsOf at h
    cases hfound : metadata.simpleProperty? name with
    | none =>
      rw [hfound] at h
      cases h
    | some property =>
      simp only [hfound] at h
      obtain ⟨others, hrest, hpure⟩ := except_bind_ok h
      cases hpure
      obtain ⟨properties, hproperties, rfl⟩ := ih hrest
      exact ⟨property :: properties, .cons hfound hproperties, rfl⟩

/-- Properties of different names have different columns, if no column is declared twice. -/
theorem nodup_columnsOf {metadata : EntityMetadata E} (hcolumns : metadata.columnNames.Nodup)
    {names columns : List String} (hnames : names.Nodup)
    (h : columnsOf metadata names = .ok columns) : columns.Nodup := by
  obtain ⟨properties, hproperties, rfl⟩ := columnsOf_ok h
  have hsame : properties.map SimpleProperty.name = names := by
    clear hnames h
    induction hproperties with
    | nil => rfl
    | cons hfirst hrest ih =>
      rw [List.map_cons, ih, name_of_simpleProperty? hfirst]
  have hsimple : ∀ property ∈ properties, property ∈ metadata.simple := by
    intro property hproperty
    obtain ⟨name, -, hfound⟩ :=
      Association.exists_left_of_forall₂ hproperties property hproperty
    exact List.mem_of_find?_eq_some hfound
  refine List.Nodup.map_on ?_ (List.Nodup.of_map SimpleProperty.name (hsame ▸ hnames))
  intro property hproperty other hother heq
  exact List.inj_on_of_nodup_map hcolumns (hsimple property hproperty) (hsimple other hother) heq

theorem mem_columnsOf {metadata : EntityMetadata E} {names columns : List String} {name : String}
    {property : SimpleProperty} (h : columnsOf metadata names = .ok columns) (hmem : name ∈ names)
    (hfound : metadata.simpleProperty? name = some property) : property.column ∈ columns := by
  obtain ⟨properties, hproperties, rfl⟩ := columnsOf_ok h
  obtain ⟨other, hother, hsame⟩ := Association.exists_left_of_forall₂ hproperties.flip name hmem
  cases hsame.symm.trans hfound
  exact List.mem_map_of_mem hother

end RowMapper

/-- Names below a path are no names of columns without dots. -/
theorem Select.filter_listed {select : Select} {column : String} (hmem : column ∈ select.columns)
    (hnodup : select.columns.Nodup) (hdot : '.' ∉ column.toList) :
    select.listed.filter (fun listed => listed.name = column) =
      [⟨select.table, column, column⟩] := by
  have hown : (select.columns.map fun name => (⟨select.table, name, name⟩ : SelectedColumn)).filter
      (fun listed => listed.name = column) = [⟨select.table, column, column⟩] := by
    have hcount := List.count_eq_one_of_mem hnodup hmem
    rw [List.filter_map, Function.comp_def, List.filter_eq, hcount]
    rfl
  have hjoined : (select.joins.flatMap fun join => join.columns.map fun name =>
      (⟨join.path, name, Path.column join.path name⟩ : SelectedColumn)).filter
        (fun listed => listed.name = column) = [] := by
    rw [List.filter_eq_nil_iff]
    intro listed hlisted hname
    obtain ⟨join, -, hlisted⟩ := List.mem_flatMap.1 hlisted
    obtain ⟨name, -, rfl⟩ := List.mem_map.1 hlisted
    rw [← of_decide_eq_true hname] at hdot
    simp [Path.column] at hdot
  rw [listed, List.filter_append, hown, hjoined, List.append_nil]

namespace Association

open Session

variable {E C : Type}

/-- A load selects columns of the child's table, the foreign key's among them. -/
theorem childSelect_ok {schema : Schema E} {association : AssociationDecl E}
    {childMapper : RowMapper E} {select : Select} {name : String} {key : SimpleProperty}
    (hname : association.foreignKey? = some name)
    (hkey : childMapper.metadata.simpleProperty? name = some key)
    (h : childSelect schema association childMapper = .ok select) :
    select.table = childMapper.metadata.table ∧ select.tailSql = [] ∧
      key.column ∈ select.columns ∧
      (childMapper.metadata.columnNames.Nodup → association.columns.Nodup →
        select.columns.Nodup) := by
  have hdescribed : (association.descriptor schema).foreignKey? = some name := hname
  unfold childSelect at h
  obtain hall | ⟨names, hnames, hmem, hnodup⟩ :=
    AssociationDescriptor.fetchProperties_of_key hdescribed
  · rw [hall] at h
    cases h
    exact ⟨rfl, rfl, List.mem_map_of_mem (List.mem_of_find?_eq_some hkey), fun hcolumns _ => hcolumns⟩
  · rw [hnames] at h
    obtain ⟨columns, hcolumnsOf, hpure⟩ := except_bind_ok h
    cases hpure
    exact ⟨rfl, rfl, RowMapper.mem_columnsOf hcolumnsOf hmem hkey, fun hcolumns hrestricted =>
      RowMapper.nodup_columnsOf hcolumns (hnodup hrestricted) hcolumnsOf⟩

/-! ## The first identifiers -/

/-- The first value of each key, in order. -/
def firstOfKeys : List Value → List Value
  | [] => []
  | value :: rest => value :: (firstOfKeys rest).filter fun other => other.key ≠ value.key

/-- The identifiers of more parents are entered unless their keys are known. -/
theorem Owners.ids_addAll {id : SimpleProperty} {parents : List Instance} :
    ∀ {place : Nat} {owners owners' : Owners} {before : List Instance}, owners.Lists id before →
      addAll id place owners parents = .ok owners' →
      ∃ values, List.Forall₂ (fun parent value => id.get parent = .ok value) parents values ∧
        owners'.ids = owners.ids ++ (firstOfKeys (values.filter fun value => !value.isNull)).filter
          fun value => value.key ∉ owners.ids.map Value.key := by
  induction parents with
  | nil =>
    intro place owners owners' before hlists h
    cases h
    exact ⟨[], .nil, by simp [firstOfKeys]⟩
  | cons parent rest ih =>
    intro place owners owners' before hlists h
    obtain ⟨value, hvalue, hrest⟩ := except_bind_ok h
    obtain ⟨values, hvalues, hids⟩ := ih (lists_add hlists place hvalue) hrest
    refine ⟨value :: values, .cons hvalue hvalues, ?_⟩
    rw [hids]
    cases hnull : value.isNull with
    | true => simp [add, hnull]
    | false =>
      have hfirst : firstOfKeys ((value :: values).filter fun value => !value.isNull) =
          value :: (firstOfKeys (values.filter fun value => !value.isNull)).filter
            fun other => other.key ≠ value.key := by
        rw [List.filter_cons_of_pos (by simp [hnull]), firstOfKeys]
      rw [hfirst]
      by_cases hknown : value.key ∈ owners.ids.map Value.key
      · have hplaces : owners.placesOf value.key ≠ [] := fun h => (hlists.entered _).1 h hknown
        have hadd : (owners.add place value).ids = owners.ids := by simp [add, hnull, hplaces]
        rw [hadd, List.filter_cons_of_neg (by simpa using hknown), List.filter_filter]
        congr 1
        apply List.filter_congr
        intro other _
        -- A key that is not known is not the key of this value.
        have hother : other.key ∉ owners.ids.map Value.key → other.key ≠ value.key :=
          fun hnew hsame => hnew (hsame ▸ hknown)
        simpa using hother
      · have hplaces : owners.placesOf value.key = [] := (hlists.entered _).2 hknown
        have hadd : (owners.add place value).ids = owners.ids ++ [value] := by
          simp [add, hnull, hplaces]
        rw [hadd, List.filter_cons_of_pos (by simpa using hknown), List.filter_filter,
          List.append_assoc, List.singleton_append]
        congr 2
        apply List.filter_congr
        intro other _
        simp

theorem Owners.ids_ofParents {id : SimpleProperty} {parents : List Instance} {owners : Owners}
    (h : ofParents id parents = .ok owners) :
    ∃ values, List.Forall₂ (fun parent value => id.get parent = .ok value) parents values ∧
      owners.ids = firstOfKeys (values.filter fun value => !value.isNull) := by
  obtain ⟨values, hvalues, hids⟩ := ids_addAll (lists_empty id) h
  exact ⟨values, hvalues, by simpa [empty] using hids⟩

/-! ## The query -/

variable [DecidableEq E]

/-- The statement of a plan is that of the child's selection by the entered identifiers. -/
theorem rendered_of_plan {entity : E} {association : AssociationDecl E} {parents : List Instance}
    {planned : Plan E} {session session' : Session E C}
    (h : plan entity association parents session = .ok planned session') :
    ∃ select chain, childSelect session.schema association planned.childMapper = .ok select ∧
      (select.filter ((Condition.oneOf planned.foreignKey.column planned.owners.ids).withType
        planned.foreignKey.type.token)).render chain =
          .ok planned.statement session'.cache.chain := by
  obtain ⟨u, s₁, hrequired, h₁⟩ := bind_ok h
  obtain ⟨mapper, s₂, hmapper, h₂⟩ := bind_ok h₁
  obtain ⟨childMapper, s₃, hchild, h₃⟩ := bind_ok h₂
  obtain ⟨found, s₄, hget, h₄⟩ := bind_ok h₃
  cases hget
  obtain ⟨key, s₅, -, h₅⟩ := bind_ok h₄
  obtain ⟨id, s₆, -, h₆⟩ := bind_ok h₅
  obtain ⟨select, s₇, hselect, h₇⟩ := bind_ok h₆
  obtain ⟨owners, s₈, -, h₈⟩ := bind_ok h₇
  obtain ⟨statement, s₉, hstatement, h₉⟩ := bind_ok h₈
  cases h₉
  have hschema : s₃.schema = session.schema :=
    ((((respects_requireRegistered keeps_frame _).of_ok hrequired).trans
      ((keeps_mapper _).of_ok hmapper)).trans ((keeps_mapper _).of_ok hchild)).schema
  refine ⟨select, s₈.cache.chain, hschema ▸ (configured_ok hselect).1, ?_⟩
  unfold Session.rendering at hstatement
  split at hstatement <;> cases hstatement
  assumption

/-- The query of a load for some parents, with the values of their identifiers, the converter that
writes the bound ones, and the selection that it is made of. -/
structure Queried (schema : Schema E) (chain : Chain) (association : AssociationDecl E)
    (childMapper : RowMapper E) (id foreignKey : SimpleProperty) (parents : List Instance)
    (values : List Value) (writer : Converter) (select : Select) (statement : Statement) : Prop where
  identified : List.Forall₂ (fun parent value => id.get parent = .ok value) parents values
  converter : (chain.converterFor foreignKey.type.token).1 = .ok writer
  bound : List.Forall₂ (fun value parameter => writer.write value = .ok parameter.value)
    (firstOfKeys (values.filter fun value => !value.isNull)) statement.parameters
  selected : childSelect schema association childMapper = .ok select
  table : select.table = childMapper.metadata.table
  sql : statement.sql = select.text chain.head.dialect.quoteMark ++ " WHERE " ++
    Condition.membershipText chain.quote select.table foreignKey.column
      (statement.parameters.map fun parameter => writer.placeholder parameter.name)
  nothing : (∀ value ∈ values, value.isNull = true) → statement.parameters = [] ∧
    statement.sql = select.text chain.head.dialect.quoteMark ++ " WHERE 1 = 0"
  listed : childMapper.metadata.columnNames.Nodup → '.' ∉ foreignKey.column.toList →
    association.columns.Nodup →
    select.listed.filter (fun listed => listed.name = foreignKey.column) =
      [⟨select.table, foreignKey.column, foreignKey.column⟩]
  read : (∀ other ∈ childMapper.metadata.simple, other.slot = foreignKey.slot →
      other = foreignKey) →
    ∀ view child cell, childMapper.mapRow view = .ok child →
      view.cell? foreignKey.column = some cell →
        foreignKey.fromCell cell = .ok (child.column foreignKey.slot)

theorem queried_of_plan {entity : E} {association : AssociationDecl E} {parents : List Instance}
    {planned : Plan E} {id : SimpleProperty} {name : String} {session session' : Session E C}
    (h : plan entity association parents session = .ok planned session')
    (hname : association.foreignKey? = some name)
    (hkey : planned.childMapper.metadata.simpleProperty? name = some planned.foreignKey)
    (howners : Owners.ofParents id parents = .ok planned.owners) :
    ∃ values writer select,
      Queried session.schema session'.cache.chain association planned.childMapper id
        planned.foreignKey parents values writer select planned.statement := by
  obtain ⟨values, hvalues, hids⟩ := Owners.ids_ofParents howners
  obtain ⟨select, chain, hselect, hrender⟩ := rendered_of_plan h
  obtain ⟨htable, htail, hcolumn, hnodup⟩ := childSelect_ok hname hkey hselect
  obtain ⟨writer, hwriter, hbound, hsql⟩ := Select.render_membership
    (childSelect_conditions hselect) htail (List.ne_nil_of_mem hcolumn) hrender
  rw [hids] at hbound
  refine ⟨values, writer, select, hvalues, hwriter, hbound, hselect, htable, hsql, ?nothing,
    ?listed, ?read⟩
  case nothing =>
    intro hnull
    have hnone : values.filter (fun value => !value.isNull) = [] := by
      simpa [List.filter_eq_nil_iff] using hnull
    rw [hnone] at hbound
    have hparameters : planned.statement.parameters = [] := List.forall₂_nil_left_iff.1 hbound
    refine ⟨hparameters, ?_⟩
    rw [hsql, hparameters, String.append_assoc]
    rfl
  case listed =>
    exact fun hcolumns hdot hrestricted =>
      Select.filter_listed hcolumn (hnodup hcolumns hrestricted) hdot
  case read =>
    intro halone view child cell hchild hcell
    exact RowMapper.fromCell_of_mapRow hchild (List.mem_of_find?_eq_some hkey) halone hcell

/-- The query of a load, by the metadata that it has found. -/
def Sends (session : Session E C) (cache : MetadataCache E) (entity : E) (name : String)
    (parents : List Instance) (statement : Statement) : Prop :=
  ∃ association childMapper id foreignKey values writer select,
    Wired cache entity name association childMapper id foreignKey ∧
    Queried session.schema cache.chain association childMapper id foreignKey parents values writer
      select statement ∧
    (session.cache.Describes session.schema →
      (session.schema.declaration entity).associations.find? (·.property = name) =
          some association ∧
        childMapper.metadata.table = (session.schema.declaration association.child).table)

theorem sends_of_plan {entity : E} {name : String} {parents : List Instance}
    {association : AssociationDecl E} {planned : Plan E} {session session₁ session₂ : Session E C}
    (hbegin : begin entity name parents session = .ok association session₁)
    (hplan : plan entity association parents session₁ = .ok planned session₂) :
    Sends session session₂.cache entity name parents planned.statement := by
  obtain ⟨hdescribed, id, hwired, howners⟩ := ready_of_plan hbegin hplan
  obtain ⟨rfl, -⟩ := plan_ok hplan
  obtain ⟨key, hname, hkey⟩ := hwired.key
  obtain ⟨values, writer, select, hqueried⟩ := queried_of_plan hplan hname hkey howners
  rw [((keeps_begin _ _ _).of_ok hbegin).schema] at hqueried
  refine ⟨_, _, id, _, values, writer, select, hwired, hqueried, fun hd => ⟨?_, ?_⟩⟩
  · obtain ⟨mapper, hmapper, hfound, -⟩ := hwired.parent
    obtain ⟨simple, nested, rfl⟩ := hdescribed hd entity mapper hmapper
    exact hfound
  · obtain ⟨simple, nested, hchild⟩ := hdescribed hd _ _ hwired.child
    rw [hchild]
    rfl

variable [Connection C]

/-- Whenever a load sends its query, as one that ends well has done, the query selects the children
by the first identifier of each key that is not null among the parents, in the form that the
converter of the foreign key writes, in the column of the foreign key. If there is none it selects
nothing, and it has no parameter. Without repetitions and dots in the declarations the column of the
foreign key is listed once under its name, by which the child's mapper reads it. -/
theorem query_of_load (entity : E) (name : String) (parents : List Instance)
    (session : Session E (Watched C)) :
    ∃ outcome session' calls, load entity name parents session = (outcome, session') ∧
      session'.connection.calls = session.connection.calls ++ calls ∧
      (outcome.result = .ok () → calls ≠ []) ∧
      ∀ call ∈ calls, ∃ statement answer, call = .query statement answer ∧
        Sends session session'.cache entity name parents statement := by
  obtain ⟨e, session', hfetch, hconnection⟩ |
    ⟨association, session₁, planned, session₂, hbegin, hplan, -, hfetch⟩ :=
      fetch_course entity name parents session
  · refine ⟨_, session', [], load_of_fetch_error hfetch, ?_, nofun, by simp⟩
    rw [hconnection, List.append_nil]
  · have hsends := sends_of_plan hbegin hplan
    cases hquery : Connection.query planned.statement session.connection with
    | error e connection =>
      rw [hquery] at hfetch
      refine ⟨_, _, [.query planned.statement (.error e)], load_of_fetch_error hfetch,
        Watched.calls_note.2 e connection hquery, nofun, fun call hcall => ?_⟩
      exact ⟨planned.statement, .error e, List.mem_singleton.1 hcall, hsends⟩
    | ok rows connection =>
      rw [hquery] at hfetch
      obtain ⟨outcome, ended, hload, -, hconnection, hcache⟩ :=
        ending_of_answer planned.statement hfetch
      refine ⟨outcome, ended, [.query planned.statement (.ok rows)], hload, ?_,
        fun _ => List.cons_ne_nil _ _, fun call hcall => ?_⟩
      · rw [hconnection]
        exact Watched.calls_note.1 rows connection hquery
      · exact ⟨planned.statement, .ok rows, List.mem_singleton.1 hcall, hcache ▸ hsends⟩

/-- Of three authors two have one name and one has none: one name is asked for. -/
example : (load .author "books" Library.authors
    (Library.session Library.books)).2.connection.received.map Statement.sql =
      ["SELECT \"books\".\"title\" AS \"title\", \"books\".\"author\" AS \"author\" FROM \"books\"" ++
        " WHERE \"books\".\"author\" IN (:p1_0)"] := by
  decide +kernel

end Association

end ObjectRelational
