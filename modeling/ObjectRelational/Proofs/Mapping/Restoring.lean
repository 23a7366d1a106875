import ObjectRelational.Proofs.Dialect.Keys
import ObjectRelational.Proofs.Mapping.Flattening
import ObjectRelational.Proofs.Session.Binding

/-! # Objects come back from what they are bound to

The columns and values that an object is bound to make a row, in any order and among other columns.
The object of that row is the one that was bound, as far as its columns go. A value that is null when
it is bound stores nothing, but then it was missing, and an object without it misses it too. Only a
property that has to have a value of a type of its own can be bound to null and not have been
missing; such a value is lost.

* `Row.view_of_mem`, `Row.view_of_not_mem`: what a row of pairs shows;
* `RowMapper.mapSimple_of_fromCell`, `RowMapper.mapView_of_empty`: rows that can be mapped;
* `SimpleProperty.Survives`: a property of an object comes back from its bound form;
* `SimpleProperty.BoundToNull`: a value that is not missing is bound to null;
* `RowMapper.mapRow_of_bind`: the object of the row that an object is bound to;
* `RowMapper.changed_by_bound_null`: an object that does not come back, and one that is not bound.
-/

namespace ObjectRelational

set_option autoImplicit false

/-! ## Rows of pairs -/

theorem Columns.lastPosition?_concat (name last : String) (start : Nat) (names : List String) :
    lastPosition? name start (names ++ [last]) =
      if last = name then some (start + names.length) else lastPosition? name start names := by
  induction names generalizing start with
  | nil => simp [lastPosition?]
  | cons first rest ih =>
    rw [List.cons_append, lastPosition?, ih, lastPosition?]
    by_cases hlast : last = name
    · simp only [if_pos hlast, List.length_cons]
      congr 1
      omega
    · simp only [if_neg hlast]

theorem Columns.lastPosition?_lt {name : String} {start place : Nat} {names : List String}
    (h : lastPosition? name start names = some place) : place < start + names.length := by
  induction names generalizing start with
  | nil => cases h
  | cons first rest ih =>
    rw [lastPosition?] at h
    rw [List.length_cons]
    split at h
    · next hrest =>
      cases h
      have := ih hrest
      omega
    · split at h <;> cases h
      omega

namespace Row

/-- Of several columns of one name the last is found. -/
theorem view_concat (pairs : List (String × Value)) (last : String × Value) (name : String) :
    (ofPairs (pairs ++ [last])).view name =
      if last.1 = name then some last.2 else (ofPairs pairs).view name := by
  have hnames : (pairs ++ [last]).map Prod.fst = pairs.map Prod.fst ++ [last.1] := by simp
  change (Columns.lastPosition? name 0 ((pairs ++ [last]).map Prod.fst)).bind
      (fun place => ((pairs ++ [last]).map Prod.snd)[place]?) =
    if last.1 = name then some last.2
      else (Columns.lastPosition? name 0 (pairs.map Prod.fst)).bind
        fun place => (pairs.map Prod.snd)[place]?
  rw [hnames, Columns.lastPosition?_concat]
  split
  · simp
  · cases hplace : Columns.lastPosition? name 0 (pairs.map Prod.fst) with
    | none => rfl
    | some place =>
      have hlt := Columns.lastPosition?_lt hplace
      rw [Nat.zero_add, List.length_map] at hlt
      rw [Option.bind_some, Option.bind_some, List.map_append,
        List.getElem?_append_left (by rwa [List.length_map])]

theorem view_of_not_mem {pairs : List (String × Value)} {name : String}
    (h : name ∉ pairs.map Prod.fst) : (ofPairs pairs).view name = none := by
  induction pairs using List.reverseRecOn with
  | nil => rfl
  | append_singleton pairs last ih =>
    simp only [List.map_append, List.map_cons, List.map_nil, List.mem_append, List.mem_singleton,
      not_or] at h
    rw [view_concat, if_neg (Ne.symm h.2), ih h.1]

/-- A column is found if all columns of its name have the same value. -/
theorem view_of_mem {pairs : List (String × Value)} {name : String} {value : Value}
    (hmem : (name, value) ∈ pairs) (honly : ∀ pair ∈ pairs, pair.1 = name → pair.2 = value) :
    (ofPairs pairs).view name = some value := by
  induction pairs using List.reverseRecOn with
  | nil => cases hmem
  | append_singleton pairs last ih =>
    rw [view_concat]
    split
    · next hname =>
      rw [honly last (List.mem_append_right _ (List.mem_singleton_self last)) hname]
    · next hname =>
      refine ih ?_ fun pair h => honly pair (List.mem_append_left _ h)
      rcases List.mem_append.1 hmem with h | h
      · exact h
      · rw [List.mem_singleton] at h
        exact absurd (congrArg Prod.fst h).symm hname

end Row

/-! ## Rows that can be mapped -/

namespace RowMapper

variable {E : Type} {metadata : EntityMetadata E} {view : RowView}

theorem mapProperty_of_fromCell (metadata : EntityMetadata E) {property : SimpleProperty}
    (h : ∀ cell, view.cell? property.column = some cell → ∃ held, property.fromCell cell = .ok held)
    (target : Option Instance) : ∃ target', mapProperty metadata view target property = .ok target' := by
  cases hcell : view.cell? property.column with
  | none => exact ⟨target, mapProperty_of_none hcell target⟩
  | some cell =>
    obtain ⟨held, hheld⟩ := h cell hcell
    rw [mapProperty_of_cell hcell, hheld]
    exact ⟨_, rfl⟩

/-- Properties whose cells can all be taken can be stored. -/
theorem mapSimple_of_fromCell (metadata : EntityMetadata E) {properties : List SimpleProperty}
    (h : ∀ property ∈ properties, ∀ cell, view.cell? property.column = some cell →
      ∃ held, property.fromCell cell = .ok held) (target : Option Instance) :
    ∃ target', mapSimple metadata view properties target = .ok target' := by
  induction properties generalizing target with
  | nil => exact ⟨target, rfl⟩
  | cons property rest ih =>
    rw [List.forall_mem_cons] at h
    obtain ⟨next, hnext⟩ := mapProperty_of_fromCell metadata h.1 target
    obtain ⟨target', hrest⟩ := ih h.2 next
    refine ⟨target', ?_⟩
    rw [mapSimple, hnext]
    exact hrest

theorem mapNested_of_none {blank : Instance} {nested : List (NestedProperty × RowMapper E)}
    (h : ∀ entry ∈ nested, entry.2.mapView (view.under entry.1.name) = .ok none)
    (target : Option Instance) : mapNested blank nested view target = .ok target := by
  induction nested with
  | nil => rfl
  | cons entry rest ih =>
    rw [List.forall_mem_cons] at h
    rw [mapNested, h.1]
    exact ih h.2

/-- Without a cell that counts there is no object, and nothing fails. -/
theorem mapView_of_empty (mapper : RowMapper E) :
    ∀ {view : RowView}, (∀ lookup ∈ mapper.lookups, view.cell? lookup.name = none) →
      mapper.mapView view = .ok none := by
  induction mapper using tree_induction with
  | node mapper ih =>
    intro view h
    have hown : ∀ property ∈ mapper.metadata.simple, view.cell? property.column = none := by
      intro property hproperty
      have hlookup := h (.own property.column) (mem_lookups.2 (.inl ⟨property, hproperty, rfl⟩))
      rwa [Lookup.name_own] at hlookup
    have hnested : ∀ entry ∈ mapper.nested,
        entry.2.mapView (view.under entry.1.name) = .ok none := by
      intro entry hentry
      refine ih entry hentry fun inner hinner => ?_
      rw [cell?_under]
      exact h _ (mem_lookups.2 (.inr ⟨entry, hentry, inner, hinner, rfl⟩))
    have hcells : ∀ property ∈ mapper.metadata.simple, ∀ cell,
        view.cell? property.column = some cell → ∃ held, property.fromCell cell = .ok held := by
      intro property hproperty cell hcell
      rw [hown property hproperty] at hcell
      cases hcell
    obtain ⟨target, htarget⟩ := mapSimple_of_fromCell mapper.metadata hcells none
    obtain rfl := (mapSimple_eq_none htarget).2 ⟨rfl, hown⟩
    rw [mapView_eq, htarget]
    exact mapNested_of_none hnested none

theorem collection_mapSimple {properties : List SimpleProperty} {target target' : Option Instance}
    (h : mapSimple metadata view properties target = .ok target') (slot : String) :
    (target'.getD metadata.blank).collection slot = (target.getD metadata.blank).collection slot := by
  induction properties generalizing target with
  | nil =>
    cases h
    rfl
  | cons property rest ih =>
    obtain ⟨next, hproperty, hrest⟩ := except_bind_ok h
    rw [ih hrest]
    obtain ⟨-, rfl⟩ | ⟨cell, value, -, -, rfl⟩ := mapProperty_ok hproperty
    · rfl
    · simp

end RowMapper

/-! ## Properties that come back -/

theorem ColumnType.read_null {type : ColumnType} (h : ∀ codec, type.native ≠ .custom codec)
    (held : Value) : type.read .null ≠ .ok held := by
  obtain ⟨token, native⟩ := type
  cases native with
  | custom codec => exact absurd rfl (h codec)
  | _ => exact nofun

namespace SimpleProperty

/-- What an object holds in a property comes back from its bound form. -/
def Survives (property : SimpleProperty) (object : Instance) : Prop :=
  (property.boundForm object).bind property.fromCell = .ok (object.column property.slot)

/-- A property that has to have a value is bound to null. Only a type of its own has values that are
written as null; a row with the null shows no value for the property. -/
def BoundToNull (property : SimpleProperty) (object : Instance) : Prop :=
  property.optional = false ∧ (∃ codec, property.type.native = .custom codec) ∧
    ∃ stored, property.boundForm object = .ok stored ∧ stored.isNull = true

/-- What comes back from null was missing. -/
theorem Survives.restored {property : SimpleProperty} {object : Instance}
    (h : property.Survives object) :
    ∃ stored, property.boundForm object = .ok stored ∧
      property.fromCell stored = .ok (object.column property.slot) ∧
      (stored.isNull = true → ¬ property.BoundToNull object →
        property.optional = true ∧ object.column property.slot = .null) := by
  obtain ⟨stored, hbound, hback⟩ := except_bind_ok h
  refine ⟨stored, hbound, hback, fun hnull hpresent => ?_⟩
  have haccept : property.accept .null = .ok (object.column property.slot) := by
    rw [fromCell, Converter.read_of_isNull hnull] at hback
    exact hback
  unfold accept at haccept
  cases hoptional : property.optional with
  | true =>
    rw [hoptional, if_pos rfl] at haccept
    exact ⟨rfl, (Except.ok.inj haccept).symm⟩
  | false =>
    rw [hoptional, if_neg Bool.false_ne_true] at haccept
    refine absurd haccept (ColumnType.read_null (fun codec hcodec => hpresent ?_) _)
    exact ⟨hoptional, ⟨codec, hcodec⟩, stored, hbound, hnull⟩

/-- What a property is bound to. -/
def boundTo (property : SimpleProperty) (stored : Value) : BoundValue :=
  ⟨property.name, property.column, property.converter.placeholder property.name, stored⟩

end SimpleProperty

namespace RowMapper

variable {E : Type} {mapper : RowMapper E} {object : Instance} {stored : SimpleProperty → Value}

theorem bind_of_boundForm
    (h : ∀ property ∈ mapper.metadata.simple, property.boundForm object = .ok (stored property)) :
    mapper.bind object =
      .ok (mapper.metadata.simple.map fun property => property.boundTo (stored property)) := by
  rw [bind_eq]
  generalize mapper.metadata.simple = properties at h ⊢
  induction properties with
  | nil => rfl
  | cons property rest ih =>
    rw [List.forall_mem_cons] at h
    rw [List.mapM_cons, bindProperty_eq, h.1, ih h.2]
    rfl

/-! ## Whole objects -/

/-- A row shows the columns of a mapper with some values, and no column of a nested object. -/
structure Carried (mapper : RowMapper E) (stored : SimpleProperty → Value)
    (pairs : List (String × Value)) : Prop where
  own : ∀ property ∈ mapper.metadata.simple,
    (Row.ofPairs pairs).view property.column = some (stored property)
  nested : ∀ lookup ∈ nestedLookups mapper.nested, (Row.ofPairs pairs).view lookup.name = none

theorem carried_of_perm (hcolumns : mapper.metadata.columnNames.Nodup)
    (hnested : ∀ lookup ∈ nestedLookups mapper.nested, lookup.name ∉ mapper.metadata.columnNames)
    {pairs extra : List (String × Value)}
    (hpairs : pairs.Perm
      ((mapper.metadata.simple.map fun property => (property.column, stored property)) ++ extra))
    (hextra : ∀ lookup ∈ mapper.lookups, lookup.name ∉ extra.map Prod.fst) :
    mapper.Carried stored pairs := by
  have hlookups : mapper.lookups = mapper.metadata.columnNames.map .own ++ nestedLookups mapper.nested := by
    cases mapper
    rfl
  constructor
  · intro property hproperty
    have hmem : (property.column, stored property) ∈ pairs :=
      hpairs.mem_iff.2 (List.mem_append_left _ (List.mem_map_of_mem hproperty))
    refine Row.view_of_mem hmem fun pair hpair hname => ?_
    rcases List.mem_append.1 (hpairs.mem_iff.1 hpair) with h | h
    · obtain ⟨other, hother, rfl⟩ := List.mem_map.1 h
      obtain rfl := List.inj_on_of_nodup_map hcolumns hother hproperty hname
      rfl
    · have hlookup := hextra (.own property.column) (mem_lookups.2 (.inl ⟨property, hproperty, rfl⟩))
      rw [Lookup.name_own, ← hname] at hlookup
      exact absurd (List.mem_map_of_mem h) hlookup
  · intro lookup hlookup
    refine Row.view_of_not_mem fun hmem => ?_
    rw [(hpairs.map Prod.fst).mem_iff, List.map_append, List.map_map, List.mem_append] at hmem
    rcases hmem with h | h
    · exact hnested lookup hlookup h
    · exact hextra lookup (hlookups ▸ List.mem_append_right _ hlookup) h

/-- What a mapper finds in a row without columns of nested objects. -/
theorem mapRow_of_carried {pairs : List (String × Value)} (hpairs : mapper.Carried stored pairs)
    (hslots : (mapper.metadata.simple.map SimpleProperty.slot).Nodup)
    (hcells : ∀ property ∈ mapper.metadata.simple, ∃ held,
      property.fromCell (stored property) = .ok held) :
    ∃ found, mapper.mapRow (Row.ofPairs pairs).view = .ok found ∧
      (∀ property ∈ mapper.metadata.simple,
        property.Shows ((Row.ofPairs pairs).view.cell? property.column) mapper.metadata.blank found) ∧
      (∀ slot, found.nested? slot = mapper.metadata.blank.nested? slot) ∧
      ∀ slot, found.collection slot = mapper.metadata.blank.collection slot := by
  let view := (Row.ofPairs pairs).view
  have hcell : ∀ property ∈ mapper.metadata.simple, ∀ cell, view.cell? property.column = some cell →
      ∃ held, property.fromCell cell = .ok held := by
    intro property hproperty cell hcell
    have hfilter : (some (stored property)).filter (fun cell => !cell.isNull) = some cell := by
      rw [← hpairs.own property hproperty]
      exact hcell
    obtain rfl := Option.some.inj (Option.filter_eq_some_iff.1 hfilter).1
    exact hcells property hproperty
  have hbelow : ∀ entry ∈ mapper.nested, entry.2.mapView (view.under entry.1.name) = .ok none := by
    intro entry hentry
    refine mapView_of_empty entry.2 fun inner hinner => ?_
    have hnone : view (inner.below entry.1).name = none :=
      hpairs.nested _ (mem_nestedLookups.2 ⟨entry, hentry, inner, hinner, rfl⟩)
    rw [cell?_under, RowView.cell?, hnone]
    rfl
  obtain ⟨target, htarget⟩ := mapSimple_of_fromCell mapper.metadata hcell none
  refine ⟨target.getD mapper.metadata.blank, ?_, shows_mapSimple htarget hslots,
    nested?_mapSimple htarget, collection_mapSimple htarget⟩
  rw [mapRow, mapView_eq, htarget]
  change (mapNested mapper.metadata.blank mapper.nested view target >>= _) = _
  rw [mapNested_of_none hbelow]
  rfl

/-- An object whose properties come back from their bound forms is bound, property by property in
the order of declaration. Its columns are distinct and distinct from those of nested objects, and its
properties have distinct slots. Then the columns and values it is bound to, in any order and among
any others that the mapper does not look up, are a row of an object that holds the same in every
property, and has nested objects and collections as they are before anything is stored. Where a type
of its own writes a value as null that is not missing, null is read as no value all the same, and the
property too is as it is before anything is stored. -/
theorem mapRow_of_bind (mapper : RowMapper E) (object : Instance)
    (hcolumns : mapper.metadata.columnNames.Nodup)
    (hslots : (mapper.metadata.simple.map SimpleProperty.slot).Nodup)
    (hnested : ∀ lookup ∈ nestedLookups mapper.nested, lookup.name ∉ mapper.metadata.columnNames)
    (hblank : ∀ property ∈ mapper.metadata.simple, property.optional = true →
      mapper.metadata.blank.column property.slot = .null)
    (hsurvives : ∀ property ∈ mapper.metadata.simple, property.Survives object) :
    ∃ bounds, mapper.bind object = .ok bounds ∧
      bounds.map BoundValue.property = mapper.metadata.simple.map SimpleProperty.name ∧
      bounds.map BoundValue.column = mapper.metadata.columnNames ∧
      ∀ pairs extra : List (String × Value),
        pairs.Perm ((bounds.map fun bound => (bound.column, bound.value)) ++ extra) →
        (∀ lookup ∈ mapper.lookups, lookup.name ∉ extra.map Prod.fst) →
          ∃ found, mapper.mapRow (Row.ofPairs pairs).view = .ok found ∧
            (∀ property ∈ mapper.metadata.simple, ¬ property.BoundToNull object →
              found.column property.slot = object.column property.slot) ∧
            (∀ property ∈ mapper.metadata.simple, property.BoundToNull object →
              found.column property.slot = mapper.metadata.blank.column property.slot) ∧
            (∀ slot, found.nested? slot = mapper.metadata.blank.nested? slot) ∧
            ∀ slot, found.collection slot = mapper.metadata.blank.collection slot := by
  have hrestored := fun property hproperty => (hsurvives property hproperty).restored
  choose! stored hbound hback hmissing using hrestored
  refine ⟨_, bind_of_boundForm hbound, by simp [SimpleProperty.boundTo],
    by simp [SimpleProperty.boundTo, EntityMetadata.columnNames], ?_⟩
  intro pairs extra hpairs hextra
  rw [List.map_map] at hpairs
  have hcarried : mapper.Carried stored pairs := carried_of_perm hcolumns hnested hpairs hextra
  obtain ⟨found, hfound, hshows, hobjects, hchildren⟩ :=
    mapRow_of_carried hcarried hslots fun property hproperty => ⟨_, hback property hproperty⟩
  have hnull : ∀ property ∈ mapper.metadata.simple, (stored property).isNull = true →
      found.column property.slot = mapper.metadata.blank.column property.slot := by
    intro property hproperty hnull
    have hshown := hshows property hproperty
    unfold SimpleProperty.Shows RowView.cell? at hshown
    rwa [hcarried.own property hproperty, Option.filter_some, hnull] at hshown
  refine ⟨found, hfound, fun property hproperty hpresent => ?_, ?_, hobjects, hchildren⟩
  · cases hstored : (stored property).isNull with
    | true =>
      -- A null is not stored; the property was missing, and it is before anything is stored.
      obtain ⟨hoptional, hheld⟩ := hmissing property hproperty hstored hpresent
      rw [hnull property hproperty hstored, hheld, hblank property hproperty hoptional]
    | false =>
      have hshown := hshows property hproperty
      unfold SimpleProperty.Shows RowView.cell? at hshown
      rw [hcarried.own property hproperty, Option.filter_some, hstored] at hshown
      exact (Except.ok.inj ((hback property hproperty).symm.trans hshown)).symm
  · rintro property hproperty ⟨-, -, cell, hcell, hisNull⟩
    obtain rfl := Except.ok.inj ((hbound property hproperty).symm.trans hcell)
    exact hnull property hproperty hisNull

namespace Guests

def nickname : SimpleProperty :=
  ⟨"nickname", "nickname", "nick", Users.nameOf.type, true, .passThrough "text"⟩

def mood : SimpleProperty :=
  ⟨"mood", "mood", "mood", ⟨Chain.mood, .enumeration ["HAPPY", "GRUMPY"]⟩, false,
    .enumeration "Mood" ["HAPPY", "GRUMPY"] (some "mood")⟩

/-- A guest in a group. -/
def guest : RowMapper Unit :=
  mk ⟨(), "Guest", "guests", "name", [Users.nameOf, nickname, mood], [], .empty⟩
    [(⟨"group", "group", some ⟨.left, "group_id", "id"⟩⟩, Users.group)]

/-- A happy guest without a nickname. -/
def ada : Instance :=
  (((Instance.empty.withColumn "name" (.text "Ada")).withColumn "nickname" .null).withColumn "mood"
    (.text "HAPPY")).withNested "group" .empty

/-- Columns that no property of a guest reads. -/
def others : List (String × Value) :=
  [("group", .text "g"), ("nickname", .text "Countess"), ("mood.name", .null)]

end Guests

open Guests in
/-- The columns are read from right to left, and among others. -/
theorem mapRow_of_bind_guest :
    ∃ bounds found, guest.bind ada = .ok bounds ∧
      guest.mapRow (Row.ofPairs
        (others ++ (bounds.map fun bound => (bound.column, bound.value)).reverse)).view = .ok found ∧
      found.column "name" = .text "Ada" ∧ found.column "nickname" = .null ∧
      found.column "mood" = .text "HAPPY" ∧ found.nested? "group" = none := by
  have hsurvives : ∀ property ∈ guest.metadata.simple, property.Survives ada := by
    simp only [guest, metadata, List.forall_mem_cons, List.not_mem_nil, false_implies, implies_true,
      and_true]
    exact ⟨rfl, rfl, rfl⟩
  have hpresent : ∀ property ∈ guest.metadata.simple, ¬ property.BoundToNull ada := by
    simp only [guest, metadata, List.forall_mem_cons, List.not_mem_nil, false_implies, implies_true,
      and_true]
    refine ⟨?_, ?_, ?_⟩
    all_goals
      rintro ⟨-, ⟨codec, hcodec⟩, -⟩
      cases hcodec
  have hblank : ∀ property ∈ guest.metadata.simple, property.optional = true →
      guest.metadata.blank.column property.slot = .null := fun _ _ _ => rfl
  obtain ⟨bounds, hbounds, -, -, hrow⟩ := mapRow_of_bind guest ada (by decide) (by decide)
    (by decide) hblank hsurvives
  obtain ⟨found, hfound, hsame, -, hnested, -⟩ := hrow
    (others ++ (bounds.map fun bound => (bound.column, bound.value)).reverse) others
    (List.perm_append_comm.trans ((List.reverse_perm _).append_right _)) (by decide)
  have hheld := fun property hproperty => hsame property hproperty (hpresent property hproperty)
  simp only [guest, metadata, List.forall_mem_cons] at hheld
  exact ⟨bounds, found, hbounds, hfound, hheld.1, hheld.2.1, hheld.2.2.1, hnested "group"⟩

namespace Polls

/-- Voters with a vote, and wards that would be nested in themselves. -/
inductive Subject where
  | voter
  | ward
  deriving DecidableEq

/-- Votes by the name of the choice, of which an abstention is written as null. -/
def votes : Codec where
  read value := .ok (if value.isNull then .text "abstention" else value)
  write
    | .text "abstention" => .ok .null
    | held => .ok held

def vote : SimpleProperty :=
  ⟨"vote", "vote", "vote", ⟨⟨"poll::Vote", .scalar .text, none⟩, .custom votes⟩, false,
    .passThrough "text"⟩

def number : SimpleProperty :=
  ⟨"id", "id", "id", ⟨⟨"i64", .scalar .bigint, none⟩, .integer .bigint⟩, false,
    .passThrough "bigint"⟩

/-- A voter has voted yes unless another vote is stored. -/
def schema : Schema Subject where
  entities := [.voter, .ward]
  complete entity := by cases entity <;> simp
  declaration
    | .voter => ⟨"poll::Voter", "voters", "vote", [.field "vote" vote.type "vote"], [],
        Instance.empty.withColumn "vote" (.text "yes")⟩
    | .ward => .ofProperties "poll::Ward" "wards" "id"
        [.field "id" number.type "id", .nested "parent" .ward "parent"] []

/-- What is built for an entity type at first. -/
def built (entity : Subject) : Except ConfigError (RowMapper Subject) :=
  answerOf (MetadataCache.mapper schema .snakeCase entity (.ofChain .standard))

def voter : RowMapper Subject :=
  mk ⟨.voter, "Voter", "voters", "vote", [vote], [],
    Instance.empty.withColumn "vote" (.text "yes")⟩ []

def abstainer : Instance :=
  Instance.empty.withColumn "vote" (.text "abstention")

def ward : Instance :=
  Instance.empty.withColumn "id" (.integer .bigint ⟨1, by decide⟩)

theorem built_voter : built .voter = .ok voter := by
  unfold built
  rw [MetadataCache.mapper_eq]
  rfl

theorem built_ward : built .ward = .error (.recursiveNesting "Ward") := by
  have hcolumns : (built .ward).map (fun found => found.metadata.columnNames) =
      .error (.recursiveNesting "Ward") := by decide +kernel
  cases h : built .ward with
  | ok found =>
    rw [h] at hcolumns
    cases hcolumns
  | error e =>
    rw [h] at hcolumns
    cases hcolumns
    rfl

end Polls

open Polls in
/-- All that a voter holds comes back from its bound form. But an abstention is bound to null, and
the voter who is read from that row has voted yes. A ward holds nothing but a number, which comes
back as well, but there is no mapper to bind it, because wards are nested in wards. -/
theorem changed_by_bound_null :
    (built .voter = .ok voter ∧ voter.metadata.columnNames.Nodup ∧
      (voter.metadata.simple.map SimpleProperty.slot).Nodup ∧ voter.nested = [] ∧
      (∀ property ∈ voter.metadata.simple,
        property.optional = false ∧ property.Survives abstainer) ∧
      ∃ bounds found, voter.bind abstainer = .ok bounds ∧
        voter.mapRow (Row.ofPairs (bounds.map fun bound => (bound.column, bound.value))).view =
          .ok found ∧
        abstainer.column "vote" = .text "abstention" ∧ found.column "vote" = .text "yes") ∧
    number.Survives ward ∧ built .ward = .error (.recursiveNesting "Ward") := by
  have hsurvives : ∀ property ∈ voter.metadata.simple,
      property.optional = false ∧ property.Survives abstainer := by
    intro property hproperty
    rw [List.mem_singleton.1 hproperty]
    exact ⟨rfl, rfl⟩
  exact ⟨⟨built_voter, by decide, by decide, rfl, hsurvives, _, _, rfl, rfl, rfl, rfl⟩, rfl,
    built_ward⟩

end RowMapper

end ObjectRelational
