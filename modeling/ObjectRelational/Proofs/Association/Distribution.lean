import Mathlib.Data.List.Forall2
import ObjectRelational.Proofs.Association.Course

/-! # Children reach exactly their parents

A load enters the parents by the keys of their identifiers and hands every child to the places it
finds there. What a parent has in the end can be said without that index: of the children of all
rows, in the order of the rows, those that belong to it.

* `placesOf_ofParents`: the index holds, for each key, the places of the parents with that key;
* `distribute_ok`: the collections after all rows have been handed out;
* `collections_of_load`: the same of a whole load, with everything else left as it was.
-/

namespace ObjectRelational.Association

set_option autoImplicit false

variable {E C : Type}

/-! ## What belongs to a parent -/

/-- The key of an identifier; one that is null has none. -/
def keyOf (id : Value) : Option ValueKey :=
  if id.isNull then none else some id.key

/-- The key of a parent's identifier, if it can be read and is not null. -/
def parentKey (id : SimpleProperty) (parent : Instance) : Option ValueKey :=
  match id.get parent with
  | .ok value => keyOf value
  | .error _ => none

/-- Whether a child's foreign key has the key of a parent's identifier. -/
def belongsTo (id foreignKey : SimpleProperty) (parent child : Instance) : Bool :=
  match foreignKey.get child with
  | .ok value => parentKey id parent = some value.key
  | .error _ => false

def childrenOf (id foreignKey : SimpleProperty) (children : List Instance) (parent : Instance) :
    List Instance :=
  children.filter (belongsTo id foreignKey parent)

/-! ## The places of a key -/

namespace Owners

theorem placesOf_add (owners : Owners) (place : Nat) (id : Value) (key : ValueKey) :
    (owners.add place id).placesOf key =
      if keyOf id = some key then owners.placesOf key ++ [place] else owners.placesOf key := by
  cases hid : id.isNull with
  | true => simp [add, keyOf, hid]
  | false =>
    by_cases hkey : id.key = key
    · subst hkey
      simp [add, keyOf, hid, placesOf]
    · simp [add, keyOf, hid, placesOf, Table.get?_put, hkey]

theorem placesOf_addAll (id : SimpleProperty) (key : ValueKey) (parents : List Instance) :
    ∀ (place : Nat) (owners owners' : Owners), addAll id place owners parents = .ok owners' →
      owners'.placesOf key = owners.placesOf key ++
        ((parents.zipIdx place).filter fun entry => parentKey id entry.1 = some key).map Prod.snd := by
  induction parents with
  | nil =>
    intro place owners owners' h
    cases h
    simp
  | cons parent rest ih =>
    intro place owners owners' h
    unfold addAll at h
    cases hget : id.get parent with
    | error e =>
      rw [hget] at h
      cases h
    | ok value =>
      rw [hget] at h
      have hrest := ih (place + 1) (owners.add place value) owners' h
      have hkey : parentKey id parent = keyOf value := by simp only [parentKey, hget]
      rw [hrest, placesOf_add, List.zipIdx_cons, List.filter_cons, hkey]
      by_cases hk : keyOf value = some key <;> simp [hk]

theorem placesOf_ofParents {id : SimpleProperty} {parents : List Instance} {owners : Owners}
    (h : ofParents id parents = .ok owners) (key : ValueKey) :
    owners.placesOf key =
      (parents.zipIdx.filter fun entry => parentKey id entry.1 = some key).map Prod.snd :=
  placesOf_addAll id key parents 0 empty owners h

theorem nodup_placesOf {id : SimpleProperty} {parents : List Instance} {owners : Owners}
    (h : ofParents id parents = .ok owners) (key : ValueKey) : (owners.placesOf key).Nodup := by
  rw [placesOf_ofParents h]
  refine List.Nodup.sublist (List.filter_sublist.map Prod.snd) ?_
  rw [List.zipIdx_map_snd]
  exact List.nodup_range'

theorem mem_placesOf {id : SimpleProperty} {parents : List Instance} {owners : Owners}
    (h : ofParents id parents = .ok owners) (key : ValueKey) (place : Nat) :
    place ∈ owners.placesOf key ↔
      ∃ parent, parents[place]? = some parent ∧ parentKey id parent = some key := by
  rw [placesOf_ofParents h]
  simp only [List.mem_map, List.mem_filter, decide_eq_true_eq, Prod.exists, exists_eq_right,
    List.mem_zipIdx_iff_getElem?]

theorem get_of_addAll {id : SimpleProperty} {parents : List Instance} :
    ∀ {place : Nat} {owners owners' : Owners}, addAll id place owners parents = .ok owners' →
      ∀ parent ∈ parents, ∃ value, id.get parent = .ok value := by
  induction parents with
  | nil => simp
  | cons first rest ih =>
    intro place owners owners' h parent hparent
    unfold addAll at h
    cases hget : id.get first with
    | error e =>
      rw [hget] at h
      cases h
    | ok value =>
      rw [hget] at h
      obtain rfl | hmem := List.mem_cons.1 hparent
      · exact ⟨value, hget⟩
      · exact ih h parent hmem

end Owners

/-! ## Handing out one child -/

theorem length_give (slot : String) (child : Instance) (places : List Nat)
    (parents : List Instance) : (give slot child places parents).length = parents.length := by
  induction places generalizing parents with
  | nil => rfl
  | cons place rest ih =>
    have := ih (parents.modify place fun parent => parent.pushChild slot child)
    rwa [List.length_modify] at this

/-- A child goes into the collections at the given places and into no other. -/
theorem getElem?_give (slot : String) (child : Instance) {places : List Nat} (h : places.Nodup)
    (parents : List Instance) (i : Nat) :
    (give slot child places parents)[i]? =
      if i ∈ places then parents[i]?.map fun parent => parent.pushChild slot child
      else parents[i]? := by
  induction places generalizing parents with
  | nil => simp [give]
  | cons place rest ih =>
    obtain ⟨hnot, hrest⟩ := List.nodup_cons.1 h
    have hstep := ih hrest (parents.modify place fun parent => parent.pushChild slot child)
    change (give slot child rest _)[i]? = _
    rw [hstep]
    by_cases hi : i = place
    · subst hi
      simp [hnot]
    · have hne : place ≠ i := fun he => hi he.symm
      by_cases hmem : i ∈ rest <;> simp [hi, hmem, hne]

/-! ## Handing out all children -/

theorem giveAll_ok {plan : Plan E} {rows : List Row} :
    ∀ {orphans orphans' : Nat} {parents parents' : List Instance},
      giveAll plan orphans rows parents = (.ok orphans', parents') →
        ∃ given : List (Instance × ValueKey),
          List.Forall₂ (fun row entry => childOf plan row = .ok entry) rows given ∧
          parents' = given.foldl (fun parents entry =>
            give plan.association.slot entry.1 (plan.owners.placesOf entry.2) parents) parents := by
  induction rows with
  | nil =>
    intro orphans orphans' parents parents' h
    cases h
    exact ⟨[], .nil, rfl⟩
  | cons row rest ih =>
    intro orphans orphans' parents parents' h
    unfold giveAll at h
    cases hrow : childOf plan row with
    | error e =>
      rw [hrow] at h
      cases h
    | ok entry =>
      rw [hrow] at h
      have hrest : ∃ counted, giveAll plan counted rest (give plan.association.slot entry.1
          (plan.owners.placesOf entry.2) parents) = (.ok orphans', parents') := by
        cases hplaces : plan.owners.placesOf entry.2 with
        | nil =>
          simp only [hplaces] at h
          exact ⟨_, h⟩
        | cons place places =>
          simp only [hplaces] at h
          exact ⟨_, h⟩
      obtain ⟨counted, hrest⟩ := hrest
      obtain ⟨given, hgiven, hparents⟩ := ih hrest
      exact ⟨entry :: given, .cons hrow hgiven, hparents⟩

/-- What the place of a parent holds after some children have been handed out: the collection it
had, and after it the children whose keys lead to that place. -/
theorem getElem?_foldl_give {slot : String} {owners : Owners}
    (hnodup : ∀ key, (owners.placesOf key).Nodup) (given : List (Instance × ValueKey)) (i : Nat) :
    ∀ (parents : List Instance) (parent : Instance) (held : List Instance),
      parents[i]? = some (parent.withCollection slot held) →
        (given.foldl (fun parents entry =>
            give slot entry.1 (owners.placesOf entry.2) parents) parents)[i]? =
          some (parent.withCollection slot (held ++
            (given.filter fun entry => i ∈ owners.placesOf entry.2).map Prod.fst)) := by
  induction given with
  | nil =>
    intro parents parent held h
    simpa using h
  | cons entry rest ih =>
    intro parents parent held h
    have hgive := getElem?_give slot entry.1 (hnodup entry.2) parents i
    rw [h] at hgive
    by_cases hi : i ∈ owners.placesOf entry.2
    · have hpush : (give slot entry.1 (owners.placesOf entry.2) parents)[i]? =
          some (parent.withCollection slot (held ++ [entry.1])) := by
        rw [hgive, if_pos hi]
        simp [Instance.pushChild]
      rw [List.foldl_cons, ih _ parent _ hpush, List.filter_cons_of_pos (by simpa using hi)]
      simp
    · rw [if_neg hi] at hgive
      rw [List.foldl_cons, ih _ parent _ hgive, List.filter_cons_of_neg (by simpa using hi)]

theorem length_foldl_give (slot : String) (owners : Owners) (given : List (Instance × ValueKey))
    (parents : List Instance) :
    (given.foldl (fun parents entry =>
      give slot entry.1 (owners.placesOf entry.2) parents) parents).length = parents.length := by
  induction given generalizing parents with
  | nil => rfl
  | cons entry rest ih => rw [List.foldl_cons, ih, length_give]

theorem exists_left_of_forall₂ {α β : Type} {R : α → β → Prop} {xs : List α} {ys : List β}
    (h : List.Forall₂ R xs ys) : ∀ y ∈ ys, ∃ x ∈ xs, R x y := by
  induction h with
  | nil => simp
  | cons hxy htail ih =>
    intro y hy
    obtain rfl | hmem := List.mem_cons.1 hy
    · exact ⟨_, List.mem_cons_self, hxy⟩
    · obtain ⟨x, hx, hxy'⟩ := ih y hmem
      exact ⟨x, List.mem_cons_of_mem _ hx, hxy'⟩

theorem childOf_ok {plan : Plan E} {row : Row} {entry : Instance × ValueKey}
    (h : childOf plan row = .ok entry) :
    plan.childMapper.mapRow row.view = .ok entry.1 ∧
      ∃ value, plan.foreignKey.get entry.1 = .ok value ∧ value.key = entry.2 := by
  unfold childOf at h
  cases hchild : plan.childMapper.mapRow row.view with
  | error e =>
    rw [hchild] at h
    cases h
  | ok child =>
    rw [hchild] at h
    cases hkey : plan.foreignKey.get child with
    | error e =>
      simp only [bind, Except.bind, hkey] at h
      cases h
    | ok value =>
      simp only [bind, Except.bind, hkey] at h
      cases h
      exact ⟨rfl, value, hkey, rfl⟩

theorem keyed_of_forall₂ {plan : Plan E} {rows : List Row}
    {given : List (Instance × ValueKey)}
    (h : List.Forall₂ (fun row entry => childOf plan row = .ok entry) rows given) :
    ∀ entry ∈ given, ∃ value, plan.foreignKey.get entry.1 = .ok value ∧ value.key = entry.2 := by
  intro entry hmem
  obtain ⟨row, -, hrow⟩ := exists_left_of_forall₂ h entry hmem
  exact (childOf_ok hrow).2

/-- Emptied and then handed some children, each parent holds those of them that belong to it. -/
theorem foldl_give_emptied {id foreignKey : SimpleProperty} {parents : List Instance}
    {owners : Owners} (howners : Owners.ofParents id parents = .ok owners) (slot : String)
    {given : List (Instance × ValueKey)}
    (hkeyed : ∀ entry ∈ given, ∃ value, foreignKey.get entry.1 = .ok value ∧ value.key = entry.2) :
    given.foldl (fun parents entry => give slot entry.1 (owners.placesOf entry.2) parents)
        (parents.map fun parent => parent.withCollection slot []) =
      parents.map fun parent =>
        parent.withCollection slot (childrenOf id foreignKey (given.map Prod.fst) parent) := by
  apply List.ext_getElem?
  intro i
  rw [List.getElem?_map]
  cases hparent : parents[i]? with
  | none =>
    have hlength := List.getElem?_eq_none_iff.1 hparent
    apply List.getElem?_eq_none
    rwa [length_foldl_give, List.length_map]
  | some parent =>
    have hcleared : (parents.map fun parent => parent.withCollection slot [])[i]? =
        some (parent.withCollection slot []) := by
      rw [List.getElem?_map, hparent]
      rfl
    rw [getElem?_foldl_give (Owners.nodup_placesOf howners) given i _ parent [] hcleared]
    -- A key leads to the place of a parent exactly if it is the key of its identifier.
    have hsame : (given.filter fun entry => i ∈ owners.placesOf entry.2) =
        given.filter fun entry => belongsTo id foreignKey parent entry.1 := by
      apply List.filter_congr
      intro entry hmem
      obtain ⟨value, hvalue, hkey⟩ := hkeyed entry hmem
      have hplace := Owners.mem_placesOf howners entry.2 i
      simp only [hparent, Option.some.injEq, exists_eq_left'] at hplace
      simp only [belongsTo, hvalue, hkey, hplace]
    rw [hsame, List.nil_append, Option.map_some]
    unfold childrenOf
    rw [List.filter_map]
    rfl

/-- When all rows can be handed out, each parent holds the children that belong to it and nothing
else about it has changed. -/
theorem distribute_ok {plan : Plan E} {id : SimpleProperty} {rows : List Row} {orphans : Nat}
    {parents parents' : List Instance} (howners : Owners.ofParents id parents = .ok plan.owners)
    (h : distribute plan rows parents = (.ok orphans, parents')) :
    ∃ children : List Instance,
      List.Forall₂ (fun row child => plan.childMapper.mapRow row.view = .ok child) rows children ∧
      (∀ child ∈ children, ∃ value, plan.foreignKey.get child = .ok value) ∧
      parents' = parents.map fun parent => parent.withCollection plan.association.slot
        (childrenOf id plan.foreignKey children parent) := by
  obtain ⟨given, hgiven, rfl⟩ := giveAll_ok h
  have hkeyed := keyed_of_forall₂ hgiven
  refine ⟨given.map Prod.fst, ?_, ?_, foldl_give_emptied howners _ hkeyed⟩
  · rw [List.forall₂_map_right_iff]
    exact hgiven.imp fun row entry hrow => (childOf_ok hrow).1
  · intro child hchild
    obtain ⟨entry, hmem, rfl⟩ := List.mem_map.1 hchild
    obtain ⟨value, hvalue, -⟩ := hkeyed entry hmem
    exact ⟨value, hvalue⟩

/-! ## A whole load -/

/-- What a load makes of a parent: one collection is replaced. -/
structure Refilled (slot : String) (children : List Instance) (before after : Instance) : Prop where
  collection : after.collection slot = children
  otherCollection : ∀ other, other ≠ slot → after.collection other = before.collection other
  column : ∀ other, after.column other = before.column other
  nested : ∀ other, after.nested? other = before.nested? other

theorem refilled_withCollection (slot : String) (children : List Instance) (parent : Instance) :
    Refilled slot children parent (parent.withCollection slot children) where
  collection := by simp
  otherCollection other hne := by simp [Ne.symm hne]
  column other := by simp
  nested other := by simp

/-- What a load makes of its parents with the children of the rows. -/
structure HandedOut (slot : String) (id foreignKey : SimpleProperty)
    (children parents parents' : List Instance) : Prop where
  refilled : List.Forall₂ (fun parent after =>
    Refilled slot (childrenOf id foreignKey children parent) parent after) parents parents'
  identified : ∀ parent ∈ parents, ∃ value, id.get parent = .ok value
  keyed : ∀ child ∈ children, ∃ value, foreignKey.get child = .ok value
  null : ∀ (i : Nat) (parent after : Instance) (value : Value), parents[i]? = some parent →
    parents'[i]? = some after → id.get parent = .ok value → value.isNull = true →
    after.collection slot = []
  unmatched : ∀ (i : Nat) (parent after : Instance) (value : Value), parents[i]? = some parent →
    parents'[i]? = some after → id.get parent = .ok value →
    (∀ child ∈ children, ∀ key, foreignKey.get child = .ok key → key.key ≠ value.key) →
    after.collection slot = []
  shared : ∀ (i j : Nat) (parent parent₂ after after₂ : Instance), parents[i]? = some parent →
    parents[j]? = some parent₂ → parents'[i]? = some after → parents'[j]? = some after₂ →
    parentKey id parent = parentKey id parent₂ → after.collection slot = after₂.collection slot
  orphans : ∀ child ∈ children,
    (∀ parent ∈ parents, belongsTo id foreignKey parent child = false) →
    ∀ after ∈ parents', child ∉ after.collection slot

theorem belongsTo_iff {id foreignKey : SimpleProperty} {parent child : Instance} :
    belongsTo id foreignKey parent child = true ↔
      ∃ value key, id.get parent = .ok value ∧ value.isNull = false ∧
        foreignKey.get child = .ok key ∧ key.key = value.key := by
  unfold belongsTo parentKey keyOf
  cases hkey : foreignKey.get child with
  | error e => simp
  | ok key =>
    cases hid : id.get parent with
    | error e => simp
    | ok value => cases hnull : value.isNull <;> simp [hnull, Eq.comm (b := key.key)]

theorem HandedOut.of_refilled {slot : String} {id foreignKey : SimpleProperty}
    {children parents parents' : List Instance}
    (refilled : List.Forall₂ (fun parent after =>
      Refilled slot (childrenOf id foreignKey children parent) parent after) parents parents')
    (identified : ∀ parent ∈ parents, ∃ value, id.get parent = .ok value)
    (keyed : ∀ child ∈ children, ∃ value, foreignKey.get child = .ok value) :
    HandedOut slot id foreignKey children parents parents' := by
  have hat : ∀ {i : Nat} {parent after : Instance}, parents[i]? = some parent →
      parents'[i]? = some after → after.collection slot = childrenOf id foreignKey children parent := by
    intro i parent after hparent hafter
    obtain ⟨hi, rfl⟩ := List.getElem?_eq_some_iff.1 hparent
    obtain ⟨hi', rfl⟩ := List.getElem?_eq_some_iff.1 hafter
    exact (refilled.get hi hi').collection
  refine ⟨refilled, identified, keyed, ?null, ?unmatched, ?shared, ?orphans⟩
  case null =>
    intro i parent after value hparent hafter hvalue hnull
    rw [hat hparent hafter, childrenOf, List.filter_eq_nil_iff]
    intro child _ hbelongs
    obtain ⟨value', key, hvalue', hnot, -⟩ := belongsTo_iff.1 hbelongs
    cases hvalue.symm.trans hvalue'
    rw [hnull] at hnot
    cases hnot
  case unmatched =>
    intro i parent after value hparent hafter hvalue hno
    rw [hat hparent hafter, childrenOf, List.filter_eq_nil_iff]
    intro child hchild hbelongs
    obtain ⟨value', key, hvalue', -, hkey, hsame⟩ := belongsTo_iff.1 hbelongs
    cases hvalue.symm.trans hvalue'
    exact hno child hchild key hkey hsame
  case shared =>
    intro i j parent parent₂ after after₂ hparent hparent₂ hafter hafter₂ hsame
    rw [hat hparent hafter, hat hparent₂ hafter₂]
    unfold childrenOf belongsTo
    rw [hsame]
  case orphans =>
    intro child _ hno after hafter hmem
    obtain ⟨i, hi⟩ := List.mem_iff_getElem?.1 hafter
    obtain ⟨hi', -⟩ := List.getElem?_eq_some_iff.1 hi
    have hlt : i < parents.length := refilled.length_eq ▸ hi'
    rw [hat (List.getElem?_eq_getElem hlt) hi] at hmem
    have hbelongs := (List.mem_filter.1 hmem).2
    rw [hno _ (List.getElem_mem hlt)] at hbelongs
    cases hbelongs

variable [DecidableEq E] [Connection C]

/-- A load that ends well has asked one query, mapped all its rows, and left every parent with the
children of its key in the order of the rows. -/
theorem collections_of_load {entity : E} {name : String} {parents parents' : List Instance}
    {session session' : Session E C}
    (h : load entity name parents session = (⟨.ok (), parents'⟩, session')) :
    ∃ association childMapper id foreignKey statement rows children,
      Wired session'.cache entity name association childMapper id foreignKey ∧
      (session.cache.Describes session.schema →
        (session.schema.declaration entity).associations.find? (·.property = name) =
          some association) ∧
      Connection.query statement session.connection = .ok rows session'.connection ∧
      List.Forall₂ (fun row child => childMapper.mapRow row.view = .ok child) rows children ∧
      HandedOut association.slot id foreignKey children parents parents' := by
  obtain ⟨plan, rows, orphans, session₁, hfetch, hdistribute, hcache, hconnection⟩ := load_ok h
  obtain ⟨hquery, hready⟩ := fetch_ok hfetch
  obtain ⟨id, hwired, howners⟩ := hready.wired
  obtain ⟨children, hmapped, hkeyed, rfl⟩ := distribute_ok howners hdistribute
  refine ⟨plan.association, plan.childMapper, id, plan.foreignKey, plan.statement, rows, children,
    hcache ▸ hwired, ?_, hconnection ▸ hquery, hmapped, ?_⟩
  · intro hd
    obtain ⟨mapper, hmapper, hfound, -⟩ := hwired.parent
    obtain ⟨simple, nested, rfl⟩ := hready.described hd entity mapper hmapper
    exact hfound
  · refine .of_refilled ?_ (Owners.get_of_addAll howners) hkeyed
    rw [List.forall₂_map_right_iff, List.forall₂_same]
    exact fun parent _ => refilled_withCollection _ _ parent

/-! ## A library -/

/-- Authors and their books. -/
inductive Library where
  | author
  | book
  deriving DecidableEq

namespace Library

def words : ColumnType := ⟨⟨"String", .scalar .text, none⟩, .text⟩

def schema : Schema Library where
  entities := [.author, .book]
  complete entity := by cases entity <;> simp
  declaration
    | .author => .ofProperties "library::Author" "authors" "name" [.optional "name" words "name"]
        [⟨"books", "books", .book, some "author", []⟩]
    | .book => .ofProperties "library::Book" "books" "title"
        [.field "title" words "title", .optional "author" words "author"] []

/-- An author who holds a book from an earlier load. -/
def named (name : Value) : Instance :=
  (Instance.empty.withColumn "name" name).withCollection "books" [.empty]

def written (title : String) (author : Value) : Row :=
  .ofPairs [("title", .text title), ("author", author)]

def session (books : List Row) : Session Library RecordingConnection :=
  { Session.ofConfig schema { tables := [("books", books)] } .standard with registered := [.book] }

def titles (authors : List Instance) : List (List ValueKey) :=
  authors.map fun author => (author.collection "books").map fun book => (book.column "title").key

/-- Of three authors two have one name and one has none. -/
def authors : List Instance :=
  [named (.text "Le Guin"), named .null, named (.text "Le Guin")]

def books : List Row :=
  [written "Rocannon" (.text "Le Guin"), written "Solaris" (.text "Lem"),
    written "Beowulf" .null, written "Malafrena" (.text "Le Guin")]

end Library

theorem collections_of_load_library :
    ∃ parents' session',
      load .author "books" Library.authors (Library.session Library.books) =
        (⟨.ok (), parents'⟩, session') ∧
      Library.titles parents' = [[.text "Rocannon", .text "Malafrena"], [],
        [.text "Rocannon", .text "Malafrena"]] ∧
      ∃ id foreignKey children, HandedOut "books" id foreignKey children Library.authors parents' := by
  have hok : (load .author "books" Library.authors
      (Library.session Library.books)).1.result.isOk = true := by decide +kernel
  have htitles : Library.titles (load .author "books" Library.authors
      (Library.session Library.books)).1.parents = [[.text "Rocannon", .text "Malafrena"], [],
        [.text "Rocannon", .text "Malafrena"]] := by decide +kernel
  rcases hload : load .author "books" Library.authors (Library.session Library.books) with
    ⟨⟨e | u, parents'⟩, session'⟩
  · rw [hload] at hok
    cases hok
  · rw [hload] at htitles
    obtain ⟨association, childMapper, id, foreignKey, statement, rows, children, -, hdeclared, -, -,
      hhanded⟩ := collections_of_load hload
    have hfound := hdeclared (MetadataCache.describes_ofChain _ _)
    have hslots := congrArg (Option.map AssociationDecl.slot) hfound
    have hslot : "books" = association.slot := Option.some.inj hslots
    rw [← hslot] at hhanded
    exact ⟨parents', session', hload, htitles, id, foreignKey, children, hhanded⟩

end ObjectRelational.Association
