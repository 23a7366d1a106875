import ObjectRelational.Mapping.Cache
import ObjectRelational.Proofs.Mapping.Flattening

/-! # Null cells and initial values

A null cell stores nothing. The property it is for keeps what it holds in an object that nothing is
stored in yet, and that need not be null, although the setter of an optional property would store
null.

* `RowMapper.FindsCell`: a mapper finds something to store;
* `RowMapper.Located.mapped`: an object at a path is what its mapper makes of the columns below it;
* `RowMapper.initial_of_null`: what a property holds whose cells are absent or null.
-/

namespace ObjectRelational

set_option autoImplicit false

namespace RowMapper

variable {E : Type} {mapper inner : RowMapper E} {view : RowView} {path : List String}

/-! ## Objects that come into being -/

/-- A mapper finds a cell that counts in one of the columns it looks up. -/
def FindsCell (mapper : RowMapper E) (view : RowView) : Prop :=
  ∃ lookup ∈ mapper.lookups, view.cell? lookup.name ≠ none

/-- What is found for a nested object at any depth is found for the object around it. -/
theorem Within.findsCell (h : Within mapper path inner) :
    ∀ {view : RowView}, inner.FindsCell (view.below path) → mapper.FindsCell view := by
  induction h with
  | root mapper => exact id
  | inside hentry _ ih =>
    intro view hcell
    obtain ⟨lookup, hlookup, hne⟩ := ih hcell
    rw [cell?_under] at hne
    exact ⟨_, mem_lookups.2 (.inr ⟨_, hentry, lookup, hlookup, rfl⟩), hne⟩

theorem Located.within {object found : Instance} (h : Located mapper object path inner found) :
    Within mapper path inner := by
  induction h with
  | root mapper object => exact .root mapper
  | inside hentry _ _ ih => exact .inside hentry ih

/-- A nested object with a cell that counts is stored as its own mapper maps it. -/
theorem nested?_of_findsCell {root : Option Instance} (h : mapper.mapView view = .ok root)
    (hslots : (mapper.nested.map fun entry => entry.1.slot).Nodup)
    {entry : NestedProperty × RowMapper E} (hentry : entry ∈ mapper.nested)
    (hcell : entry.2.FindsCell (view.under entry.1.name)) :
    ∃ child, entry.2.mapView (view.under entry.1.name) = .ok (some child) ∧
      (root.getD mapper.metadata.blank).nested? entry.1.slot = some child := by
  obtain ⟨target, -, hnested⟩ := mapView_ok h
  obtain ⟨found, hfound⟩ := mapView_of_mapNested hnested entry hentry
  cases found with
  | none =>
    obtain ⟨lookup, hlookup, hne⟩ := hcell
    exact absurd ((eq_none_of_mapView entry.2 hfound).1 rfl lookup hlookup) hne
  | some child =>
    exact ⟨child, hfound, (nested?_mapNested_of_mem hnested hslots hentry hfound).trans rfl⟩

/-- Slots that no cell is stored in are as in an object that nothing is stored in. -/
theorem column_mapView_of_none {root : Option Instance} (h : mapper.mapView view = .ok root)
    {slot : String} (hnone : ∀ property ∈ mapper.metadata.simple, property.slot = slot →
      view.cell? property.column = none) :
    (root.getD mapper.metadata.blank).column slot = mapper.metadata.blank.column slot := by
  obtain ⟨target, hsimple, hnested⟩ := mapView_ok h
  rw [column_mapNested hnested, column_mapSimple_of_none hsimple hnone]
  rfl

/-- The nested properties of every mapper in a tree have slots of their own. -/
def NestsApart (mapper : RowMapper E) : Prop :=
  ∀ path inner, Within mapper path inner → (inner.nested.map fun entry => entry.1.slot).Nodup

theorem NestsApart.entry (h : mapper.NestsApart) {entry : NestedProperty × RowMapper E}
    (hentry : entry ∈ mapper.nested) : entry.2.NestsApart :=
  fun _ inner hwithin => h _ inner (.inside hentry hwithin)

theorem Within.exists_located (hwithin : Within mapper path inner) :
    ∀ {view : RowView} {root : Option Instance}, mapper.NestsApart →
      mapper.mapView view = .ok root → (path = [] ∨ inner.FindsCell (view.below path)) →
        ∃ found, Located mapper (root.getD mapper.metadata.blank) path inner found := by
  induction hwithin with
  | root mapper => exact fun _ _ _ => ⟨_, .root mapper _⟩
  | inside hentry hinner ih =>
    intro view root hapart h hallocated
    have hcell := hallocated.resolve_left (List.cons_ne_nil _ _)
    obtain ⟨child, hmapped, hchild⟩ :=
      nested?_of_findsCell h (hapart [] _ (.root _)) hentry (hinner.findsCell hcell)
    obtain ⟨found, hfound⟩ := ih (hapart.entry hentry) hmapped (.inr hcell)
    exact ⟨found, .inside hentry hchild hfound⟩

/-- An object that a cell brings into being is what its mapper makes of the columns below its path. -/
theorem Located.mapped {object found : Instance}
    (hlocated : Located mapper object path inner found) :
    ∀ {view : RowView} {root : Option Instance}, mapper.NestsApart →
      mapper.mapView view = .ok root → root.getD mapper.metadata.blank = object →
      (path = [] ∨ inner.FindsCell (view.below path)) →
        ∃ result, inner.mapView (view.below path) = .ok result ∧
          result.getD inner.metadata.blank = found := by
  induction hlocated with
  | root mapper object =>
    intro view root _ h hobject _
    exact ⟨root, h, hobject⟩
  | inside hentry hchild hfound ih =>
    intro view root hapart h hobject hallocated
    have hcell := hallocated.resolve_left (List.cons_ne_nil _ _)
    obtain ⟨child, hmapped, hstored⟩ :=
      nested?_of_findsCell h (hapart [] _ (.root _)) hentry (hfound.within.findsCell hcell)
    rw [hobject, hchild] at hstored
    cases hstored
    exact ih (hapart.entry hentry) hmapped rfl (.inr hcell)

/-- In the object of a row, and in every nested object that some cell brings into being, a property
whose cells are absent or null holds what it holds before anything is stored: it is null exactly if
it is so initially. -/
theorem initial_of_null (hapart : mapper.NestsApart) {object : Instance}
    (h : mapper.mapRow view = .ok object) (hwithin : Within mapper path inner)
    (hallocated : path = [] ∨ ∃ lookup ∈ inner.lookups,
      view.cell? (".".intercalate (path ++ [lookup.name])) ≠ none) :
    (∃ found, Located mapper object path inner found) ∧
      ∀ found, Located mapper object path inner found → ∀ property ∈ inner.metadata.simple,
        (∀ other ∈ inner.metadata.simple, other.slot = property.slot →
          view.cell? (".".intercalate (path ++ [other.column])) = none) →
        found.column property.slot = inner.metadata.blank.column property.slot := by
  simp only [← RowView.cell?_below] at hallocated ⊢
  obtain ⟨root, hroot, rfl⟩ := mapRow_ok h
  refine ⟨hwithin.exists_located hapart hroot hallocated, ?_⟩
  intro found hlocated property _ hnone
  obtain ⟨result, hresult, rfl⟩ := hlocated.mapped hapart hroot rfl hallocated
  exact column_mapView_of_none hresult hnone

/-! ## Members of clubs -/

namespace Clubs

def nickname : SimpleProperty :=
  ⟨"nickname", "nickname", "nick", Users.nameOf.type, true, .passThrough "text"⟩

/-- A member has a nickname unless another is stored. -/
def member : RowMapper Unit :=
  mk ⟨(), "Member", "members", "name", [Users.nameOf, nickname], [],
    Instance.empty.withColumn "nickname" (.text "newcomer")⟩ []

def club : RowMapper Unit :=
  Users.named "Club" "clubs" [(⟨"chair", "chair", none⟩, member)]

theorem nestsApart_club : club.NestsApart := by
  intro path inner h
  rcases h with _ | ⟨hentry, h⟩
  · decide
  · obtain rfl := List.mem_singleton.1 hentry
    rcases h with _ | ⟨hentry, h⟩
    · decide
    · cases hentry

def row : Row :=
  .ofPairs [("name", .text "Chess"), ("chair.name", .text "Ada"), ("chair.nick", .null)]

end Clubs

theorem initial_of_null_club : ∃ object found, Clubs.club.mapRow Clubs.row.view = .ok object ∧
    Located Clubs.club object ["chair"] Clubs.member found ∧
      found.column "nickname" = .text "newcomer" := by
  have hmapped : (Clubs.club.mapRow Clubs.row.view).toOption.isSome = true := by decide +kernel
  cases h : Clubs.club.mapRow Clubs.row.view with
  | error e =>
    rw [h] at hmapped
    cases hmapped
  | ok object =>
    have hentry : (⟨"chair", "chair", none⟩, Clubs.member) ∈ Clubs.club.nested :=
      List.mem_singleton.2 rfl
    have hwithin : Within Clubs.club ["chair"] Clubs.member := .inside hentry (.root Clubs.member)
    have hname : ∃ lookup ∈ Clubs.member.lookups, Clubs.row.view.cell?
        (".".intercalate (["chair"] ++ [lookup.name])) ≠ none :=
      ⟨.own "name", mem_lookups.2 (.inl ⟨Users.nameOf, List.mem_cons_self, rfl⟩), by decide +kernel⟩
    obtain ⟨⟨found, hlocated⟩, hkept⟩ :=
      initial_of_null Clubs.nestsApart_club h hwithin (.inr hname)
    refine ⟨object, found, rfl, hlocated, ?_⟩
    have hnull : ∀ other ∈ [Users.nameOf, Clubs.nickname], other.slot = "nickname" →
        Clubs.row.view.cell? (".".intercalate (["chair"] ++ [other.column])) = none := by
      decide +kernel
    have hcolumn := hkept found hlocated Clubs.nickname (by simp [Clubs.member, metadata]) hnull
    exact hcolumn.trans (by simp [Clubs.member, Clubs.nickname, metadata])

namespace Clubs

/-- A schema of members alone. -/
def members : Schema Unit where
  entities := [()]
  complete _ := List.mem_singleton.2 rfl
  declaration _ := { EntityDecl.ofProperties "Member" "members" "name"
      [.field "name" Users.nameOf.type "name",
        (.optional "nickname" Users.nameOf.type "nickname" : PropertyDecl Unit).inColumn "nick"] []
    with blank := Instance.empty.withColumn "nickname" (.text "newcomer") }

def built : EStateM.Result ConfigError (MetadataCache Unit) (RowMapper Unit) :=
  MetadataCache.mapper members .snakeCase () (.ofChain (Engine.generic.chain 4326))

def card : Row :=
  .ofPairs [("name", .text "Ada"), ("nick", .null)]

/-- What the row of a member leaves in the slot of the nickname. -/
def seen (mapper : RowMapper Unit) : Option ValueKey :=
  (mapper.mapRow card.view).toOption.map fun object => (object.column "nickname").key

end Clubs

/-- An optional property can hold a value although its cell is null. -/
theorem not_null_of_null : ¬ ∀ (schema : Schema Unit) (naming : NamingConvention) (entity : Unit)
    (chain : Chain) (mapper : RowMapper Unit) (cache : MetadataCache Unit),
    MetadataCache.mapper schema naming entity (.ofChain chain) = .ok mapper cache →
      ∀ (view : RowView) (object : Instance), mapper.mapRow view = .ok object →
        ∀ property ∈ mapper.metadata.simple, property.optional = true →
          (∃ cell, view property.column = some cell ∧ cell.isNull = true) →
            object.column property.slot = .null := by
  intro hall
  have hseen : (match Clubs.built with
      | .ok mapper _ => some (mapper.metadata.simple.map fun property =>
          (property.slot, property.column, property.optional), Clubs.seen mapper)
      | .error _ _ => none) =
        some ([("name", "name", false), ("nickname", "nick", true)], some (.text "newcomer")) := by
    decide +kernel
  cases hbuilt : Clubs.built with
  | error e cache =>
    rw [hbuilt] at hseen
    cases hseen
  | ok mapper cache =>
    rw [hbuilt] at hseen
    obtain ⟨hproperties, hnickname⟩ := Prod.mk.inj (Option.some.inj hseen)
    have hmem : ("nickname", "nick", true) ∈ mapper.metadata.simple.map fun property =>
        (property.slot, property.column, property.optional) := by
      rw [hproperties]
      exact List.mem_cons_of_mem _ List.mem_cons_self
    obtain ⟨property, hproperty, hdeclared⟩ := List.mem_map.1 hmem
    obtain ⟨hslot, hcolumn, hoptional⟩ : property.slot = "nickname" ∧ property.column = "nick" ∧
        property.optional = true := by simpa using hdeclared
    obtain ⟨object, hobject, hkey⟩ := Option.map_eq_some_iff.1 hnickname
    cases hmapped : mapper.mapRow Clubs.card.view with
    | error e =>
      rw [hmapped] at hobject
      cases hobject
    | ok found =>
      rw [hmapped] at hobject
      cases hobject
      have hnull := hall Clubs.members .snakeCase () _ mapper cache hbuilt _ object hmapped property
        hproperty hoptional ⟨.null, by rw [hcolumn]; rfl, rfl⟩
      rw [← hslot, hnull] at hkey
      cases hkey

end RowMapper

end ObjectRelational
