import ObjectRelational.Proofs.Mapping.Lookups
import ObjectRelational.Value.Key

/-! # Rows are flattened objects

An object at a path below the object of a row holds what the columns under that path say. Whether
there is one at all is decided by the columns under its path, at any depth.

* `OwnFields`: the properties of an object do not share their fields;
* `Located`: an object at a path of nested properties;
* `mapView_located`: what is found at a path is what its mapper makes of the columns below it;
* `flattened_of_mapRow`: all of this for whole rows.
-/

namespace ObjectRelational

set_option autoImplicit false

/-! ## Columns below a path -/

def RowView.below (view : RowView) (path : List String) : RowView :=
  path.foldl RowView.under view

theorem RowView.below_apply (view : RowView) (path : List String) (column : String) :
    view.below path column = view (".".intercalate (path ++ [column])) := by
  induction path generalizing view with
  | nil => simp [below]
  | cons name rest ih =>
    have hstep : view.below (name :: rest) column = (view.under name).below rest column := rfl
    rw [hstep, ih, List.cons_append, String.intercalate_cons_of_ne_nil (by simp)]
    rfl

theorem RowView.cell?_below (view : RowView) (path : List String) (column : String) :
    (view.below path).cell? column = view.cell? (".".intercalate (path ++ [column])) := by
  unfold cell?
  rw [below_apply]

theorem RowView.below_append (view : RowView) (path : List String) (name : String) :
    view.below (path ++ [name]) = (view.below path).under name := by
  simp [below]

namespace RowMapper

variable {E : Type}

/-! ## Objects at a path -/

/-- Every property has a field of its own, and nothing is nested in an instance at first. -/
structure OwnFields (mapper : RowMapper E) : Prop where
  simple : (mapper.metadata.simple.map SimpleProperty.slot).Nodup
  nested : (mapper.nested.map fun entry => entry.1.slot).Nodup
  empty : ∀ entry ∈ mapper.nested, mapper.metadata.blank.nested? entry.1.slot = none

/-- The object at a path below another, with its mapper. -/
inductive Located : RowMapper E → Instance → List String → RowMapper E → Instance → Prop
  | root (mapper : RowMapper E) (object : Instance) : Located mapper object [] mapper object
  | inside {mapper inner : RowMapper E} {object child found : Instance}
      {entry : NestedProperty × RowMapper E} {path : List String} (hentry : entry ∈ mapper.nested)
      (hchild : object.nested? entry.1.slot = some child)
      (hfound : Located entry.2 child path inner found) :
      Located mapper object (entry.1.name :: path) inner found

/-- What a mapper finds in a view: every simple property shows its cell, and every nested property
holds what its own mapper finds below its name. -/
theorem mapView_fields {mapper : RowMapper E} (hfields : mapper.OwnFields) {view : RowView}
    {found : Option Instance} (h : mapper.mapView view = .ok found) :
    (∀ property ∈ mapper.metadata.simple, property.Shows (view.cell? property.column)
      mapper.metadata.blank (found.getD mapper.metadata.blank)) ∧
    ∀ entry ∈ mapper.nested, entry.2.mapView (view.under entry.1.name) =
      .ok ((found.getD mapper.metadata.blank).nested? entry.1.slot) := by
  obtain ⟨target, hsimple, hnested⟩ := mapView_ok h
  constructor
  · intro property hproperty
    have hshows := shows_mapSimple hsimple hfields.simple property hproperty
    unfold SimpleProperty.Shows at hshows ⊢
    rw [column_mapNested hnested]
    exact hshows
  · apply nested?_mapNested hnested hfields.nested
    intro entry hentry
    rw [nested?_mapSimple hsimple]
    exact hfields.empty entry hentry

/-- The object at a path is what its mapper finds in the columns below that path. -/
theorem mapView_located {mapper inner : RowMapper E} {object found : Instance} {path : List String}
    (hlocated : Located mapper object path inner found) :
    ∀ {view : RowView} {root : Option Instance},
      (∀ path inner, Within mapper path inner → inner.OwnFields) →
      mapper.mapView view = .ok root → root.getD mapper.metadata.blank = object →
        inner.OwnFields ∧ ∃ result, inner.mapView (view.below path) = .ok result ∧
          result.getD inner.metadata.blank = found := by
  induction hlocated with
  | root mapper object =>
    intro view root hfields h hobject
    exact ⟨hfields [] mapper (.root mapper), root, h, hobject⟩
  | inside hentry hchild hfound ih =>
    intro view root hfields h hobject
    have hnested := (mapView_fields (hfields [] _ (.root _)) h).2 _ hentry
    rw [hobject, hchild] at hnested
    exact ih (fun path inner hwithin => hfields _ inner (.inside hentry hwithin)) hnested rfl

/-! ## Rows -/

/-- An object is the flattened content of a view. -/
structure Flattened (mapper : RowMapper E) (view : RowView) (object : Instance) : Prop where
  /-- A simple property shows the cell of its column under the path of its object. -/
  simple : ∀ path inner found, Located mapper object path inner found →
    ∀ property ∈ inner.metadata.simple,
      property.Shows (view.cell? (".".intercalate (path ++ [property.column])))
        inner.metadata.blank found
  /-- A nested object is missing exactly if no column below it has a cell that counts. -/
  nested : ∀ path inner found, Located mapper object path inner found →
    ∀ entry ∈ inner.nested, (found.nested? entry.1.slot = none ↔
      ∀ lookup ∈ entry.2.lookups,
        view.cell? (".".intercalate (path ++ [entry.1.name, lookup.name])) = none)
  /-- Without any cell the object is as it is before anything is stored in it. -/
  blank : (∀ lookup ∈ mapper.lookups, view.cell? lookup.name = none) →
    object = mapper.metadata.blank

theorem mapRow_ok {mapper : RowMapper E} {view : RowView} {object : Instance}
    (h : mapper.mapRow view = .ok object) :
    ∃ root, mapper.mapView view = .ok root ∧ root.getD mapper.metadata.blank = object := by
  obtain ⟨root, hroot, hobject⟩ := except_bind_ok h
  cases hobject
  exact ⟨root, hroot, rfl⟩

/-- A property that shares its slot with no other is stored from its cell. -/
theorem fromCell_of_mapView {mapper : RowMapper E} {view : RowView} {root : Option Instance}
    (h : mapper.mapView view = .ok root) {property : SimpleProperty}
    (hmem : property ∈ mapper.metadata.simple)
    (halone : ∀ other ∈ mapper.metadata.simple, other.slot = property.slot → other = property)
    {cell : Value} (hcell : view.cell? property.column = some cell) :
    property.fromCell cell = .ok ((root.getD mapper.metadata.blank).column property.slot) := by
  obtain ⟨target, hsimple, hnested⟩ := mapView_ok h
  have hshows := shows_of_alone hsimple hmem halone
  unfold SimpleProperty.Shows at hshows
  rw [hcell] at hshows
  rw [column_mapNested hnested]
  exact hshows

theorem fromCell_of_mapRow {mapper : RowMapper E} {view : RowView} {object : Instance}
    (h : mapper.mapRow view = .ok object) {property : SimpleProperty}
    (hmem : property ∈ mapper.metadata.simple)
    (halone : ∀ other ∈ mapper.metadata.simple, other.slot = property.slot → other = property)
    {cell : Value} (hcell : view.cell? property.column = some cell) :
    property.fromCell cell = .ok (object.column property.slot) := by
  obtain ⟨root, hroot, rfl⟩ := mapRow_ok h
  exact fromCell_of_mapView hroot hmem halone hcell

/-- The object of a row is the flattened content of the row, and a nested object depends on no
columns but those whose names continue its path after a dot. -/
theorem flattened_of_mapRow {mapper : RowMapper E} {view : RowView} {object : Instance}
    (hfields : ∀ path inner, Within mapper path inner → inner.OwnFields)
    (h : mapper.mapRow view = .ok object) :
    Flattened mapper view object ∧
    ∀ view' object', mapper.mapRow view' = .ok object' →
      ∀ path inner found found', Located mapper object path inner found →
        Located mapper object' path inner found' → ∀ entry ∈ inner.nested,
          (∀ column : String,
            (".".intercalate (path ++ [entry.1.name]) ++ ".").toList <+: column.toList →
              view column = view' column) →
          found.nested? entry.1.slot = found'.nested? entry.1.slot := by
  obtain ⟨root, hroot, hobject⟩ := mapRow_ok h
  refine ⟨⟨?simple, ?nested, ?blank⟩, ?locality⟩
  case simple =>
    intro path inner found hlocated property hproperty
    obtain ⟨hown, result, hresult, rfl⟩ := mapView_located hlocated hfields hroot hobject
    have hshows := (mapView_fields hown hresult).1 property hproperty
    rwa [RowView.cell?_below] at hshows
  case nested =>
    intro path inner found hlocated entry hentry
    obtain ⟨hown, result, hresult, rfl⟩ := mapView_located hlocated hfields hroot hobject
    rw [eq_none_of_mapView entry.2 ((mapView_fields hown hresult).2 entry hentry)]
    rw [← RowView.below_append]
    simp only [RowView.cell?_below, List.append_assoc, List.cons_append, List.nil_append]
  case blank =>
    intro hnone
    have hroot_none := (eq_none_of_mapView mapper hroot).2 hnone
    rw [← hobject, hroot_none]
    rfl
  case locality =>
    intro view' object' h' path inner found found' hlocated hlocated' entry hentry hagree
    obtain ⟨root', hroot', hobject'⟩ := mapRow_ok h'
    obtain ⟨hown, result, hresult, rfl⟩ := mapView_located hlocated hfields hroot hobject
    obtain ⟨-, result', hresult', rfl⟩ := mapView_located hlocated' hfields hroot' hobject'
    have hbelow : (view.below path).under entry.1.name = (view'.below path).under entry.1.name := by
      rw [← RowView.below_append, ← RowView.below_append]
      funext column
      rw [RowView.below_apply, RowView.below_apply]
      have hname : ".".intercalate (path ++ [entry.1.name] ++ [column]) =
          ".".intercalate (path ++ [entry.1.name]) ++ "." ++ column := by
        rw [String.intercalate_append_of_ne_nil (by simp) (by simp), String.intercalate_singleton]
      apply hagree
      rw [hname]
      exact ⟨column.toList, String.toList_append.symm⟩
    have hmapped := (mapView_fields hown hresult).2 entry hentry
    have hmapped' := (mapView_fields hown hresult').2 entry hentry
    rw [hbelow, hmapped'] at hmapped
    exact (Except.ok.inj hmapped).symm

/-! ## A row of a user -/

namespace Users

theorem ownFields_user {path : List String} {inner : RowMapper Unit}
    (h : Within user path inner) : inner.OwnFields := by
  obtain rfl | rfl | rfl | rfl := within_user h <;>
    exact ⟨by decide, by decide, by simp [user, group, owner, named, nested, metadata,
      Instance.nested?, Instance.empty]⟩

/-- A user whose group has no columns with values of its own but an owner. -/
def row : Row :=
  .ofPairs [("name", .typed "text" .null), ("address.name", .typed "text" .null),
    ("group.name", .null), ("group.owner.name", .text "Ada")]

def names (object : Instance) : List (Option ValueKey) :=
  [(object.nested? "address").map fun address => (address.column "name").key,
    ((object.nested? "group").bind fun group => group.nested? "owner").map fun owner =>
      (owner.column "name").key]

end Users

theorem flattened_of_mapRow_user :
    ∃ object, Users.user.mapRow Users.row.view = .ok object ∧
      Users.names object = [none, some (.text "Ada")] ∧
      Flattened Users.user Users.row.view object := by
  have hnames : (Users.user.mapRow Users.row.view).toOption.map Users.names =
      some [none, some (.text "Ada")] := by decide +kernel
  cases h : Users.user.mapRow Users.row.view with
  | error e =>
    rw [h] at hnames
    cases hnames
  | ok object =>
    rw [h] at hnames
    have hflat := (flattened_of_mapRow (fun _ _ => Users.ownFields_user) h).1
    exact ⟨object, rfl, Option.some.inj hnames, hflat⟩

end RowMapper

end ObjectRelational
