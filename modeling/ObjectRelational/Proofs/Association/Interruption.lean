import ObjectRelational.Proofs.Association.Distribution

/-! # Loads that stop at a row

A load whose query has been answered fails at the first row that has no child to hand out. The
collections have been emptied by then and the children of the rows before it are in their places:
nothing is taken back. Apart from that collection the parents are as they were.

* `childOf_error`: why a row has no child to hand out;
* `giveAll_error`: the row at which handing out stops, and what has been handed out by then;
* `collections_of_interrupted_load`: the parents after a load that stops at a row.
-/

namespace ObjectRelational.Association

set_option autoImplicit false

variable {E C : Type}

theorem childOf_error {plan : Plan E} {row : Row} {fault : MappingError}
    (h : childOf plan row = .error fault) :
    plan.childMapper.mapRow row.view = .error fault ∨
      ∃ child, plan.childMapper.mapRow row.view = .ok child ∧
        plan.foreignKey.get child = .error fault := by
  unfold childOf at h
  cases hchild : plan.childMapper.mapRow row.view with
  | error e =>
    rw [hchild] at h
    cases h
    exact .inl rfl
  | ok child =>
    rw [hchild] at h
    cases hkey : plan.foreignKey.get child with
    | error e =>
      simp only [bind, Except.bind, hkey] at h
      cases h
      exact .inr ⟨child, rfl, hkey⟩
    | ok value =>
      simp only [bind, Except.bind, hkey] at h
      cases h

theorem giveAll_error {plan : Plan E} {rows : List Row} {fault : MappingError} :
    ∀ {orphans : Nat} {parents parents' : List Instance},
      giveAll plan orphans rows parents = (.error fault, parents') →
        ∃ earlier row later, ∃ given : List (Instance × ValueKey),
          rows = earlier ++ row :: later ∧
          List.Forall₂ (fun row entry => childOf plan row = .ok entry) earlier given ∧
          childOf plan row = .error fault ∧
          parents' = given.foldl (fun parents entry =>
            give plan.association.slot entry.1 (plan.owners.placesOf entry.2) parents) parents := by
  induction rows with
  | nil =>
    intro orphans parents parents' h
    cases h
  | cons row rest ih =>
    intro orphans parents parents' h
    unfold giveAll at h
    cases hrow : childOf plan row with
    | error e =>
      rw [hrow] at h
      cases h
      exact ⟨[], row, rest, [], rfl, .nil, hrow, rfl⟩
    | ok entry =>
      rw [hrow] at h
      have hrest : ∃ counted, giveAll plan counted rest (give plan.association.slot entry.1
          (plan.owners.placesOf entry.2) parents) = (.error fault, parents') := by
        cases hplaces : plan.owners.placesOf entry.2 with
        | nil =>
          simp only [hplaces] at h
          exact ⟨_, h⟩
        | cons place places =>
          simp only [hplaces] at h
          exact ⟨_, h⟩
      obtain ⟨counted, hrest⟩ := hrest
      obtain ⟨earlier, failing, later, given, hrows, hgiven, hfault, hparents⟩ := ih hrest
      refine ⟨row :: earlier, failing, later, entry :: given, ?_, .cons hrow hgiven, hfault,
        hparents⟩
      rw [hrows, List.cons_append]

section Loads

variable [DecidableEq E] [Connection C]

/-- A load with an answered query fails in handing out the children. -/
theorem distribute_of_load_error {entity : E} {name : String} {parents parents' : List Instance}
    {plan : Plan E} {rows : List Row} {e : Error} {session answered session' : Session E C}
    (hfetch : fetch entity name parents session = .ok (plan, rows) answered)
    (h : load entity name parents session = (⟨.error e, parents'⟩, session')) :
    ∃ fault, e = .mapping fault ∧ distribute plan rows parents = (.error fault, parents') ∧
      session' = answered := by
  unfold load at h
  rw [hfetch] at h
  rcases hdistribute : distribute plan rows parents with ⟨fault | orphans, after⟩
  · simp only [hdistribute] at h
    cases h
    exact ⟨fault, rfl, rfl, rfl⟩
  · simp only [hdistribute] at h
    cases orphans <;> cases h

/-- A load that fails although its query has been answered has come to a row that cannot be mapped
to a child, or whose child's foreign key cannot be read, and fails with that fault. Whatever the
parents held under the association, each now holds the children of the rows before that row that
belong to it, in the order of the rows, and nothing else about it has changed. -/
theorem collections_of_interrupted_load {entity : E} {name : String}
    {parents parents' : List Instance} {plan : Plan E} {rows : List Row} {e : Error}
    {session answered session' : Session E C}
    (hfetch : fetch entity name parents session = .ok (plan, rows) answered)
    (h : load entity name parents session = (⟨.error e, parents'⟩, session')) :
    ∃ id fault earlier row later children,
      Wired session'.cache entity name plan.association plan.childMapper id plan.foreignKey ∧
      Connection.query plan.statement session.connection = .ok rows session'.connection ∧
      e = .mapping fault ∧
      rows = earlier ++ row :: later ∧
      List.Forall₂ (fun row child => plan.childMapper.mapRow row.view = .ok child)
        earlier children ∧
      (plan.childMapper.mapRow row.view = .error fault ∨
        ∃ child, plan.childMapper.mapRow row.view = .ok child ∧
          plan.foreignKey.get child = .error fault) ∧
      HandedOut plan.association.slot id plan.foreignKey children parents parents' := by
  obtain ⟨fault, rfl, hdistribute, rfl⟩ := distribute_of_load_error hfetch h
  obtain ⟨hquery, hready⟩ := fetch_ok hfetch
  obtain ⟨id, hwired, howners⟩ := hready.wired
  obtain ⟨earlier, row, later, given, hrows, hgiven, hfault, hparents⟩ := giveAll_error hdistribute
  have hkeyed := keyed_of_forall₂ hgiven
  have hmapped : List.Forall₂ (fun row child => plan.childMapper.mapRow row.view = .ok child)
      earlier (given.map Prod.fst) := by
    rw [List.forall₂_map_right_iff]
    exact hgiven.imp fun row entry hrow => (childOf_ok hrow).1
  refine ⟨id, fault, earlier, row, later, given.map Prod.fst, hwired, hquery, rfl, hrows, hmapped,
    childOf_error hfault, ?_⟩
  rw [foldl_give_emptied howners _ hkeyed] at hparents
  subst hparents
  refine .of_refilled ?_ (Owners.get_of_addAll howners) ?_
  · rw [List.forall₂_map_right_iff, List.forall₂_same]
    exact fun parent _ => refilled_withCollection _ _ parent
  · intro child hchild
    obtain ⟨entry, hmem, rfl⟩ := List.mem_map.1 hchild
    obtain ⟨value, hvalue, -⟩ := hkeyed entry hmem
    exact ⟨value, hvalue⟩

end Loads

/-! ## A torn library -/

namespace Library

/-- The second book has bytes for a title. -/
def torn : List Row :=
  [written "Rocannon" (.text "Le Guin"),
    .ofPairs [("title", .bytes [0]), ("author", .text "Le Guin")],
    written "Malafrena" (.text "Le Guin")]

/-- Whether the query is answered by rows of which one cannot be mapped. -/
def tornAnswer : EStateM.Result Error (Session Library RecordingConnection)
    (Plan Library × List Row) → Bool
  | .ok (plan, rows) _ => rows.any fun row => !(plan.childMapper.mapRow row.view).isOk
  | .error _ _ => false

/-- The query is answered, and the load fails over one of the rows after the first has been handed
out. -/
theorem load_torn :
    ∃ plan rows answered fault parents' session',
      fetch .author "books" authors (session torn) = .ok (plan, rows) answered ∧
      load .author "books" authors (session torn) =
        (⟨.error (.mapping fault), parents'⟩, session') ∧
      (∃ row ∈ rows, ∃ e, plan.childMapper.mapRow row.view = .error e) ∧
      titles parents' = [[.text "Rocannon"], [], [.text "Rocannon"]] := by
  have hanswer : tornAnswer (fetch .author "books" authors (session torn)) = true := by
    decide +kernel
  have hfails : (load .author "books" authors (session torn)).1.result.isOk = false := by
    decide +kernel
  have htitles : titles (load .author "books" authors (session torn)).1.parents =
      [[.text "Rocannon"], [], [.text "Rocannon"]] := by decide +kernel
  rcases hfetch : fetch .author "books" authors (session torn) with
    ⟨⟨plan, rows⟩, answered⟩ | ⟨e, answered⟩
  · rcases hload : load .author "books" authors (session torn) with ⟨⟨e | u, parents'⟩, session'⟩
    · rw [hload] at htitles
      rw [hfetch] at hanswer
      obtain ⟨fault, rfl, -, -⟩ := distribute_of_load_error hfetch hload
      obtain ⟨row, hrow, hunmapped⟩ := List.any_eq_true.1 hanswer
      have hfault : ∃ e, plan.childMapper.mapRow row.view = .error e := by
        cases hmap : plan.childMapper.mapRow row.view with
        | error e => exact ⟨e, rfl⟩
        | ok child =>
          rw [hmap] at hunmapped
          cases hunmapped
      exact ⟨plan, rows, answered, fault, parents', session', hfetch, hload, ⟨row, hrow, hfault⟩,
        htitles⟩
    · rw [hload] at hfails
      cases hfails
  · rw [hfetch] at hanswer
    cases hanswer

end Library

theorem collections_of_interrupted_load_library :
    ∃ plan rows answered fault parents' session',
      fetch .author "books" Library.authors (Library.session Library.torn) =
        .ok (plan, rows) answered ∧
      load .author "books" Library.authors (Library.session Library.torn) =
        (⟨.error (.mapping fault), parents'⟩, session') ∧
      Library.titles parents' = [[.text "Rocannon"], [], [.text "Rocannon"]] ∧
      ∃ id children, HandedOut plan.association.slot id plan.foreignKey children Library.authors
        parents' := by
  obtain ⟨plan, rows, answered, fault, parents', session', hfetch, hload, -, htitles⟩ :=
    Library.load_torn
  obtain ⟨id, fault', earlier, row, later, children, -, -, -, -, -, -, hhanded⟩ :=
    collections_of_interrupted_load hfetch hload
  exact ⟨plan, rows, answered, fault, parents', session', hfetch, hload, htitles, id, children,
    hhanded⟩

/-- The authors each held a book before the load; it is gone, although a row could not be mapped
and the load has failed. -/
theorem changed_by_interrupted_load :
    ∃ plan rows answered fault parents' session',
      fetch .author "books" Library.authors (Library.session Library.torn) =
        .ok (plan, rows) answered ∧
      (∃ row ∈ rows, ∃ e, plan.childMapper.mapRow row.view = .error e) ∧
      load .author "books" Library.authors (Library.session Library.torn) =
        (⟨.error (.mapping fault), parents'⟩, session') ∧
      parents' ≠ Library.authors := by
  obtain ⟨plan, rows, answered, fault, parents', session', hfetch, hload, hrow, htitles⟩ :=
    Library.load_torn
  refine ⟨plan, rows, answered, fault, parents', session', hfetch, hrow, hload, ?_⟩
  rintro rfl
  have hheld : Library.titles Library.authors ≠ [[.text "Rocannon"], [], [.text "Rocannon"]] := by
    decide
  exact hheld htitles

end ObjectRelational.Association
