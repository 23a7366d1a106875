import ObjectRelational.Proofs.Session.Frames
import ObjectRelational.Association.Loading

/-! # The course of a load

Up to its query a load only looks things up: the session keeps its connection, its declarations and
its mappers. A load that gets as far as the query has found the association among the declared ones,
the mappers of both sides, and the owners of the identifiers it asks for.

* `Wired`: the metadata by which an association joins parents and children;
* `Ready`: what is known once the query goes out;
* `fetch_course`: a load gets as far as its plan, and then sends the statement of it, or it fails;
* `fetch_cases`: the three ways in which the part up to the answered query ends.
-/

namespace ObjectRelational.Association

set_option autoImplicit false

open Session

variable {E C : Type} [DecidableEq E]

/-! ## Steps before the query -/

theorem keeps_recordLoad (name : AssociationName) :
    Respects Keeps (recordLoad name : SessionM E C Unit) := by
  refine .bind keeps_frame (.get keeps_frame) fun session => ?_
  apply Respects.bind keeps_frame
  · intro before
    exact ⟨rfl, rfl, rfl, rfl, fun _ _ h => h, fun h => h⟩
  · intro u
    split
    · exact keeps_report _
    · exact .pure keeps_frame _

theorem keeps_begin (entity : E) (name : String) (parents : List Instance) :
    Respects Keeps (begin entity name parents : SessionM E C (AssociationDecl E)) := by
  refine .bind keeps_frame (keeps_mapper entity) fun mapper => ?_
  dsimp only
  split
  · exact .throw keeps_frame _
  · split
    · exact .bind keeps_frame (keeps_recordLoad _) fun _ => .pure keeps_frame _
    · exact .pure keeps_frame _

/-- Putting a plan together respects what lookups of mappers and putting statements together do. -/
theorem respects_plan {R : Session E C → Session E C → Prop} (frame : IsFrame R)
    (hmapper : ∀ entity, Respects R (mapper entity : SessionM E C (RowMapper E)))
    (hrendering : ∀ render : Rendering Statement, Respects R (rendering render : SessionM E C Statement))
    (entity : E) (association : AssociationDecl E) (parents : List Instance) :
    Respects R (plan entity association parents : SessionM E C (Plan E)) := by
  refine .bind frame (respects_requireRegistered frame _) fun _ => ?_
  refine .bind frame (hmapper entity) fun parentMapper => ?_
  refine .bind frame (hmapper association.child) fun childMapper => ?_
  refine .bind frame (.get frame) fun session => ?_
  refine .bind frame (respects_configured frame _) fun key => ?_
  refine .bind frame (respects_configured frame _) fun id => ?_
  refine .bind frame (respects_configured frame _) fun select => ?_
  refine .bind frame (respects_converted frame _) fun owners => ?_
  exact .bind frame (hrendering _) fun statement => .pure frame _

theorem keeps_plan (entity : E) (association : AssociationDecl E) (parents : List Instance) :
    Respects Keeps (plan entity association parents : SessionM E C (Plan E)) :=
  respects_plan keeps_frame keeps_mapper keeps_rendering entity association parents

/-! ## What has been found -/

/-- The metadata that join the parents and the children of an association: it is found by its name
in the mapper of the parents, and so is the identifier; the children have a mapper of their own, in
which the association's foreign key is found. -/
structure Wired (cache : MetadataCache E) (entity : E) (name : String)
    (association : AssociationDecl E) (childMapper : RowMapper E)
    (id foreignKey : SimpleProperty) : Prop where
  parent : ∃ mapper, cache.cached? entity = some mapper ∧
    mapper.metadata.association? name = some association ∧ mapper.metadata.id = .ok id
  child : cache.cached? association.child = some childMapper
  key : ∃ property, association.foreignKey? = some property ∧
    childMapper.metadata.simpleProperty? property = some foreignKey

omit [DecidableEq E] in
theorem foreignKey_ok {parentName : String} {association : AssociationDecl E}
    {child : EntityMetadata E} {key : SimpleProperty}
    (h : foreignKey parentName association child = .ok key) :
    ∃ property, association.foreignKey? = some property ∧
      child.simpleProperty? property = some key := by
  unfold foreignKey at h
  cases hname : association.foreignKey? with
  | none =>
    rw [hname] at h
    cases h
  | some property =>
    simp only [hname] at h
    cases hfound : child.simpleProperty? property with
    | none =>
      rw [hfound] at h
      cases h
    | some found =>
      rw [hfound] at h
      cases h
      exact ⟨property, rfl, hfound⟩

theorem begin_ok {entity : E} {name : String} {parents : List Instance}
    {association : AssociationDecl E} {session session' : Session E C}
    (h : begin entity name parents session = .ok association session') :
    ∃ mapper, session'.cache.cached? entity = some mapper ∧
      mapper.metadata.association? name = some association := by
  obtain ⟨mapper, session₁, hmapper, h⟩ := bind_ok h
  cases hfound : mapper.metadata.association? name with
  | none =>
    simp only [hfound] at h
    cases h
  | some found =>
    simp only [hfound] at h
    have hkept := cached?_of_mapper hmapper
    by_cases hsingle : parents.length = 1
    · simp only [hsingle, if_true] at h
      obtain ⟨u, session₂, hrecord, hpure⟩ := bind_ok h
      cases hpure
      exact ⟨mapper, ((keeps_recordLoad _).of_ok hrecord).cached _ _ hkept, hfound⟩
    · simp only [hsingle, if_false] at h
      cases h
      exact ⟨mapper, hkept, hfound⟩

theorem plan_ok {entity : E} {association : AssociationDecl E} {parents : List Instance}
    {p : Plan E} {session session' : Session E C}
    (h : plan entity association parents session = .ok p session') :
    p.association = association ∧
    session'.cache.cached? association.child = some p.childMapper ∧
    (∃ property, association.foreignKey? = some property ∧
      p.childMapper.metadata.simpleProperty? property = some p.foreignKey) ∧
    ∃ mapper id, session'.cache.cached? entity = some mapper ∧ mapper.metadata.id = .ok id ∧
      Owners.ofParents id parents = .ok p.owners := by
  obtain ⟨u, s₁, -, h₁⟩ := bind_ok h
  obtain ⟨mapper, s₂, hmapper, h₂⟩ := bind_ok h₁
  obtain ⟨childMapper, s₃, hchild, h₃⟩ := bind_ok h₂
  obtain ⟨found, s₄, hget, h₄⟩ := bind_ok h₃
  cases hget
  obtain ⟨key, s₅, hkey, h₅⟩ := bind_ok h₄
  obtain ⟨id, s₆, hid, h₆⟩ := bind_ok h₅
  obtain ⟨select, s₇, hselect, h₇⟩ := bind_ok h₆
  obtain ⟨owners, s₈, howners, h₈⟩ := bind_ok h₇
  obtain ⟨statement, s₉, hstatement, h₉⟩ := bind_ok h₈
  cases h₉
  have hkept₅ := (respects_configured keeps_frame _).of_ok hkey
  have hkept₆ := (respects_configured keeps_frame _).of_ok hid
  have hkept₇ := (respects_configured keeps_frame _).of_ok hselect
  have hkept₈ := (respects_converted keeps_frame _).of_ok howners
  have hkept₉ := (keeps_rendering _).of_ok hstatement
  have hkept := (((hkept₅.trans hkept₆).trans hkept₇).trans hkept₈).trans hkept₉
  have hparent := ((keeps_mapper _).of_ok hchild).cached _ _ (cached?_of_mapper hmapper)
  refine ⟨rfl, hkept.cached _ _ (cached?_of_mapper hchild), foreignKey_ok (configured_ok hkey).1, ?_⟩
  exact ⟨mapper, id, hkept.cached _ _ hparent, (configured_ok hid).1, (converted_ok howners).1⟩

/-- What a load has found when its query goes out, and what it still keeps when that ends: the
metadata on both sides, and the parents by the identifiers that the query asks for. -/
structure Ready (before : Session E C) (after : MetadataCache E) (entity : E) (name : String)
    (parents : List Instance) (plan : Plan E) : Prop where
  described : before.cache.Describes before.schema → after.Describes before.schema
  wired : ∃ id, Wired after entity name plan.association plan.childMapper id plan.foreignKey ∧
    Owners.ofParents id parents = .ok plan.owners

theorem ready_of_plan {entity : E} {name : String} {parents : List Instance}
    {association : AssociationDecl E} {p : Plan E} {session session₁ session₂ : Session E C}
    (hbegin : begin entity name parents session = .ok association session₁)
    (hplan : plan entity association parents session₁ = .ok p session₂) :
    Ready session session₂.cache entity name parents p := by
  obtain ⟨mapper, hmapper, hfound⟩ := begin_ok hbegin
  obtain ⟨rfl, hchild, hkey, mapper', id, hmapper', hid, howners⟩ := plan_ok hplan
  have hkept := ((keeps_plan _ _ _).of_ok hplan).cached _ _ hmapper
  have hsame : mapper' = mapper := Option.some.inj (hmapper'.symm.trans hkept)
  subst hsame
  have hkeeps := ((keeps_begin _ _ _).of_ok hbegin).trans ((keeps_plan _ _ _).of_ok hplan)
  exact ⟨hkeeps.described, id, ⟨⟨mapper', hmapper', hfound, hid⟩, hchild, hkey⟩, howners⟩

/-! ## The query -/

section Queries

variable [Connection C]

/-- A load fails before its query, or it gets a plan and sends the statement of it. -/
theorem fetch_course (entity : E) (name : String) (parents : List Instance)
    (session : Session E C) :
    (∃ e session', fetch entity name parents session = .error e session' ∧
      session'.connection = session.connection) ∨
    ∃ association session₁ planned session₂,
      begin entity name parents session = .ok association session₁ ∧
      plan entity association parents session₁ = .ok planned session₂ ∧
      session₂.connection = session.connection ∧
      fetch entity name parents session =
        match Connection.query planned.statement session.connection with
        | .ok rows connection => .ok (planned, rows) { session₂ with connection }
        | .error e connection => .error (.database e) { session₂ with connection } := by
  unfold fetch
  rw [bind_apply]
  cases hbegin : begin entity name parents session with
  | error e session₁ =>
    exact .inl ⟨e, session₁, rfl, ((keeps_begin _ _ _).of_error hbegin).connection⟩
  | ok association session₁ =>
    have hconnection₁ := ((keeps_begin _ _ _).of_ok hbegin).connection
    dsimp only
    rw [bind_apply]
    cases hplan : plan entity association parents session₁ with
    | error e session₂ =>
      have hconnection₂ := ((keeps_plan _ _ _).of_error hplan).connection
      exact .inl ⟨e, session₂, rfl, hconnection₂.trans hconnection₁⟩
    | ok planned session₂ =>
      have hconnection₂ := ((keeps_plan _ _ _).of_ok hplan).connection.trans hconnection₁
      refine .inr ⟨association, session₁, planned, session₂, rfl, hplan, hconnection₂, ?_⟩
      rw [← hconnection₂]
      dsimp only
      rw [bind_apply]
      unfold connected
      cases Connection.query planned.statement session₂.connection <;> rfl

/-- A load fails before its query, fails in it, or has it answered. -/
theorem fetch_cases (entity : E) (name : String) (parents : List Instance)
    (session : Session E C) :
    (∃ e session', fetch entity name parents session = .error e session' ∧
      session'.connection = session.connection) ∨
    (∃ plan e session', fetch entity name parents session = .error (.database e) session' ∧
      Connection.query plan.statement session.connection = .error e session'.connection ∧
      Ready session session'.cache entity name parents plan) ∨
    ∃ plan rows session', fetch entity name parents session = .ok (plan, rows) session' ∧
      Connection.query plan.statement session.connection = .ok rows session'.connection ∧
      Ready session session'.cache entity name parents plan := by
  obtain hearly | ⟨association, session₁, planned, session₂, hbegin, hplan, -, hfetch⟩ :=
    fetch_course entity name parents session
  · exact .inl hearly
  · have hready := ready_of_plan hbegin hplan
    rw [hfetch]
    cases hquery : Connection.query planned.statement session.connection with
    | error e connection => exact .inr (.inl ⟨planned, e, _, rfl, hquery, hready⟩)
    | ok rows connection => exact .inr (.inr ⟨planned, rows, _, rfl, hquery, hready⟩)

theorem fetch_ok {entity : E} {name : String} {parents : List Instance} {plan : Plan E}
    {rows : List Row} {session session' : Session E C}
    (h : fetch entity name parents session = .ok (plan, rows) session') :
    Connection.query plan.statement session.connection = .ok rows session'.connection ∧
      Ready session session'.cache entity name parents plan := by
  obtain ⟨e, session₁, hfetch, -⟩ | ⟨p, e, session₁, hfetch, -⟩ | ⟨p, rows', session₁, hfetch, hend⟩ :=
    fetch_cases entity name parents session
  · cases h.symm.trans hfetch
  · cases h.symm.trans hfetch
  · cases h.symm.trans hfetch
    exact hend

/-- A load that ends well has its query answered and hands out all children. -/
theorem load_ok {entity : E} {name : String} {parents parents' : List Instance}
    {session session' : Session E C}
    (h : load entity name parents session = (⟨.ok (), parents'⟩, session')) :
    ∃ plan rows orphans session₁, fetch entity name parents session = .ok (plan, rows) session₁ ∧
      distribute plan rows parents = (.ok orphans, parents') ∧
      session'.cache = session₁.cache ∧ session'.connection = session₁.connection := by
  unfold load at h
  rcases hfetch : fetch entity name parents session with ⟨⟨plan, rows⟩, session₁⟩ | ⟨e, session₁⟩
  · rw [hfetch] at h
    rcases hdistribute : distribute plan rows parents with ⟨e | orphans, after⟩
    · simp only [hdistribute] at h
      cases h
    · refine ⟨plan, rows, orphans, session₁, rfl, ?_⟩
      simp only [hdistribute] at h
      cases orphans <;> cases h <;> exact ⟨hdistribute, rfl, rfl⟩
  · rw [hfetch] at h
    cases h

end Queries

end ObjectRelational.Association
