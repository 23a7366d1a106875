import ObjectRelational.Proofs.Association.Distribution

/-! # What a load asks of its connection

A connection that is watched notes every call together with its answer. A load calls it at most
once, by a query, and not before everything about the declarations has been found to be right. As
long as the query has not been answered the parents are as they were.

* `Watched`: a connection with the calls that it has received;
* `load_watched`: watching a connection changes nothing about a load;
* `Ending`: the ways in which a load ends;
* `calls_of_load`: the calls of a load, by its result.
-/

namespace ObjectRelational.Association

set_option autoImplicit false

/-! ## Watching a connection -/

/-- A call with its answer. -/
inductive Call where
  | query (statement : Statement) (answer : Except DatabaseError (List Row))
  | execute (statement : Statement) (answer : Except DatabaseError Nat)

/-- A connection with the calls that it has received, in their order. -/
structure Watched (C : Type) where
  connection : C
  calls : List Call

namespace Watched

variable {C α : Type}

/-- Passes a call on and notes it. -/
def note (call : Except DatabaseError α → Call) (step : EStateM DatabaseError C α) :
    EStateM DatabaseError (Watched C) α := fun watched =>
  match step watched.connection with
  | .ok a connection => .ok a ⟨connection, watched.calls ++ [call (.ok a)]⟩
  | .error e connection => .error e ⟨connection, watched.calls ++ [call (.error e)]⟩

theorem calls_note {call : Except DatabaseError α → Call} {step : EStateM DatabaseError C α}
    {watched : Watched C} :
    (∀ a watched', note call step watched = .ok a watched' →
      watched'.calls = watched.calls ++ [call (.ok a)]) ∧
    ∀ e watched', note call step watched = .error e watched' →
      watched'.calls = watched.calls ++ [call (.error e)] := by
  unfold note
  constructor
  · intro a watched' h
    split at h <;> cases h
    rfl
  · intro e watched' h
    split at h <;> cases h
    rfl

instance [Connection C] : Connection (Watched C) where
  query statement := note (.query statement) (Connection.query statement)
  execute statement := note (.execute statement) (Connection.execute statement)

end Watched

/-! ## Loads on a watched connection -/

open Session

section Steps

variable {E C D : Type} (g : C → D)

theorem mirrors_recordLoad (name : AssociationName) :
    Mirrors (mapConnection (E := E) g) (recordLoad name) (recordLoad name) := by
  refine .bind_get fun session => ?_
  apply Mirrors.bind
  · exact fun _ => rfl
  · intro u
    have htracker : (session.mapConnection g).tracker = session.tracker := rfl
    rw [htracker]
    split
    · exact fun _ => rfl
    · exact .pure ()

variable [DecidableEq E]

theorem mirrors_begin (entity : E) (name : String) (parents : List Instance) :
    Mirrors (mapConnection g) (begin entity name parents) (begin entity name parents) := by
  refine .bind (mirrors_mapper g entity) fun mapper => ?_
  dsimp only
  split
  · exact .throw _
  · split
    · exact .bind (mirrors_recordLoad g _) fun u => .pure _
    · exact .pure _

theorem mirrors_plan (entity : E) (association : AssociationDecl E) (parents : List Instance) :
    Mirrors (mapConnection g) (plan entity association parents)
      (plan entity association parents) := by
  refine .bind (mirrors_requireRegistered g _) fun u => ?_
  refine .bind (mirrors_mapper g entity) fun parentMapper => ?_
  refine .bind (mirrors_mapper g association.child) fun childMapper => ?_
  refine .bind_get fun session => ?_
  refine .bind (mirrors_configured g _) fun key => ?_
  refine .bind (mirrors_configured g _) fun id => ?_
  refine .bind (mirrors_configured g _) fun select => ?_
  refine .bind (mirrors_converted g _) fun owners => ?_
  exact .bind (mirrors_rendering g _) fun statement => .pure _

end Steps

section Watching

variable {E C : Type} [Connection C]

theorem mirrors_query (statement : Statement) :
    Mirrors (mapConnection (E := E) (Watched.connection (C := C)))
      (connected (C := Watched C) (Connection.query statement))
      (connected (Connection.query statement)) := by
  intro session
  have hconnection : (session.mapConnection Watched.connection).connection =
      session.connection.connection := rfl
  have hnote : Connection.query statement session.connection =
      Watched.note (.query statement) (Connection.query statement) session.connection := rfl
  unfold connected
  rw [hconnection, hnote]
  unfold Watched.note
  cases Connection.query statement session.connection.connection <;> rfl

variable [DecidableEq E]

theorem mirrors_fetch (entity : E) (name : String) (parents : List Instance) :
    Mirrors (mapConnection (Watched.connection (C := C))) (fetch entity name parents)
      (fetch entity name parents) := by
  refine .bind (mirrors_begin _ entity name parents) fun association => ?_
  refine .bind (mirrors_plan _ entity association parents) fun plan => ?_
  exact .bind (mirrors_query plan.statement) fun rows => .pure _

/-- Watching a connection changes nothing about a load. -/
theorem load_watched (entity : E) (name : String) (parents : List Instance)
    (session : Session E (Watched C)) :
    load entity name parents (session.mapConnection Watched.connection) =
      ((load entity name parents session).1,
        (load entity name parents session).2.mapConnection Watched.connection) := by
  unfold load
  rw [mirrors_fetch entity name parents session]
  rcases fetch entity name parents session with ⟨⟨plan, rows⟩, session₁⟩ | ⟨e, session₁⟩
  · dsimp only [mapState]
    rcases distribute plan rows parents with ⟨e | orphans, after⟩
    · rfl
    · cases orphans <;> rfl
  · rfl

end Watching

/-! ## How a load ends -/

/-- The end of a load by its calls: before any call, with a query that failed, or with one that
was answered. -/
inductive Ending (parents : List Instance) : Outcome → List Call → Prop
  | early (e : Error) : Ending parents ⟨.error e, parents⟩ []
  | refused (statement : Statement) (e : DatabaseError) :
      Ending parents ⟨.error (.database e), parents⟩ [.query statement (.error e)]
  | mapped (statement : Statement) (rows : List Row) (e : MappingError)
      (parents' : List Instance) :
      Ending parents ⟨.error (.mapping e), parents'⟩ [.query statement (.ok rows)]
  | done (statement : Statement) (rows : List Row) (parents' : List Instance) :
      Ending parents ⟨.ok (), parents'⟩ [.query statement (.ok rows)]

section Ends

variable {E C : Type} [DecidableEq E] [Connection C]

theorem ending_of_answer {parents : List Instance} {rows : List Row} {entity : E}
    {name : String} {plan : Plan E} {session session' : Session E C} (statement : Statement)
    (h : fetch entity name parents session = .ok (plan, rows) session') :
    ∃ outcome session'', load entity name parents session = (outcome, session'') ∧
      Ending parents outcome [.query statement (.ok rows)] ∧
      session''.connection = session'.connection ∧ session''.cache = session'.cache := by
  unfold load
  rw [h]
  dsimp only
  rcases distribute plan rows parents with ⟨e | orphans, after⟩
  · exact ⟨_, _, rfl, .mapped statement rows e after, rfl, rfl⟩
  · cases orphans <;> exact ⟨_, _, rfl, .done statement rows after, rfl, rfl⟩

theorem load_of_fetch_error {parents : List Instance} {entity : E} {name : String} {e : Error}
    {session session' : Session E C} (h : fetch entity name parents session = .error e session') :
    load entity name parents session = (⟨.error e, parents⟩, session') := by
  unfold load
  rw [h]

theorem ending_of_load (entity : E) (name : String) (parents : List Instance)
    (session : Session E (Watched C)) :
    ∃ outcome session' calls, load entity name parents session = (outcome, session') ∧
      Ending parents outcome calls ∧
      session'.connection.calls = session.connection.calls ++ calls ∧
      (calls ≠ [] → ∃ plan, Ready session session'.cache entity name parents plan) := by
  obtain ⟨e, session', hfetch, hconnection⟩ | ⟨plan, e, session', hfetch, hquery, hready⟩ |
    ⟨plan, rows, session', hfetch, hquery, hready⟩ := fetch_cases entity name parents session
  · refine ⟨_, session', [], load_of_fetch_error hfetch, .early e, ?_, fun hne => absurd rfl hne⟩
    rw [hconnection, List.append_nil]
  · exact ⟨_, session', [.query plan.statement (.error e)], load_of_fetch_error hfetch,
      .refused _ e, Watched.calls_note.2 _ _ hquery, fun _ => ⟨plan, hready⟩⟩
  · obtain ⟨outcome, ended, hload, hending, hconnection, hcache⟩ :=
      ending_of_answer plan.statement hfetch
    refine ⟨outcome, ended, [.query plan.statement (.ok rows)], hload, hending, ?_,
      fun _ => ⟨plan, hcache ▸ hready⟩⟩
    rw [hconnection]
    exact Watched.calls_note.1 _ _ hquery

/-- From a load that ends well a connection has received one query and nothing else, and from one
that is wrongly configured, or that cannot read an identifier, nothing at all. No failure before the
query is answered changes a parent. -/
theorem calls_of_load (entity : E) (name : String) (parents : List Instance)
    (session : Session E (Watched C)) :
    ∃ outcome session' calls,
      load entity name parents session = (outcome, session') ∧
      load entity name parents (session.mapConnection Watched.connection) =
        (outcome, session'.mapConnection Watched.connection) ∧
      session'.connection.calls = session.connection.calls ++ calls ∧
      (outcome.result = .ok () → ∃ statement rows, calls = [.query statement (.ok rows)]) ∧
      (∀ e, outcome.result = .error (.config e) → calls = []) ∧
      (∀ e, outcome.result = .error e → (∀ statement rows, .query statement (.ok rows) ∉ calls) →
        outcome.parents = parents) ∧
      (∀ statement e, .query statement (.error e) ∈ calls →
        outcome = ⟨.error (.database e), parents⟩) ∧
      (∀ mapper id, session'.cache.cached? entity = some mapper → mapper.metadata.id = .ok id →
        (∃ parent ∈ parents, ∃ e, id.get parent = .error e) →
          calls = [] ∧ ∃ e, outcome = ⟨.error e, parents⟩) := by
  obtain ⟨outcome, session', calls, hload, hending, hcalls, hready⟩ :=
    ending_of_load entity name parents session
  have hbare := load_watched entity name parents session
  rw [hload] at hbare
  refine ⟨outcome, session', calls, hload, hbare, hcalls, ?ok, ?config, ?unanswered, ?refused,
    ?unreadable⟩
  case ok =>
    intro h
    cases hending with
    | done statement rows parents' => exact ⟨statement, rows, rfl⟩
    | _ => cases h
  case config =>
    intro e h
    cases hending with
    | early e => rfl
    | _ => cases h
  case unanswered =>
    intro e h hunanswered
    cases hending with
    | early e => rfl
    | refused statement e => rfl
    | _ statement rows => exact absurd (List.mem_singleton_self _) (hunanswered statement rows)
  case refused =>
    intro statement e h
    cases hending with
    | early e => cases h
    | refused statement' e' =>
      cases List.mem_singleton.1 h
      rfl
    | _ => cases List.mem_singleton.1 h
  case unreadable =>
    rintro mapper id hmapper hid ⟨parent, hparent, e, hunreadable⟩
    have hearly : calls = [] := by
      by_contra hne
      obtain ⟨plan, hplan⟩ := hready hne
      obtain ⟨id', hwired, howners⟩ := hplan.wired
      obtain ⟨mapper', hmapper', -, hid'⟩ := hwired.parent
      cases hmapper.symm.trans hmapper'
      cases hid.symm.trans hid'
      obtain ⟨value, hvalue⟩ := Owners.get_of_addAll howners parent hparent
      cases hunreadable.symm.trans hvalue
    subst hearly
    cases hending with
    | early e => exact ⟨rfl, e, rfl⟩

end Ends

end ObjectRelational.Association
