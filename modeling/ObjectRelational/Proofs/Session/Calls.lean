import ObjectRelational.Proofs.Association.Course
import ObjectRelational.Proofs.Dialect.History

/-! # Sessions with a history

A program looks mappers up, registers entity types, asks for repositories, loads associations, and
in between registers types on the chain. What holds of a session throughout is shown for single
steps: for lookups of mappers and of types, and for what a session counts, reports and sends to its
connection.

* `Maintains`: a computation keeps an invariant, and its answers have a property;
* `Session.Lasting`: an invariant that single steps keep, with the types that are looked up;
* `Session.Call`, `Session.perform`, `Session.after`: what a session is asked, and what comes of it;
* `Session.Lasting.after`: an invariant that single steps keep holds after any calls.
-/

namespace ObjectRelational

set_option autoImplicit false

/-! ## Invariants with answers -/

section Invariants

variable {ε σ α β : Type} {I : σ → Prop}

/-- From a state with an invariant the computation ends in one, and its answer has a property. -/
def Maintains (I : σ → Prop) (m : EStateM ε σ α) (Q : α → Prop) : Prop :=
  ∀ s, I s → I (endState (m s)) ∧ ∀ a s', m s = .ok a s' → Q a

theorem Maintains.state {m : EStateM ε σ α} {Q : α → Prop} (h : Maintains I m Q) {s : σ}
    (hs : I s) : I (endState (m s)) :=
  (h s hs).1

theorem Maintains.pure {Q : α → Prop} {a : α} (ha : Q a) :
    Maintains I (pure a : EStateM ε σ α) Q := by
  intro s hs
  refine ⟨hs, fun b s' h => ?_⟩
  cases h
  exact ha

theorem Maintains.throw {Q : α → Prop} (e : ε) : Maintains I (throw e : EStateM ε σ α) Q := by
  intro s hs
  refine ⟨hs, fun b s' h => ?_⟩
  cases h

theorem Maintains.bind {m : EStateM ε σ α} {k : α → EStateM ε σ β} {Q : α → Prop} {Q' : β → Prop}
    (hm : Maintains I m Q) (hk : ∀ a, Q a → Maintains I (k a) Q') : Maintains I (m >>= k) Q' := by
  intro s hs
  obtain ⟨hend, hanswer⟩ := hm s hs
  rw [bind_apply]
  cases h : m s with
  | error e s₁ =>
    rw [h] at hend
    refine ⟨hend, fun b s' hb => ?_⟩
    cases hb
  | ok a s₁ =>
    rw [h] at hend
    exact hk a (hanswer a s₁ h) s₁ hend

theorem Maintains.bind_get {k : σ → EStateM ε σ α} {Q : α → Prop}
    (hk : ∀ s, Maintains I (k s) Q) : Maintains I (get >>= k) Q :=
  fun s hs => hk s s hs

end Invariants

/-! ## Putting statements together -/

section Rendering

variable {R : Chain → Chain → Prop} (frame : IsFrame R) {types : TypeToken → Prop}
  (lookup : ∀ token, types token → ∀ chain, R chain (chain.resolve token).2)

include frame lookup

omit frame in
theorem Rendering.respects_converterFor {token : TypeToken} (htoken : types token) :
    Respects R (Rendering.converterFor token) := by
  intro chain
  have hlookup := lookup token htoken chain
  rw [← chain.converterFor_chain] at hlookup
  unfold Rendering.converterFor
  split
  all_goals
    next h =>
      rw [h] at hlookup
      exact hlookup

omit lookup in
theorem Rendering.respects_converted {α : Type} (found : Except MappingError α) :
    Respects R (Rendering.converted found) := by
  cases found with
  | ok found => exact .pure frame found
  | error e => exact .throw frame _

theorem Condition.respects_render {condition : Condition}
    (htype : ∀ token, condition.type? = some token → types token) (root : String) (taken : Nat) :
    Respects R (condition.render root taken) := by
  have hrest : ∀ converter, Respects R (Rendering.converted
      (testSql (Sql.qualified (condition.alias?.getD root) condition.column) converter taken
        condition.test)) :=
    fun converter => Rendering.respects_converted frame _
  unfold render
  dsimp only
  split
  · next token hc =>
    refine .bind frame (.bind frame (Rendering.respects_converterFor lookup (htype token hc)) ?_) hrest
    exact fun converter => .pure frame _
  · exact .bind frame (.pure frame none) hrest

theorem Condition.respects_renderAll {conditions : List Condition}
    (htypes : ∀ condition ∈ conditions, ∀ token, condition.type? = some token → types token)
    (root : String) (taken : Nat) : Respects R (renderAll root taken conditions) := by
  induction conditions generalizing taken with
  | nil => exact .pure frame _
  | cons condition rest ih =>
    refine .bind frame (condition.respects_render frame lookup
      (htypes condition List.mem_cons_self) root taken) fun found => ?_
    refine .bind frame (ih (fun other h => htypes other (List.mem_cons_of_mem _ h)) _)
      fun others => .pure frame _

theorem Select.respects_render {select : Select}
    (htypes : ∀ condition ∈ select.conditions, ∀ token, condition.type? = some token →
      types token) : Respects R select.render := by
  refine .bind frame (Condition.respects_renderAll frame lookup htypes _ 0) fun found => ?_
  exact .bind frame (.get frame) fun chain => .pure frame _

end Rendering

namespace Session

variable {E C : Type} [DecidableEq E]

/-! ## Steps -/

/-- The session on another chain of dialects. -/
def withChain (session : Session E C) (chain : Chain) : Session E C :=
  { session with cache := { session.cache with chain } }

/-- An invariant that lasts through lookups of mappers and of types, and whatever is counted,
reported or sent to the connection. The columns of the mappers are of the types that are looked
up. -/
structure Lasting (I : Session E C → Prop) (types : TypeToken → Prop) : Prop where
  mapper : ∀ entity, Maintains I (mapper entity)
    fun found => ∀ property ∈ found.metadata.simple, types property.type.token
  lookup : ∀ token, types token → ∀ session, I session →
    I (session.withChain (session.cache.chain.resolve token).2)
  besides : ∀ session connection tracker events, I session →
    I { session with connection, tracker, events }

section Steps

variable {I : Session E C → Prop} {types : TypeToken → Prop}

omit [DecidableEq E] in
theorem maintains_configured {α : Type} {found : Except ConfigError α} {Q : α → Prop}
    (h : ∀ a, found = .ok a → Q a) : Maintains I (configured found : SessionM E C α) Q := by
  cases found with
  | ok a => exact .pure (h a rfl)
  | error e => exact .throw _

omit [DecidableEq E] in
theorem maintains_converted {α : Type} (found : Except MappingError α) :
    Maintains I (converted found : SessionM E C α) fun _ => True := by
  cases found with
  | ok a => exact .pure trivial
  | error e => exact .throw _

theorem maintains_requireRegistered (entity : E) :
    Maintains I (requireRegistered entity : SessionM E C Unit) fun _ => True := by
  refine .bind_get fun session => ?_
  split
  · exact .pure trivial
  · exact .throw _

variable (lasting : Lasting I types)

include lasting

/-- A statement is put together on types that are looked up. -/
theorem Lasting.rendering {select : Select}
    (htypes : ∀ condition ∈ select.conditions, ∀ token, condition.type? = some token →
      types token) :
    Maintains I (rendering select.render : SessionM E C Statement) fun _ => True := by
  let R (before after : Chain) : Prop :=
    ∀ session : Session E C, I (session.withChain before) → I (session.withChain after)
  have hframe : IsFrame R := ⟨fun _ _ h => h, fun _ _ _ h h' session hs => h' session (h session hs)⟩
  have hlookup : ∀ token, types token → ∀ chain, R chain (chain.resolve token).2 :=
    fun token htoken chain session hs => lasting.lookup token htoken (session.withChain chain) hs
  intro session hs
  have hend := Select.respects_render hframe hlookup htypes session.cache.chain session hs
  unfold Session.rendering
  rcases hrender : select.render session.cache.chain with ⟨statement, chain⟩ | ⟨e, chain⟩
  all_goals
    rw [hrender] at hend
    exact ⟨hend, fun _ _ _ => trivial⟩

theorem Lasting.rendering_oneOf {select : Select} {column : String} {token : TypeToken}
    (htoken : types token) (hselect : select.conditions = []) (ids : List Value) :
    Maintains I (Session.rendering
      (select.filter ((Condition.oneOf column ids).withType token)).render) fun _ => True := by
  refine lasting.rendering fun condition hmem other hother => ?_
  simp only [Select.filter, hselect, List.nil_append, List.mem_singleton] at hmem
  subst hmem
  cases hother
  exact htoken

end Steps

end Session

namespace Association

open Session

variable {E C : Type} [DecidableEq E] {I : Session E C → Prop} {types : TypeToken → Prop}

omit [DecidableEq E] in
theorem childSelect_conditions {schema : Schema E} {association : AssociationDecl E}
    {childMapper : RowMapper E} {select : Select}
    (h : childSelect schema association childMapper = .ok select) : select.conditions = [] := by
  unfold childSelect at h
  split at h
  · unfold RowMapper.selectProperties at h
    cases hcolumns : RowMapper.columnsOf childMapper.metadata _ with
    | error e =>
      rw [hcolumns] at h
      cases h
    | ok columns =>
      rw [hcolumns] at h
      cases h
      rfl
  · cases h
    rfl

section Loads

variable (lasting : Lasting I types)

include lasting

theorem maintains_begin (entity : E) (name : String) (parents : List Instance) :
    Maintains I (begin entity name parents : SessionM E C (AssociationDecl E)) fun _ => True := by
  refine .bind (lasting.mapper entity) fun mapper _ => ?_
  have hrecord : ∀ counted, Maintains I (recordLoad counted : SessionM E C Unit) fun _ => True := by
    intro counted
    refine .bind_get fun session => ?_
    refine .bind (Q := fun _ => True) (fun before hs => ?_) fun _ _ => ?_
    · exact ⟨lasting.besides before _ _ before.events hs, fun _ _ _ => trivial⟩
    · split
      · exact fun before hs =>
          ⟨lasting.besides before _ before.tracker _ hs, fun _ _ _ => trivial⟩
      · exact .pure trivial
  dsimp only
  split
  · exact .throw _
  · split
    · exact .bind (hrecord _) fun _ _ => .pure trivial
    · exact .pure trivial

/-- What is known of a statement when it is put together is known of the plan. -/
theorem maintains_plan_of (entity : E) (association : AssociationDecl E) (parents : List Instance)
    {Q : SimpleProperty → List Value → Statement → Prop}
    (hstatement : ∀ (key : SimpleProperty) (select : Select) (ids : List Value),
      types key.type.token → select.conditions = [] →
        Maintains I (rendering (select.filter ((Condition.oneOf key.column ids).withType
          key.type.token)).render : SessionM E C Statement) (Q key ids)) :
    Maintains I (plan entity association parents : SessionM E C (Plan E))
      fun p => Q p.foreignKey p.owners.ids p.statement := by
  refine .bind (maintains_requireRegistered _) fun _ _ => ?_
  refine .bind (lasting.mapper entity) fun parentMapper _ => ?_
  refine .bind (lasting.mapper association.child) fun childMapper hchild => ?_
  refine .bind_get fun session => ?_
  refine .bind (Q := fun key => types key.type.token) (maintains_configured ?key) fun key hkey => ?_
  case key =>
    intro key hkey
    obtain ⟨name, -, hfound⟩ := foreignKey_ok hkey
    exact hchild key (List.mem_of_find?_eq_some hfound)
  refine .bind (Q := fun _ => True) (maintains_configured fun _ _ => trivial) fun id _ => ?_
  refine .bind (Q := fun select => select.conditions = [])
    (maintains_configured fun _ => childSelect_conditions) fun select hselect => ?_
  refine .bind (maintains_converted _) fun owners _ => ?_
  exact .bind (hstatement key select owners.ids hkey hselect) fun statement h => .pure h

theorem maintains_plan (entity : E) (association : AssociationDecl E) (parents : List Instance) :
    Maintains I (plan entity association parents : SessionM E C (Plan E)) fun _ => True :=
  maintains_plan_of (Q := fun _ _ _ => True) lasting entity association parents
    fun _ _ ids hkey hselect => lasting.rendering_oneOf hkey hselect ids

variable [Connection C]

theorem maintains_fetch (entity : E) (name : String) (parents : List Instance) :
    Maintains I (fetch entity name parents : SessionM E C (Plan E × List Row)) fun _ => True := by
  refine .bind (maintains_begin lasting entity name parents) fun association _ => ?_
  refine .bind (maintains_plan lasting entity association parents) fun plan _ => ?_
  refine .bind (Q := fun _ => True) ?query fun rows _ => .pure trivial
  case query =>
    intro session hs
    unfold connected
    split
    all_goals exact ⟨lasting.besides session _ session.tracker session.events hs, fun _ _ _ => trivial⟩

/-- A load keeps what its steps keep, however it ends. -/
theorem lasting_load (entity : E) (name : String) (parents : List Instance)
    {session : Session E C} (hs : I session) : I (load entity name parents session).2 := by
  have hfetch := (maintains_fetch lasting entity name parents).state hs
  unfold load
  rcases hend : fetch entity name parents session with ⟨⟨plan, rows⟩, session₁⟩ | ⟨e, session₁⟩
  · rw [hend] at hfetch
    dsimp only [endState] at hfetch ⊢
    rcases distribute plan rows parents with ⟨e | orphans, after⟩
    · exact hfetch
    · cases orphans with
      | zero => exact hfetch
      | succ n => exact lasting.besides session₁ _ session₁.tracker _ hfetch
  · rw [hend] at hfetch
    exact hfetch

end Loads

end Association

namespace Session

variable {E C : Type} [DecidableEq E]

/-! ## Calls -/

/-- What a session is asked. -/
inductive Call (E : Type) where
  | mapper (entity : E)
  | register (entity : E)
  | repository (entity : E)
  | load (entity : E) (name : String) (parents : List Instance)
  /-- What its chain is asked: types are registered or looked up. -/
  | types (call : Chain.Call)

/-- Whether a computation succeeds, and the session after it. -/
def outcome {α : Type} (step : SessionM E C α) (session : Session E C) :
    Except Error Unit × Session E C :=
  match step session with
  | .ok _ session => (.ok (), session)
  | .error e session => (.error e, session)

omit [DecidableEq E] in
theorem outcome_state {α : Type} (step : SessionM E C α) (session : Session E C) :
    (outcome step session).2 = endState (step session) := by
  unfold outcome
  cases step session <;> rfl

variable [Connection C]

/-- Whether a call succeeds, and the session after it. -/
def perform (session : Session E C) : Call E → Except Error Unit × Session E C
  | .mapper entity => outcome (mapper entity) session
  | .register entity => outcome (register entity) session
  | .repository entity => outcome (Repository.mapper entity) session
  | .load entity name parents =>
      let (ending, session) := Association.load entity name parents session
      (ending.result, session)
  | .types call => (.ok (), session.withChain (session.cache.chain.perform call))

/-- The session after some calls. -/
def after (session : Session E C) (calls : List (Call E)) : Session E C :=
  calls.foldl (fun session call => (session.perform call).2) session

@[simp]
theorem after_nil (session : Session E C) : session.after [] = session := rfl

@[simp]
theorem after_concat (session : Session E C) (calls : List (Call E)) (call : Call E) :
    session.after (calls ++ [call]) = ((session.after calls).perform call).2 := by
  simp [after]

theorem after_append (session : Session E C) (calls others : List (Call E)) :
    session.after (calls ++ others) = (session.after calls).after others := by
  simp [after]

section Steps

variable {I : Session E C → Prop} {types : TypeToken → Prop} (lasting : Lasting I types)

include lasting

omit [Connection C] in
theorem Lasting.repository (entity : E) :
    Maintains I (Repository.mapper entity : SessionM E C (RowMapper E)) fun _ => True := by
  refine .bind (maintains_requireRegistered entity) fun _ _ => ?_
  exact fun session hs => ⟨(lasting.mapper entity).state hs, fun _ _ _ => trivial⟩

/-- A call that registers no entity type keeps what its steps keep. -/
theorem Lasting.perform {call : Call E} (hcall : ∀ entity, call ≠ .register entity)
    (hchain : ∀ asked, call = .types asked → ∀ session, I session →
      I (session.withChain (session.cache.chain.perform asked)))
    {session : Session E C} (hs : I session) : I (session.perform call).2 := by
  cases call with
  | mapper entity =>
    change I (outcome _ session).2
    rw [outcome_state]
    exact (lasting.mapper entity).state hs
  | register entity => exact absurd rfl (hcall entity)
  | repository entity =>
    change I (outcome _ session).2
    rw [outcome_state]
    exact (lasting.repository entity).state hs
  | load entity name parents => exact Association.lasting_load lasting entity name parents hs
  | types asked => exact hchain asked rfl session hs

omit [Connection C] in
/-- Registering an entity type keeps what its steps keep and the list of registered types does not
show in. -/
theorem Lasting.register (hregister : ∀ session registered, I session → I { session with registered })
    (entity : E) : Maintains I (Session.register entity : SessionM E C Unit) fun _ => True := by
  refine .bind (lasting.mapper entity) fun mapper _ => ?_
  intro session hs
  refine ⟨?_, fun _ _ _ => trivial⟩
  change I (if session.isRegistered entity then session
    else { session with registered := entity :: session.registered })
  split
  · exact hs
  · exact hregister session _ hs

/-- An invariant that lasts through all steps holds after any calls. -/
theorem Lasting.after
    (hregister : ∀ session registered, I session → I { session with registered })
    (calls : List (Call E))
    (hchain : ∀ asked, .types asked ∈ calls → ∀ session, I session →
      I (session.withChain (session.cache.chain.perform asked)))
    {session : Session E C} (hs : I session) : I (session.after calls) := by
  induction calls using List.reverseRecOn with
  | nil => exact hs
  | append_singleton calls call ih =>
    have hcalls := ih fun asked h => hchain asked (List.mem_append_left _ h)
    rw [after_concat]
    by_cases hcall : ∃ entity, call = .register entity
    · obtain ⟨entity, rfl⟩ := hcall
      change I (outcome _ _).2
      rw [outcome_state]
      exact (lasting.register hregister entity).state hcalls
    · refine lasting.perform (fun entity h => hcall ⟨entity, h⟩) (fun asked h => ?_) hcalls
      exact hchain asked (List.mem_append_right _ (h ▸ List.mem_singleton_self call))

end Steps

end Session

end ObjectRelational
