import ObjectRelational.Proofs.Mapping.Nesting
import ObjectRelational.Proofs.Session.Calls

/-! # What holds of a session throughout

Whatever a session is asked, and whether it succeeds or fails, its cache stays sound, keeps the
mappers it has, and no entity type stays marked as in the course of building. The registered types
are those whose registration has succeeded, and all of them have mappers.

* `Session.lasting_sound`, `Session.lasting_cached`, `Session.lasting_registered`: the invariants;
* `Session.registered_iff`: which types are registered;
* `Session.sound_after`: all of it, for a new session after any calls.
-/

namespace ObjectRelational.Session

set_option autoImplicit false

variable {E C : Type} [DecidableEq E]

/-! ## Invariants -/

/-- The session on another cache. -/
def withCache (session : Session E C) (cache : MetadataCache E) : Session E C :=
  { session with cache }

theorem endState_mapper (entity : E) (session : Session E C) :
    endState (mapper entity session) =
      session.withCache (endState
        (MetadataCache.mapper session.schema session.config.naming entity session.cache)) := by
  change endState (inCache _ session) = _
  unfold inCache
  cases MetadataCache.mapper session.schema session.config.naming entity session.cache <;> rfl

/-- What looking a mapper up in a cache keeps, and other chains and connections do not show in, is
an invariant of the session. -/
theorem lasting_of_cache {I : Session E C → Prop}
    (hmapper : ∀ entity session, I session → I (session.withCache (endState
      (MetadataCache.mapper session.schema session.config.naming entity session.cache))))
    (hchain : ∀ (session : Session E C) chain, I session → I (session.withChain chain))
    (hbesides : ∀ (session : Session E C) connection tracker events, I session →
      I { session with connection, tracker, events }) :
    Lasting I fun _ => True where
  mapper entity session hs :=
    ⟨endState_mapper entity session ▸ hmapper entity session hs, fun _ _ _ _ _ => trivial⟩
  lookup _ _ session hs := hchain session _ hs
  besides := hbesides

/-- The cache is sound, and no type is marked as in the course of building. -/
structure Idle (schema : Schema E) (session : Session E C) : Prop where
  schema_eq : session.schema = schema
  sound : session.cache.Sound schema
  building : session.cache.building = []

theorem lasting_sound (schema : Schema E) :
    Lasting (Idle (C := C) schema) fun _ => True := by
  refine lasting_of_cache ?_ (fun session chain hs => ⟨hs.schema_eq, ⟨hs.sound.closed,
    hs.sound.acyclic⟩, hs.building⟩) fun session _ _ _ hs => ⟨hs.schema_eq, hs.sound, hs.building⟩
  intro entity session hs
  have hsound := MetadataCache.sound_mapper session.schema session.config.naming entity session.cache
  have hbuilding :=
    MetadataCache.building_mapper session.schema session.config.naming entity session.cache
  exact ⟨hs.schema_eq, hs.schema_eq ▸ hsound (hs.schema_eq ▸ hs.sound), hbuilding.trans hs.building⟩

theorem lasting_cached (entity : E) (kept : RowMapper E) :
    Lasting (fun session : Session E C => session.cache.cached? entity = some kept)
      fun _ => True :=
  lasting_of_cache
    (fun other session hs => MetadataCache.extends_mapperWithin session.schema
      session.config.naming session.cache.building other session.cache entity kept hs)
    (fun _ _ hs => hs) fun _ _ _ _ hs => hs

theorem lasting_registered (registered : List E) :
    Lasting (fun session : Session E C => session.registered = registered) fun _ => True :=
  lasting_of_cache (fun _ _ hs => hs) (fun _ _ hs => hs) fun _ _ _ _ hs => hs

variable [Connection C]

theorem cached?_after (calls : List (Call E)) {session : Session E C} {entity : E}
    {kept : RowMapper E} (h : session.cache.cached? entity = some kept) :
    (session.after calls).cache.cached? entity = some kept :=
  (lasting_cached entity kept).after (fun _ _ hs => hs) calls (fun _ _ _ hs => hs) h

/-! ## Registered types -/

/-- The registration of an entity type succeeds. -/
def Registers (session : Session E C) (call : Call E) (entity : E) : Prop :=
  call = .register entity ∧ (session.perform call).1 = .ok ()

omit [Connection C] in
theorem register_eq (entity : E) (session : Session E C) :
    register entity session = match mapper entity session with
      | .ok _ session => .ok () (if session.isRegistered entity then session
          else { session with registered := entity :: session.registered })
      | .error e session => .error e session := by
  change (mapper entity >>= _) session = _
  rw [bind_apply]
  cases mapper entity session <;> rfl

/-- A type is registered after a call if it was before or the call registers it. -/
theorem registered_perform (session : Session E C) (call : Call E) (entity : E) :
    entity ∈ (session.perform call).2.registered ↔
      entity ∈ session.registered ∨ session.Registers call entity := by
  by_cases hcall : ∃ registered, call = .register registered
  · obtain ⟨registered, rfl⟩ := hcall
    have hkept := (lasting_registered session.registered).mapper registered |>.state
      (s := session) rfl
    change entity ∈ (outcome (register registered) session).2.registered ↔ _ ∨
      Call.register registered = .register entity ∧
        (outcome (register registered) session).1 = .ok ()
    unfold outcome
    rw [register_eq]
    rcases hmapper : mapper registered session with ⟨found, session₁⟩ | ⟨e, session₁⟩
    · rw [hmapper] at hkept
      dsimp only [endState] at hkept ⊢
      rw [← hkept]
      split
      · next hold =>
        have hmem : registered ∈ session₁.registered := of_decide_eq_true hold
        constructor
        · exact .inl
        · rintro (h | ⟨h, -⟩)
          · exact h
          · cases h
            exact hmem
      · simp [or_comm, eq_comm]
    · rw [hmapper] at hkept
      dsimp only [endState] at hkept ⊢
      simp [hkept]
  · have hsame : (session.perform call).2.registered = session.registered :=
      (lasting_registered session.registered).perform (fun e h => hcall ⟨e, h⟩)
        (fun _ _ _ hs => hs) rfl
    rw [hsame]
    constructor
    · exact .inl
    · rintro (h | ⟨rfl, -⟩)
      · exact h
      · exact absurd ⟨entity, rfl⟩ hcall

/-- A type is registered after some calls if and only if it was before, or one of them has
registered it. -/
theorem registered_iff (session : Session E C) (calls : List (Call E)) (entity : E) :
    entity ∈ (session.after calls).registered ↔ entity ∈ session.registered ∨
      ∃ earlier call later, calls = earlier ++ call :: later ∧
        (session.after earlier).Registers call entity := by
  -- The last call is split off, so that the calls before it are those that it came after.
  induction calls using List.reverseRecOn with
  | nil => simp
  | append_singleton calls call ih =>
    rw [after_concat, registered_perform, ih, or_assoc]
    refine or_congr_right ⟨?_, ?_⟩
    · rintro (⟨earlier, asked, later, rfl, h⟩ | h)
      · exact ⟨earlier, asked, later ++ [call], by simp, h⟩
      · exact ⟨calls, call, [], rfl, h⟩
    · rintro ⟨earlier, asked, later, heq, h⟩
      rcases List.eq_nil_or_concat later with rfl | ⟨others, last, rfl⟩
      · obtain ⟨rfl, hsame⟩ := List.append_inj' heq rfl
        cases hsame
        exact .inr h
      · rw [List.concat_eq_append, ← List.cons_append, ← List.append_assoc] at heq
        obtain ⟨rfl, -⟩ := List.append_inj' heq rfl
        exact .inl ⟨earlier, asked, others, rfl, h⟩

/-- A type that is being registered with success has a mapper from then on. -/
theorem kept_of_registers {session : Session E C} {call : Call E} {entity : E}
    (h : session.Registers call entity) : (session.perform call).2.cache.Kept entity := by
  obtain ⟨rfl, hok⟩ := h
  change (outcome (register entity) session).1 = .ok () at hok
  change (outcome (register entity) session).2.cache.Kept entity
  unfold outcome at hok ⊢
  rw [register_eq] at hok ⊢
  rcases hmapper : mapper entity session with ⟨found, session₁⟩ | ⟨e, session₁⟩
  · have hfound := cached?_of_mapper hmapper
    refine ⟨found, ?_⟩
    dsimp only
    split <;> exact hfound
  · rw [hmapper] at hok
    cases hok

/-! ## Whole runs -/

/-- After any calls to a new session, successful or not, with types registered in between: the
types with a mapper are closed under nesting and none can be reached from itself; a mapper that was
kept is still kept; the registered types have mappers, and are those whose registration succeeded;
and no type is marked as in the course of building. -/
theorem sound_after (schema : Schema E) (connection : C) (chain : Chain) (config : Config)
    (calls : List (Call E)) :
    let start := openWith schema connection chain config
    let session := start.after calls
    (∀ outer inner, session.cache.Kept outer → schema.Nests outer inner →
      session.cache.Kept inner) ∧
    (∀ entity, session.cache.Kept entity → ¬ Relation.TransGen schema.Nests entity entity) ∧
    (∀ earlier later entity kept, calls = earlier ++ later →
      (start.after earlier).cache.cached? entity = some kept →
        session.cache.cached? entity = some kept) ∧
    (∀ entity, session.isRegistered entity = true → session.cache.Kept entity) ∧
    (∀ entity, session.isRegistered entity = true ↔
      ∃ earlier later, calls = earlier ++ .register entity :: later ∧
        ((start.after earlier).perform (.register entity)).1 = .ok ()) ∧
    session.cache.building = [] := by
  intro start session
  have hidle : session.Idle schema :=
    (lasting_sound schema).after (fun _ _ hs => ⟨hs.schema_eq, hs.sound, hs.building⟩) calls
      (fun _ _ _ hs => ⟨hs.schema_eq, ⟨hs.sound.closed, hs.sound.acyclic⟩, hs.building⟩)
      ⟨rfl, MetadataCache.sound_ofChain schema chain, rfl⟩
  have hregistered : ∀ entity, session.isRegistered entity = true ↔
      ∃ earlier later, calls = earlier ++ .register entity :: later ∧
        ((start.after earlier).perform (.register entity)).1 = .ok () := by
    intro entity
    rw [isRegistered, decide_eq_true_iff, registered_iff start calls entity]
    constructor
    · rintro (h | ⟨earlier, call, later, hcalls, rfl, hok⟩)
      · cases h
      · exact ⟨earlier, later, hcalls, hok⟩
    · rintro ⟨earlier, later, hcalls, hok⟩
      exact .inr ⟨earlier, _, later, hcalls, rfl, hok⟩
  refine ⟨hidle.sound.closed, hidle.sound.acyclic, ?kept, ?mappers, hregistered, hidle.building⟩
  case kept =>
    rintro earlier later entity kept rfl h
    change (start.after (earlier ++ later)).cache.cached? entity = some kept
    rw [after_append]
    exact cached?_after later h
  case mappers =>
    intro entity h
    obtain ⟨earlier, later, rfl, hok⟩ := (hregistered entity).1 h
    obtain ⟨kept, hkept⟩ := kept_of_registers ⟨rfl, hok⟩
    refine ⟨kept, ?_⟩
    have hcalls : session = ((start.after earlier).perform (.register entity)).2.after later := by
      rw [← after_concat, ← after_append, List.append_assoc]
      rfl
    rw [hcalls]
    exact cached?_after later hkept

end ObjectRelational.Session
