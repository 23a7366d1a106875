import ObjectRelational.Session.Basic

/-! # What the steps of a session leave as it is

A computation respects a relation on states if it ends, with an answer or with an error, in a state
related to the one it began in. A reflexive and transitive relation is respected by a sequence of
steps as soon as each step respects it.

* `Respects`: the relation holds between the first and the last state of a computation;
* `Mirrors`: what a computation does to a state is what another does to an image of it;
* `MetadataCache.Extends`: every mapper that was kept is still kept;
* `MetadataCache.Describes`: every kept mapper shows the declaration of its entity type;
* `Session.Keeps`: what looking up metadata and putting statements together leaves as it is.
-/

namespace ObjectRelational

set_option autoImplicit false

/-! ## Computations on a state -/

section States

variable {ε σ α β : Type} {R : σ → σ → Prop}

def endState : EStateM.Result ε σ α → σ
  | .ok _ s => s
  | .error _ s => s

/-- However the computation ends, its last state is related to its first. -/
def Respects (R : σ → σ → Prop) (m : EStateM ε σ α) : Prop :=
  ∀ s, R s (endState (m s))

theorem Respects.of_ok {m : EStateM ε σ α} (hm : Respects R m) {a : α} {s s' : σ}
    (h : m s = .ok a s') : R s s' := by
  have := hm s
  rwa [h] at this

theorem Respects.of_error {m : EStateM ε σ α} (hm : Respects R m) {e : ε} {s s' : σ}
    (h : m s = .error e s') : R s s' := by
  have := hm s
  rwa [h] at this

theorem bind_apply (m : EStateM ε σ α) (f : α → EStateM ε σ β) (s : σ) :
    (m >>= f) s = match m s with
      | .ok a s' => f a s'
      | .error e s' => .error e s' := rfl

theorem bind_ok {m : EStateM ε σ α} {f : α → EStateM ε σ β} {s s' : σ} {b : β}
    (h : (m >>= f) s = .ok b s') : ∃ a s₁, m s = .ok a s₁ ∧ f a s₁ = .ok b s' := by
  rw [bind_apply] at h
  cases hm : m s with
  | ok a s₁ =>
    rw [hm] at h
    exact ⟨a, s₁, rfl, h⟩
  | error e s₁ =>
    rw [hm] at h
    cases h

def mapState {τ : Type} (f : σ → τ) : EStateM.Result ε σ α → EStateM.Result ε τ α
  | .ok a s => .ok a (f s)
  | .error e s => .error e (f s)

/-- On the image of any state the one computation does what the other does on the state. -/
def Mirrors {τ : Type} (f : σ → τ) (m : EStateM ε σ α) (m' : EStateM ε τ α) : Prop :=
  ∀ s, m' (f s) = mapState f (m s)

section Images

variable {τ : Type} {f : σ → τ}

theorem Mirrors.pure (a : α) : Mirrors f (pure a : EStateM ε σ α) (pure a) :=
  fun _ => rfl

theorem Mirrors.throw (e : ε) : Mirrors f (throw e : EStateM ε σ α) (throw e) :=
  fun _ => rfl

theorem Mirrors.bind {m : EStateM ε σ α} {m' : EStateM ε τ α} {k : α → EStateM ε σ β}
    {k' : α → EStateM ε τ β} (hm : Mirrors f m m') (hk : ∀ a, Mirrors f (k a) (k' a)) :
    Mirrors f (m >>= k) (m' >>= k') := by
  intro s
  rw [bind_apply, bind_apply, hm s]
  cases m s with
  | ok a s₁ => exact hk a s₁
  | error e s₁ => rfl

theorem Mirrors.bind_get {k : σ → EStateM ε σ α} {k' : τ → EStateM ε τ α}
    (hk : ∀ s, Mirrors f (k s) (k' (f s))) : Mirrors f (get >>= k) (get >>= k') :=
  fun s => hk s s

end Images

/-- A relation that holds over any number of steps if it holds over each. -/
structure IsFrame (R : σ → σ → Prop) : Prop where
  refl : ∀ s, R s s
  trans : ∀ s s₁ s₂, R s s₁ → R s₁ s₂ → R s s₂

variable (frame : IsFrame R)

include frame

theorem Respects.pure (a : α) : Respects R (pure a : EStateM ε σ α) :=
  fun s => frame.refl s

theorem Respects.throw (e : ε) : Respects R (throw e : EStateM ε σ α) :=
  fun s => frame.refl s

theorem Respects.get : Respects R (get : EStateM ε σ σ) :=
  fun s => frame.refl s

theorem Respects.bind {m : EStateM ε σ α} {f : α → EStateM ε σ β} (hm : Respects R m)
    (hf : ∀ a, Respects R (f a)) : Respects R (m >>= f) := by
  intro s
  have h := hm s
  rw [bind_apply]
  cases hs : m s with
  | ok a s₁ =>
    rw [hs] at h
    exact frame.trans _ _ _ h (hf a s₁)
  | error e s₁ =>
    rw [hs] at h
    exact h

end States

/-! ## Building metadata -/

namespace MetadataCache

variable {E : Type}

theorem respects_converterFor {R : MetadataCache E → MetadataCache E → Prop}
    (chain : ∀ cache chain, R cache { cache with chain }) (token : TypeToken) :
    Respects R (converterFor token) := by
  intro cache
  unfold converterFor
  split <;> exact chain cache _

theorem respects_isColumnType {R : MetadataCache E → MetadataCache E → Prop}
    (chain : ∀ cache chain, R cache { cache with chain }) (token : TypeToken) :
    Respects R (isColumnType token) := by
  intro cache
  unfold isColumnType
  split <;> exact chain cache _

section Building

variable {R : MetadataCache E → MetadataCache E → Prop} (frame : IsFrame R)
  (chain : ∀ cache chain, R cache { cache with chain })

include frame chain

theorem respects_buildProperties (schema : Schema E) (naming : NamingConvention)
    {mapperOf : E → Build E (RowMapper E)} (hm : ∀ entity, Respects R (mapperOf entity)) :
    ∀ properties, Respects R (buildProperties schema naming mapperOf properties) := by
  intro properties
  induction properties with
  | nil => exact .pure frame _
  | cons property rest ih =>
    unfold buildProperties
    split
    · refine .bind frame (respects_converterFor chain _) fun converter => ?_
      exact .bind frame ih fun found => .pure frame _
    · refine .bind frame (respects_isColumnType chain _) fun isColumn => ?_
      cases isColumn with
      | true => exact .throw frame _
      | false =>
        refine .bind frame (hm _) fun mapper => ?_
        exact .bind frame ih fun found => .pure frame _

omit chain in
theorem respects_guarded (mark : ∀ cache building, R cache { cache with building }) {α : Type}
    {entity : E} {build : Build E α} (hb : Respects R build) :
    Respects R (guarded entity build) := by
  intro cache
  have hmarked := mark cache (entity :: cache.building)
  have hbuilt := hb { cache with building := entity :: cache.building }
  unfold guarded
  split
  all_goals
    next h =>
      rw [h] at hbuilt
      exact frame.trans _ _ _ hmarked (frame.trans _ _ _ hbuilt (mark _ _))

end Building

variable [DecidableEq E]

/-- Building a mapper respects, while some types are in the course of building, what changes of the
chain, the build of an idle type and the keeping of its mapper respect. -/
theorem respects_mapperWithin {R : List E → MetadataCache E → MetadataCache E → Prop}
    (frame : ∀ building, IsFrame (R building))
    (chain : ∀ building cache chain, R building cache { cache with chain })
    (schema : Schema E) (naming : NamingConvention)
    (guard : ∀ building entity {α : Type} (build : Build E α), entity ∉ building →
      Respects (R (entity :: building)) build → Respects (R building) (guarded entity build))
    (keep : ∀ building entity simple nested, entity ∉ building →
      Respects (R building)
        (keep entity (assemble entity (schema.declaration entity) simple nested)))
    (building : List E) (entity : E) :
    Respects (R building) (mapperWithin schema naming building entity) := by
  induction building, entity using mapperWithin.induct schema with
  | case1 building entity ih =>
    unfold mapperWithin
    refine .bind (frame building) (.get (frame building)) fun cache => ?_
    split
    · exact .pure (frame building) _
    · split
      · exact .throw (frame building) _
      · next hidle =>
        refine .bind (frame building) (guard building entity _ hidle ?_)
          fun found => keep building entity found.1 found.2 hidle
        exact respects_buildProperties (frame _) (chain _) schema naming (ih hidle) _

def Extends (before after : MetadataCache E) : Prop :=
  ∀ entity mapper, before.cached? entity = some mapper → after.cached? entity = some mapper

theorem extends_frame : IsFrame (Extends (E := E)) where
  refl _ _ _ h := h
  trans _ _ _ h h' entity mapper hm := h' entity mapper (h entity mapper hm)

/-- Every mapper that is kept shows the declaration of its entity type. -/
def Describes (cache : MetadataCache E) (schema : Schema E) : Prop :=
  ∀ entity mapper, cache.cached? entity = some mapper →
    ∃ simple nested, mapper = assemble entity (schema.declaration entity) simple nested

theorem describes_ofChain (chain : Chain) (schema : Schema E) : (ofChain chain).Describes schema := by
  intro entity mapper h
  cases h

theorem cached?_keep (cache : MetadataCache E) (entity other : E) (mapper : RowMapper E) :
    (endState (keep entity mapper cache)).cached? other =
      if entity = other then some ((cache.cached? entity).getD mapper) else cache.cached? other := by
  simp only [keep, endState, cached?, Table.get?_putNew]

/-- What is found after a mapper was kept is this mapper or was found before. -/
theorem eq_or_cached?_of_keep {cache : MetadataCache E} {entity other : E} {mapper found : RowMapper E}
    (h : (endState (keep entity mapper cache)).cached? other = some found) :
    (entity = other ∧ found = mapper) ∨ cache.cached? other = some found := by
  rw [cached?_keep] at h
  by_cases he : entity = other
  · subst he
    cases hc : cache.cached? entity with
    | none => exact .inl ⟨rfl, by simpa [hc] using h.symm⟩
    | some kept => exact .inr (by simpa [hc] using h)
  · exact .inr (by simpa [he] using h)

theorem cached?_of_keep {cache cache' : MetadataCache E} {entity : E} {mapper found : RowMapper E}
    (h : keep entity mapper cache = .ok found cache') : cache'.cached? entity = some found := by
  have hkept := cached?_keep cache entity entity mapper
  rw [h] at hkept
  have hfound : found = (cache.cached? entity).getD mapper := by
    simp only [keep, EStateM.Result.ok.injEq, Table.get?_putNew, if_true, Option.getD_some] at h
    exact h.1.symm
  rw [hfound]
  simpa only [endState, if_true] using hkept

theorem extends_mapperWithin (schema : Schema E) (naming : NamingConvention) (building : List E)
    (entity : E) : Respects Extends (mapperWithin schema naming building entity) := by
  refine respects_mapperWithin (R := fun _ => Extends) (fun _ => extends_frame)
    (fun _ _ _ _ _ h => h) schema naming ?_ ?_ building entity
  · exact fun _ _ _ _ _ => respects_guarded extends_frame fun _ _ _ _ h => h
  intro building entity simple nested _ cache other mapper hother
  rw [cached?_keep]
  by_cases he : entity = other
  · subst he
    simp [hother]
  · simpa [he] using hother

theorem describes_mapperWithin (schema : Schema E) (naming : NamingConvention) (building : List E)
    (entity : E) :
    Respects (fun before after => before.Describes schema → after.Describes schema)
      (mapperWithin schema naming building entity) := by
  have hframe : IsFrame fun before after : MetadataCache E =>
      before.Describes schema → after.Describes schema :=
    ⟨fun _ h => h, fun _ _ _ h h' hd => h' (h hd)⟩
  refine respects_mapperWithin (R := fun _ before after => before.Describes schema →
    after.Describes schema) (fun _ => hframe) (fun _ _ _ h => h) schema naming ?_ ?_ building entity
  · exact fun _ _ _ _ _ => respects_guarded hframe fun _ _ h => h
  intro building entity simple nested _ cache hd other mapper hother
  rcases eq_or_cached?_of_keep hother with ⟨rfl, rfl⟩ | hold
  · exact ⟨simple, nested, rfl⟩
  · exact hd other mapper hold

theorem cached?_of_mapperWithin {schema : Schema E} {naming : NamingConvention}
    {building : List E} {entity : E} {mapper : RowMapper E} {cache cache' : MetadataCache E}
    (h : mapperWithin schema naming building entity cache = .ok mapper cache') :
    cache'.cached? entity = some mapper := by
  unfold mapperWithin at h
  obtain ⟨seen, cache₁, hget, h⟩ := bind_ok h
  cases hget
  cases hc : cache.cached? entity with
  | some kept =>
    rw [hc] at h
    cases h
    exact hc
  | none =>
    simp only [hc] at h
    split at h
    · cases h
    · obtain ⟨found, cache₂, -, hkeep⟩ := bind_ok h
      exact cached?_of_keep hkeep

end MetadataCache

/-! ## Sessions -/

namespace Session

variable {E C : Type}

theorem configured_ok {α : Type} {found : Except ConfigError α} {a : α}
    {session session' : Session E C} (h : configured found session = .ok a session') :
    found = .ok a ∧ session' = session := by
  cases found with
  | ok b =>
    cases h
    exact ⟨rfl, rfl⟩
  | error e => cases h

theorem converted_ok {α : Type} {found : Except MappingError α} {a : α}
    {session session' : Session E C} (h : converted found session = .ok a session') :
    found = .ok a ∧ session' = session := by
  cases found with
  | ok b =>
    cases h
    exact ⟨rfl, rfl⟩
  | error e => cases h

/-! ### Other connections -/

section Images

variable {D : Type} (g : C → D)

/-- The same session on the image of its connection. -/
def mapConnection (session : Session E C) : Session E D :=
  { session with connection := g session.connection }

theorem mirrors_inCache {α : Type} (build : MetadataCache.Build E α) :
    Mirrors (mapConnection g) (inCache build) (inCache build) := by
  intro session
  have hcache : (session.mapConnection g).cache = session.cache := rfl
  unfold inCache
  rw [hcache]
  cases build session.cache <;> rfl

theorem mirrors_rendering {α : Type} (render : Rendering α) :
    Mirrors (mapConnection (E := E) g) (rendering render) (rendering render) := by
  intro session
  have hcache : (session.mapConnection g).cache = session.cache := rfl
  unfold rendering
  rw [hcache]
  cases render session.cache.chain <;> rfl

theorem mirrors_configured {α : Type} (found : Except ConfigError α) :
    Mirrors (mapConnection (E := E) g) (configured found) (configured found) := by
  intro session
  cases found <;> rfl

theorem mirrors_converted {α : Type} (found : Except MappingError α) :
    Mirrors (mapConnection (E := E) g) (converted found) (converted found) := by
  intro session
  cases found <;> rfl

variable [DecidableEq E]

theorem mirrors_mapper (entity : E) :
    Mirrors (mapConnection g) (mapper entity) (mapper entity) :=
  .bind_get fun session =>
    mirrors_inCache g (MetadataCache.mapper session.schema session.config.naming entity)

theorem mirrors_requireRegistered (entity : E) :
    Mirrors (mapConnection g) (requireRegistered entity) (requireRegistered entity) := by
  refine .bind_get fun session => ?_
  have hregistered : (session.mapConnection g).isRegistered entity = session.isRegistered entity :=
    rfl
  rw [hregistered]
  split
  · exact .pure ()
  · exact .throw _

end Images

/-! ### Steps that change nothing -/

section Frames

variable {R : Session E C → Session E C → Prop} (frame : IsFrame R)

include frame

theorem respects_configured {α : Type} (found : Except ConfigError α) :
    Respects R (configured found : SessionM E C α) := by
  cases found with
  | ok found => exact .pure frame found
  | error e => exact .throw frame _

theorem respects_converted {α : Type} (found : Except MappingError α) :
    Respects R (converted found : SessionM E C α) := by
  cases found with
  | ok found => exact .pure frame found
  | error e => exact .throw frame _

theorem respects_requireRegistered [DecidableEq E] (entity : E) :
    Respects R (requireRegistered entity : SessionM E C Unit) := by
  refine .bind frame (.get frame) fun session => ?_
  split
  · exact .pure frame _
  · exact .throw frame _

end Frames

/-! ### Steps that leave the connection alone -/

variable [DecidableEq E]

/-- Looking up metadata, counting loads and putting statements together change neither the
connection nor what is declared and registered, and forget no mapper. -/
structure Keeps (before after : Session E C) : Prop where
  schema : after.schema = before.schema
  config : after.config = before.config
  connection : after.connection = before.connection
  registered : after.registered = before.registered
  cached : before.cache.Extends after.cache
  described : before.cache.Describes before.schema → after.cache.Describes before.schema

theorem Keeps.refl (session : Session E C) : session.Keeps session :=
  ⟨rfl, rfl, rfl, rfl, fun _ _ h => h, fun h => h⟩

theorem Keeps.trans {session session₁ session₂ : Session E C} (h : session.Keeps session₁)
    (h' : session₁.Keeps session₂) : session.Keeps session₂ where
  schema := h'.schema.trans h.schema
  config := h'.config.trans h.config
  connection := h'.connection.trans h.connection
  registered := h'.registered.trans h.registered
  cached := fun e m hm => h'.cached e m (h.cached e m hm)
  described := fun hd => h.schema ▸ h'.described (h.schema ▸ h.described hd)

theorem keeps_frame : IsFrame (Keeps (E := E) (C := C)) :=
  ⟨Keeps.refl, fun _ _ _ => Keeps.trans⟩

theorem keeps_mapper (entity : E) : Respects Keeps (mapper entity : SessionM E C (RowMapper E)) := by
  intro session
  have hcached := MetadataCache.extends_mapperWithin session.schema session.config.naming
    session.cache.building entity session.cache
  have hdescribed := MetadataCache.describes_mapperWithin session.schema session.config.naming
    session.cache.building entity session.cache
  change Keeps session (endState (inCache (MetadataCache.mapperWithin session.schema
    session.config.naming session.cache.building entity) session))
  unfold inCache
  split
  · next h =>
    rw [h] at hcached hdescribed
    exact ⟨rfl, rfl, rfl, rfl, hcached, hdescribed⟩
  · next h =>
    rw [h] at hcached hdescribed
    exact ⟨rfl, rfl, rfl, rfl, hcached, hdescribed⟩

theorem keeps_rendering {α : Type} (render : Rendering α) :
    Respects Keeps (rendering render : SessionM E C α) := by
  intro session
  unfold rendering
  split <;> exact ⟨rfl, rfl, rfl, rfl, fun _ _ h => h, fun h => h⟩

theorem keeps_report (event : Event) : Respects Keeps (report event : SessionM E C Unit) :=
  fun _ => ⟨rfl, rfl, rfl, rfl, fun _ _ h => h, fun h => h⟩

theorem cached?_of_mapper {entity : E} {found : RowMapper E} {session session' : Session E C}
    (h : mapper entity session = .ok found session') :
    session'.cache.cached? entity = some found := by
  change inCache _ session = _ at h
  unfold inCache MetadataCache.mapper at h
  split at h
  · next hm =>
    cases h
    exact MetadataCache.cached?_of_mapperWithin hm
  · cases h

end Session

end ObjectRelational
