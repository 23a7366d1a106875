import Mathlib.Algebra.BigOperators.Group.Finset.Basic
import Mathlib.Data.List.DropRight
import ObjectRelational.Proofs.Session.Calls

/-! # How loads for single parents are counted

A load for a single parent is counted as soon as the metadata of the entity type are there and
declare the association, whatever becomes of the load after that. No other step counts anything or
reports repeated loads, and only a reset takes counts away.

* `LoadTracker.Tidy`: one positive count for each association that has been loaded;
* `Session.Counting`, `Session.Quiet`: what a step does to the counts and reports, if anything;
* `Session.singleLoad?`: the association that a step loads for a single parent;
* `Session.Step`, `Session.run`, `Session.course`: calls with resets between them;
* `Session.Settled`: counts and reports after some steps without a reset;
* `Session.loads_after`: counts, statistics and reports after any steps.
-/

namespace ObjectRelational

set_option autoImplicit false

/-! ## Tables without repeated keys -/

namespace Table

variable {κ ν : Type} [DecidableEq κ]

theorem keys_put (table : Table κ ν) (key : κ) (value : ν) :
    keys (put table key value) = if key ∈ keys table then keys table else keys table ++ [key] := by
  induction table with
  | nil => simp [put, keys]
  | cons entry rest ih =>
    obtain ⟨k, v⟩ := entry
    simp only [keys] at ih
    by_cases hk : k = key
    · simp [put, keys, hk]
    · by_cases hrest : key ∈ rest.map Prod.fst
      · simp [put, keys, hk, Ne.symm hk, ih, hrest]
      · simp [put, keys, hk, Ne.symm hk, ih, hrest]

theorem mem_put {table : Table κ ν} {key : κ} {value : ν} {entry : κ × ν}
    (h : entry ∈ put table key value) : entry = (key, value) ∨ entry ∈ table := by
  induction table with
  | nil => exact .inl (List.mem_singleton.1 h)
  | cons first rest ih =>
    obtain ⟨k, v⟩ := first
    by_cases hk : k = key
    · rw [put, if_pos hk, hk] at h
      exact (List.mem_cons.1 h).imp_right (List.mem_cons_of_mem _)
    · rw [put, if_neg hk] at h
      rcases List.mem_cons.1 h with rfl | h
      · exact .inr List.mem_cons_self
      · exact (ih h).imp_right (List.mem_cons_of_mem _)

theorem get?_of_not_mem {table : Table κ ν} {key : κ} (h : key ∉ keys table) :
    get? table key = none := by
  induction table with
  | nil => rfl
  | cons entry rest ih =>
    rw [keys, List.map_cons, List.mem_cons, not_or] at h
    rw [get?, if_neg (Ne.symm h.1)]
    exact ih h.2

theorem get?_of_mem {table : Table κ ν} (hkeys : (keys table).Nodup) {entry : κ × ν}
    (h : entry ∈ table) : get? table entry.1 = some entry.2 := by
  induction table with
  | nil => cases h
  | cons first rest ih =>
    rw [keys, List.map_cons, List.nodup_cons] at hkeys
    rcases List.mem_cons.1 h with rfl | h
    · rw [get?, if_pos rfl]
    · have hne : first.1 ≠ entry.1 := fun he => hkeys.1 (he ▸ List.mem_map_of_mem h)
      rw [get?, if_neg hne]
      exact ih hkeys.2 h

end Table

/-! ## Trackers -/

namespace LoadTracker

/-- Each association that has been loaded has one count, and no other has any. -/
structure Tidy (tracker : LoadTracker) : Prop where
  nodup : (Table.keys tracker.counts).Nodup
  positive : ∀ entry ∈ tracker.counts, 0 < entry.2

theorem tidy_reset (tracker : LoadTracker) : tracker.reset.Tidy :=
  ⟨List.nodup_nil, nofun⟩

theorem count_reset (tracker : LoadTracker) (name : AssociationName) :
    tracker.reset.count name = 0 := rfl

/-- Counts a load, if there is one. -/
def recordAny (tracker : LoadTracker) : Option AssociationName → Option LoadWarning × LoadTracker
  | none => (none, tracker)
  | some name => tracker.record name

theorem Tidy.recordAny {tracker : LoadTracker} (h : tracker.Tidy) (name? : Option AssociationName) :
    (tracker.recordAny name?).2.Tidy := by
  cases name? with
  | none => exact h
  | some name =>
    rw [LoadTracker.recordAny, record]
    split
    · constructor
      · rw [Table.keys_put]
        split
        · exact h.nodup
        · next hnew =>
          refine List.nodup_append.2 ⟨h.nodup, List.nodup_singleton _, fun key hkey other hother => ?_⟩
          rw [List.mem_singleton.1 hother]
          exact fun he => hnew (he ▸ hkey)
      · intro entry hentry
        rcases Table.mem_put hentry with rfl | hentry
        · exact Nat.succ_pos _
        · exact h.positive entry hentry
    · exact h

theorem settings_recordAny (tracker : LoadTracker) (name? : Option AssociationName) :
    (tracker.recordAny name?).2.threshold = tracker.threshold ∧
      (tracker.recordAny name?).2.enabled = tracker.enabled := by
  cases name? with
  | none => exact ⟨rfl, rfl⟩
  | some name =>
    rw [recordAny, record]
    split <;> exact ⟨rfl, rfl⟩

theorem count_recordAny (tracker : LoadTracker) (name? : Option AssociationName)
    (name : AssociationName) :
    (tracker.recordAny name?).2.count name =
      tracker.count name + if tracker.enabled ∧ name? = some name then 1 else 0 := by
  cases name? with
  | none => simp [recordAny]
  | some loaded =>
    unfold recordAny record
    by_cases henabled : tracker.enabled
    · by_cases hname : loaded = name
      · simp [henabled, hname, count]
      · simp [henabled, hname, count, Table.get?_put]
    · simp [henabled]

/-- The load that reaches the threshold is reported. -/
theorem warnings_recordAny (tracker : LoadTracker) (name? : Option AssociationName)
    (name : AssociationName) :
    (tracker.recordAny name?).1.toList.filter (fun warning => warning.name = name) =
      if tracker.enabled ∧ name? = some name ∧ tracker.count name + 1 = tracker.threshold then
        [⟨name, tracker.threshold, tracker.threshold⟩]
      else [] := by
  cases name? with
  | none => simp [recordAny]
  | some loaded =>
    unfold recordAny record
    by_cases henabled : tracker.enabled
    · by_cases hname : loaded = name
      · subst hname
        by_cases hreached : tracker.count loaded + 1 = tracker.threshold
        · simp [henabled, hreached]
        · simp [henabled, hreached]
      · by_cases hreached : tracker.count loaded + 1 = tracker.threshold
        · simp [henabled, hreached, hname]
        · simp [henabled, hreached, hname]
    · simp [henabled]

/-- The statistics are sums over the associations that have been loaded. -/
theorem Tidy.stats {tracker : LoadTracker} (h : tracker.Tidy) :
    ∃ names : Finset AssociationName, (∀ name, name ∈ names ↔ tracker.count name ≠ 0) ∧
      tracker.stats = ⟨∑ name ∈ names, tracker.count name, names.card,
        (names.filter fun name => tracker.threshold ≤ tracker.count name).card⟩ := by
  have hcount : ∀ entry ∈ tracker.counts, tracker.count entry.1 = entry.2 := by
    intro entry hentry
    rw [count, Table.get?_of_mem h.nodup hentry, Option.getD_some]
  refine ⟨(Table.keys tracker.counts).toFinset, fun name => ?_, ?_⟩
  · rw [List.mem_toFinset]
    constructor
    · intro hname
      obtain ⟨entry, hentry, rfl⟩ := List.mem_map.1 hname
      rw [hcount entry hentry]
      exact (h.positive entry hentry).ne'
    · intro hname
      by_contra hnone
      exact hname (by rw [count, Table.get?_of_not_mem hnone, Option.getD_none])
  · have htotal : tracker.counts.foldl (fun total entry => total + entry.2) 0 =
        ∑ name ∈ (Table.keys tracker.counts).toFinset, tracker.count name := by
      rw [List.sum_toFinset _ h.nodup, Table.keys, List.map_map, List.sum_eq_foldl, List.foldl_map]
      exact List.foldl_ext _ _ _ fun total entry hentry => by rw [Function.comp, hcount entry hentry]
    have hlength : tracker.counts.length = (Table.keys tracker.counts).toFinset.card := by
      rw [List.toFinset_card_of_nodup h.nodup, Table.keys, List.length_map]
    have hreached : (tracker.counts.filter fun entry => tracker.threshold ≤ entry.2).length =
        ((Table.keys tracker.counts).toFinset.filter
          fun name => tracker.threshold ≤ tracker.count name).card := by
      have hfilter : ((Table.keys tracker.counts).filter
          fun name => tracker.threshold ≤ tracker.count name).toFinset =
          (Table.keys tracker.counts).toFinset.filter
            fun name => tracker.threshold ≤ tracker.count name := by
        ext name
        simp
      rw [← hfilter, List.toFinset_card_of_nodup (h.nodup.filter _), Table.keys, List.filter_map,
        List.length_map]
      congr 1
      exact List.filter_congr fun entry hentry => by rw [Function.comp, hcount entry hentry]
    rw [LoadTracker.stats, htotal, hlength, hreached]

end LoadTracker

/-! ## Steps that count nothing -/

/-- The report of repeated loads that an event is. -/
def Event.warning? : Event → Option LoadWarning
  | .repeatedLoads warning => some warning
  | .orphans .. => none

namespace Session

variable {E C : Type} [DecidableEq E]

/-- A load has been counted, if there is one to count, and the reports of repeated loads that have
come since are those of the tracker. -/
structure Counting (name? : Option AssociationName) (before after : Session E C) : Prop where
  described : before.cache.Describes before.schema → after.cache.Describes after.schema
  tracker : after.tracker = (before.tracker.recordAny name?).2
  events : ∃ added, after.events = before.events ++ added ∧
    added.filterMap Event.warning? = (before.tracker.recordAny name?).1.toList

/-- Nothing is counted, and no repeated loads are reported. -/
abbrev Quiet (before after : Session E C) : Prop :=
  Counting none before after

theorem Quiet.of_same {before after : Session E C}
    (described : before.cache.Describes before.schema → after.cache.Describes after.schema)
    (tracker : after.tracker = before.tracker) (events : after.events = before.events) :
    Quiet before after :=
  ⟨described, tracker, [], by rw [events, List.append_nil], rfl⟩

theorem Quiet.refl (session : Session E C) : Quiet session session :=
  .of_same id rfl rfl

theorem Counting.after_quiet {name? : Option AssociationName} {session session₁ session₂ : Session E C}
    (h : Quiet session session₁) (h' : Counting name? session₁ session₂) :
    Counting name? session session₂ := by
  have htracker : session₁.tracker = session.tracker := h.tracker
  obtain ⟨added, hadded, hnone⟩ := h.events
  obtain ⟨added', hadded', hsome⟩ := h'.events
  refine ⟨h'.described ∘ h.described, htracker ▸ h'.tracker, added ++ added', ?_, ?_⟩
  · rw [hadded', hadded, List.append_assoc]
  · rw [List.filterMap_append, hnone, hsome, htracker]
    rfl

theorem Counting.then_quiet {name? : Option AssociationName} {session session₁ session₂ : Session E C}
    (h : Counting name? session session₁) (h' : Quiet session₁ session₂) :
    Counting name? session session₂ := by
  obtain ⟨added, hadded, hsome⟩ := h.events
  obtain ⟨added', hadded', hnone⟩ := h'.events
  refine ⟨h'.described ∘ h.described, h'.tracker.trans h.tracker, added ++ added', ?_, ?_⟩
  · rw [hadded', hadded, List.append_assoc]
  · rw [List.filterMap_append, hsome, hnone]
    exact List.append_nil _

theorem quiet_frame : IsFrame (Quiet (E := E) (C := C)) :=
  ⟨Quiet.refl, fun _ _ _ => Counting.after_quiet⟩

theorem quiet_withChain (session : Session E C) (chain : Chain) :
    Quiet session (session.withChain chain) :=
  .of_same id rfl rfl

theorem quiet_rendering {α : Type} (render : Rendering α) :
    Respects Quiet (rendering render : SessionM E C α) := by
  intro session
  unfold rendering
  split <;> exact quiet_withChain session _

theorem quiet_connected {α : Type} (asked : EStateM DatabaseError C α) :
    Respects Quiet (connected asked : SessionM E C α) := by
  intro session
  unfold connected
  split <;> exact .of_same id rfl rfl

theorem quiet_inCache {α : Type} {build : MetadataCache.Build E α} {session : Session E C}
    (h : session.cache.Describes session.schema →
      (endState (build session.cache)).Describes session.schema) :
    Quiet session (endState (inCache build session)) := by
  unfold inCache
  split
  all_goals
    next hbuild =>
      rw [hbuild] at h
      exact .of_same h rfl rfl

theorem quiet_mapper (entity : E) : Respects Quiet (mapper entity : SessionM E C (RowMapper E)) :=
  fun session => quiet_inCache (MetadataCache.describes_mapperWithin session.schema
    session.config.naming session.cache.building entity session.cache)

theorem quiet_register (entity : E) : Respects Quiet (register entity : SessionM E C Unit) := by
  refine .bind quiet_frame (quiet_mapper entity) fun mapper session => ?_
  change Quiet session (if session.isRegistered entity then session
    else { session with registered := entity :: session.registered })
  split
  · exact .refl session
  · exact .of_same id rfl rfl

theorem quiet_repository (entity : E) :
    Respects Quiet (Repository.mapper entity : SessionM E C (RowMapper E)) :=
  .bind quiet_frame (respects_requireRegistered quiet_frame entity) fun _ => quiet_mapper entity

theorem quiet_plan (entity : E) (association : AssociationDecl E) (parents : List Instance) :
    Respects Quiet (Association.plan entity association parents :
      SessionM E C (Association.Plan E)) :=
  Association.respects_plan quiet_frame quiet_mapper quiet_rendering entity association parents

/-! ## Loads for single parents -/

/-- Calls with resets between them. -/
inductive Step (E : Type) where
  | call (call : Call E)
  /-- Forgets all counts. -/
  | reset

/-- The association that a step loads for a single parent: the metadata of the entity type can be
built, and it declares the association. -/
def singleLoad? (session : Session E C) : Step E → Option AssociationName
  | .call (.load entity name parents) =>
      let declaration := session.schema.declaration entity
      if parents.length = 1 ∧ (outcome (mapper entity) session).1.isOk ∧
          ∃ association ∈ declaration.associations, association.property = name then
        some ⟨declaration.shortName, name⟩
      else none
  | _ => none

theorem counting_recordLoad (name : AssociationName) (session : Session E C) :
    ∃ session', Association.recordLoad name session = .ok () session' ∧
      Counting (some name) session session' := by
  refine ⟨{ session with
    tracker := (session.tracker.record name).2
    events := session.events ++ (session.tracker.record name).1.toList.map .repeatedLoads },
    ?_, id, rfl, _, rfl, ?_⟩
  · have hget : ∀ k : Session E C → SessionM E C Unit, (get >>= k) session = k session session :=
      fun _ => rfl
    rw [Association.recordLoad, hget]
    rcases session.tracker.record name with ⟨_ | warning, tracker⟩
    · rw [Option.toList, List.map_nil, List.append_nil]
      rfl
    · rfl
  · rw [List.filterMap_map]
    exact List.filterMap_some

/-- A mapper shows the declaration of its entity type. -/
theorem mapper_ok {entity : E} {found : RowMapper E} {session session' : Session E C}
    (hd : session.cache.Describes session.schema)
    (h : mapper entity session = .ok found session') :
    found.metadata.typeName = (session.schema.declaration entity).shortName ∧
      found.metadata.associations = (session.schema.declaration entity).associations := by
  have hkeeps := (keeps_mapper entity).of_ok h
  obtain ⟨simple, nested, rfl⟩ := hkeeps.described hd entity found (cached?_of_mapper h)
  exact ⟨rfl, rfl⟩

theorem singleLoad?_load (session : Session E C) (entity : E) (name : String)
    (parents : List Instance) :
    session.singleLoad? (.call (.load entity name parents)) =
      if parents.length = 1 ∧ (outcome (mapper entity) session).1.isOk ∧
          ∃ association ∈ (session.schema.declaration entity).associations,
            association.property = name then
        some ⟨(session.schema.declaration entity).shortName, name⟩
      else none := rfl

theorem counting_begin (entity : E) (name : String) (parents : List Instance)
    {session : Session E C} (hd : session.cache.Describes session.schema) :
    Counting (session.singleLoad? (.call (.load entity name parents))) session
      (endState (Association.begin entity name parents session)) := by
  have hquiet := quiet_mapper entity session
  rw [singleLoad?_load, Association.begin, bind_apply]
  cases hmapper : mapper entity session with
  | error e session₁ =>
    rw [hmapper] at hquiet
    have hfailed : (outcome (mapper entity) session).1.isOk = false := by
      rw [outcome, hmapper]
      rfl
    rw [if_neg (by simp [hfailed])]
    exact hquiet
  | ok mapper session₁ =>
    rw [hmapper] at hquiet
    have hbuilt : (outcome (Session.mapper entity) session).1.isOk = true := by
      rw [outcome, hmapper]
      rfl
    obtain ⟨htype, hassociations⟩ := mapper_ok hd hmapper
    rw [← htype, ← hassociations]
    cases hfound : mapper.metadata.association? name with
    | none =>
      have hmissing := List.find?_eq_none.1 hfound
      rw [if_neg fun h => by
        obtain ⟨-, -, association, hmem, hname⟩ := h
        exact hmissing association hmem (decide_eq_true hname)]
      simp only [hfound]
      exact hquiet
    | some association =>
      have hmem := List.mem_of_find?_eq_some hfound
      have hname : association.property = name := by simpa using List.find?_some hfound
      by_cases hsingle : parents.length = 1
      · rw [if_pos ⟨hsingle, hbuilt, association, hmem, hname⟩]
        simp only [hfound, hsingle, if_true, hname]
        obtain ⟨session₂, hrecord, hcounting⟩ :=
          counting_recordLoad ⟨mapper.metadata.typeName, name⟩ session₁
        rw [bind_apply, hrecord]
        exact hquiet.after_quiet hcounting
      · rw [if_neg fun h => hsingle h.1]
        simp only [hfound, hsingle, if_false]
        exact hquiet

variable [Connection C]

/-- A load counts what it loads for a single parent, however it ends. -/
theorem counting_load (entity : E) (name : String) (parents : List Instance)
    {session : Session E C} (hd : session.cache.Describes session.schema) :
    Counting (session.singleLoad? (.call (.load entity name parents))) session
      (Association.load entity name parents session).2 := by
  have hfetch : Counting (session.singleLoad? (.call (.load entity name parents))) session
      (endState (Association.fetch entity name parents session)) := by
    have hbegin := counting_begin entity name parents hd
    rw [Association.fetch, bind_apply]
    cases hend : Association.begin entity name parents session with
    | error e session₁ =>
      rw [hend] at hbegin
      exact hbegin
    | ok association session₁ =>
      rw [hend] at hbegin
      refine hbegin.then_quiet (Respects.bind quiet_frame (quiet_plan entity association parents)
        (fun plan => ?_) session₁)
      exact .bind quiet_frame (quiet_connected _) fun rows => .pure quiet_frame _
  unfold Association.load
  rcases hend : Association.fetch entity name parents session with ⟨⟨plan, rows⟩, session₁⟩ | ⟨e, session₁⟩
  · rw [hend] at hfetch
    dsimp only
    rcases Association.distribute plan rows parents with ⟨e | orphans, after⟩
    · exact hfetch
    · cases orphans with
      | zero => exact hfetch
      | succ n => exact hfetch.then_quiet ⟨id, rfl, _, rfl, rfl⟩
  · rw [hend] at hfetch
    exact hfetch

theorem counting_perform {session : Session E C} (hd : session.cache.Describes session.schema)
    (call : Call E) :
    Counting (session.singleLoad? (.call call)) session (session.perform call).2 := by
  cases call with
  | mapper entity =>
    change Quiet session (outcome _ session).2
    rw [outcome_state]
    exact quiet_mapper entity session
  | register entity =>
    change Quiet session (outcome _ session).2
    rw [outcome_state]
    exact quiet_register entity session
  | repository entity =>
    change Quiet session (outcome _ session).2
    rw [outcome_state]
    exact quiet_repository entity session
  | load entity name parents => exact counting_load entity name parents hd
  | types asked => exact quiet_withChain session _

/-! ## Runs -/

/-- The session after a step. -/
def step (session : Session E C) : Step E → Session E C
  | .call call => (session.perform call).2
  | .reset => session.resetLoads

/-- The session after some steps. -/
def run (session : Session E C) (steps : List (Step E)) : Session E C :=
  steps.foldl step session

/-- Some steps, each with the session in which it is taken. -/
def course (session : Session E C) : List (Step E) → List (Session E C × Step E)
  | [] => []
  | first :: rest => (session, first) :: (session.step first).course rest

theorem run_concat (session : Session E C) (steps : List (Step E)) (last : Step E) :
    session.run (steps ++ [last]) = (session.run steps).step last := by
  simp [run]

theorem course_concat (session : Session E C) (steps : List (Step E)) (last : Step E) :
    session.course (steps ++ [last]) = session.course steps ++ [(session.run steps, last)] := by
  induction steps generalizing session with
  | nil => rfl
  | cons first rest ih =>
    rw [List.cons_append, course, ih]
    rfl

def Step.isReset : Step E → Bool
  | .call _ => false
  | .reset => true

omit [DecidableEq E] [Connection C] in
/-- The last steps of a course, as far back as there is no reset. -/
def sinceReset (places : List (Session E C × Step E)) : List (Session E C × Step E) :=
  places.rtakeWhile fun place => !place.2.isReset

/-- What a step reports of repeated loads of an association. -/
def warnings (session : Session E C) (step : Step E) (name : AssociationName) : List LoadWarning :=
  (((session.step step).events.drop session.events.length).filterMap Event.warning?).filter
    fun warning => warning.name = name

/-- The counts of a session are kept as it is configured. -/
structure Accounts (config : Config) (session : Session E C) : Prop where
  described : session.cache.Describes session.schema
  tidy : session.tracker.Tidy
  threshold : session.tracker.threshold = max config.loadThreshold 1
  enabled : session.tracker.enabled = config.countsLoads

omit [Connection C] in
theorem accounts_openWith (schema : Schema E) (connection : C) (chain : Chain) (config : Config) :
    Accounts config (openWith schema connection chain config) :=
  ⟨MetadataCache.describes_ofChain chain schema, ⟨List.nodup_nil, nofun⟩, rfl, rfl⟩

section Steps

variable {config : Config} {session : Session E C} (h : Accounts config session)

include h

theorem Accounts.step (step : Step E) : Accounts config (session.step step) := by
  cases step with
  | call call =>
    have hcounting := counting_perform h.described call
    obtain ⟨hthreshold, henabled⟩ :=
      session.tracker.settings_recordAny (session.singleLoad? (.call call))
    rw [← hcounting.tracker] at hthreshold henabled
    refine ⟨hcounting.described h.described, ?_, hthreshold.trans h.threshold, henabled.trans h.enabled⟩
    change LoadTracker.Tidy (session.perform call).2.tracker
    rw [hcounting.tracker]
    exact h.tidy.recordAny _
  | reset => exact ⟨h.described, LoadTracker.tidy_reset _, h.threshold, h.enabled⟩

theorem Accounts.loadCount_call (call : Call E) (name : AssociationName) :
    (session.perform call).2.loadCount name = session.loadCount name +
      if config.countsLoads ∧ session.singleLoad? (.call call) = some name then 1 else 0 := by
  rw [loadCount, (counting_perform h.described call).tracker, LoadTracker.count_recordAny, h.enabled]
  rfl

/-- Events stay, and a step reports the load that reaches the threshold. -/
theorem Accounts.reports (step : Step E) :
    session.events <+: (session.step step).events ∧ ∀ name, session.warnings step name =
      if config.countsLoads ∧ session.singleLoad? step = some name ∧
          session.loadCount name + 1 = max config.loadThreshold 1 then
        [⟨name, max config.loadThreshold 1, max config.loadThreshold 1⟩]
      else [] := by
  cases step with
  | call call =>
    obtain ⟨added, hadded, hwarnings⟩ := (counting_perform h.described call).events
    have hevents : (session.step (.call call)).events = session.events ++ added := hadded
    refine ⟨hevents ▸ List.prefix_append _ _, fun name => ?_⟩
    rw [warnings, hevents, List.drop_left, hwarnings, LoadTracker.warnings_recordAny, h.enabled,
      h.threshold]
    rfl
  | reset =>
    have hevents : (session.step .reset).events = session.events := rfl
    refine ⟨hevents ▸ List.prefix_rfl, fun name => ?_⟩
    rw [warnings, hevents, List.drop_length]
    simp [singleLoad?]

end Steps

/-- What some steps without a reset have led to for an association: its count is the number of them
that load it for a single parent, and it has been reported once if the count has reached the limit. -/
structure Settled (config : Config) (session : Session E C)
    (recent : List (Session E C × Step E)) (name : AssociationName) : Prop where
  count : session.loadCount name = if config.countsLoads then
    recent.countP fun place => place.1.singleLoad? place.2 = some name else 0
  reported : recent.flatMap (fun place => place.1.warnings place.2 name) =
    if max config.loadThreshold 1 ≤ session.loadCount name then
      [⟨name, max config.loadThreshold 1, max config.loadThreshold 1⟩]
    else []

theorem settled_of_zero (config : Config) {session : Session E C} {name : AssociationName}
    (h : session.loadCount name = 0) : Settled config session [] name := by
  have hlimit : ¬ max config.loadThreshold 1 ≤ 0 := by omega
  refine ⟨?_, ?_⟩
  · rw [h]
    exact (ite_self 0).symm
  · rw [h, if_neg hlimit]
    rfl

theorem Settled.call {config : Config} {session : Session E C} (haccounts : Accounts config session)
    {recent : List (Session E C × Step E)} {name : AssociationName}
    (h : Settled config session recent name) (call : Call E) :
    Settled config (session.perform call).2 (recent ++ [(session, .call call)]) name := by
  have hcount := haccounts.loadCount_call call name
  have hreport := (haccounts.reports (.call call)).2 name
  by_cases hsingle : config.countsLoads ∧ session.singleLoad? (.call call) = some name
  · obtain ⟨henabled, hload⟩ := hsingle
    rw [if_pos ⟨henabled, hload⟩] at hcount
    constructor
    · rw [hcount, h.count, List.countP_append, List.countP_singleton]
      simp [henabled, hload]
    · -- The count goes up by one, and the report comes when it gets to the limit.
      simp only [henabled, hload, true_and] at hreport
      rw [hcount, List.flatMap_append, h.reported, List.flatMap_singleton, hreport]
      split_ifs <;> first | rfl | omega
  · rw [if_neg hsingle, Nat.add_zero] at hcount
    rw [if_neg fun hreached => hsingle ⟨hreached.1, hreached.2.1⟩] at hreport
    constructor
    · rw [hcount, h.count, List.countP_append, List.countP_singleton]
      by_cases henabled : config.countsLoads
      · have hother : session.singleLoad? (.call call) ≠ some name :=
          fun hload => hsingle ⟨henabled, hload⟩
        simp [henabled, hother]
      · simp [henabled]
    · rw [hcount, List.flatMap_append, h.reported, List.flatMap_singleton, hreport, List.append_nil]

omit [DecidableEq E] [Connection C] in
theorem sinceReset_concat (places : List (Session E C × Step E)) (last : Session E C × Step E) :
    sinceReset (places ++ [last]) = if last.2.isReset then [] else sinceReset places ++ [last] := by
  rw [sinceReset, List.rtakeWhile_concat]
  cases last.2.isReset <;> rfl

/-- Every run of steps settles the counts and the reports since its last reset. -/
theorem settled_run {config : Config} {start : Session E C} (hstart : Accounts config start)
    (hzero : ∀ name, start.loadCount name = 0) (steps : List (Step E)) :
    Accounts config (start.run steps) ∧
      ∀ name, Settled config (start.run steps) (sinceReset (start.course steps)) name := by
  induction steps using List.reverseRecOn with
  | nil => exact ⟨hstart, fun name => settled_of_zero config (hzero name)⟩
  | append_singleton steps last ih =>
    obtain ⟨haccounts, hsettled⟩ := ih
    rw [run_concat, course_concat, sinceReset_concat]
    refine ⟨haccounts.step last, fun name => ?_⟩
    cases last with
    | call call => exact (hsettled name).call haccounts call
    | reset => exact settled_of_zero config (LoadTracker.count_reset _ name)

/-- On a new session any steps are taken. Where loads are counted, the count of an association is the
number of the steps since the last reset that load it for a single parent, whether or not the load
fails afterwards, and otherwise there are no counts. The statistics are the sum of the counts, the
number of associations with a count and the number of those whose count has reached the limit, which
is the configured one but at least one. Of an association whose count has reached the limit since the
last reset there has been one report since then, and of another none: a step reports an association
exactly if it takes its count to the limit. -/
theorem loads_after (schema : Schema E) (connection : C) (chain : Chain) (config : Config)
    (steps : List (Step E)) :
    let start := openWith schema connection chain config
    let session := start.run steps
    let recent := sinceReset (start.course steps)
    let limit := max config.loadThreshold 1
    (∀ name, session.loadCount name = if config.countsLoads then
      recent.countP fun place => place.1.singleLoad? place.2 = some name else 0) ∧
    (∃ names : Finset AssociationName, (∀ name, name ∈ names ↔ session.loadCount name ≠ 0) ∧
      session.loadStats = ⟨∑ name ∈ names, session.loadCount name, names.card,
        (names.filter fun name => limit ≤ session.loadCount name).card⟩) ∧
    (∀ name, recent.flatMap (fun place => place.1.warnings place.2 name) =
      if limit ≤ session.loadCount name then [⟨name, limit, limit⟩] else []) ∧
    ∀ step, session.events <+: (session.step step).events ∧ ∀ name, session.warnings step name =
      if config.countsLoads ∧ session.singleLoad? step = some name ∧
          session.loadCount name + 1 = limit then
        [⟨name, limit, limit⟩]
      else [] := by
  intro start session recent limit
  obtain ⟨haccounts, hsettled⟩ :=
    settled_run (accounts_openWith schema connection chain config) (fun _ => rfl) steps
  refine ⟨fun name => (hsettled name).count, ?_, fun name => (hsettled name).reported,
    haccounts.reports⟩
  obtain ⟨names, hnames, hstats⟩ := haccounts.tidy.stats
  rw [haccounts.threshold] at hstats
  exact ⟨names, hnames, hstats⟩

end Session

end ObjectRelational
