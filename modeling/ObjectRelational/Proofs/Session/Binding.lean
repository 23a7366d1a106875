import ObjectRelational.Proofs.Mapping.Transparency
import ObjectRelational.Proofs.Query.Binding
import ObjectRelational.Proofs.Session.Converters
import ObjectRelational.Session.Repository

/-! # Written and asked for alike

A property is written with the converter that its mapper keeps, and asked for with the converter
that the chain gives for its type when the condition is rendered. As long as nothing is registered
after the mapper is built both are the same, whatever else is looked up, and so the value of a
property is bound in one way, or in both ways fails to be bound.

* `SimpleProperty.filterOn`: a condition on the column of a property with its value in an instance;
* `Session.converterFor_of_built`: the converters that a mapper keeps are those of the chain;
* `Session.insert_eq`: what an insertion sends to the connection;
* `Session.binding_after`: conditions and insertions bind alike, after any calls.
-/

namespace ObjectRelational

set_option autoImplicit false

/-! ## Binding by a property -/

namespace SimpleProperty

/-- A condition that compares the column of a property with its value in an instance. -/
def filterOn (property : SimpleProperty) (comparison : Comparison) (object : Instance)
    (root : String) (taken : Nat) : Rendering (Sql × List Parameter) := do
  let value ← Rendering.converted (property.get object)
  ((Condition.ofTest property.column (.compare comparison value)).withType
    property.type.token).render root taken

/-- The bound form of a property's value. -/
def boundForm (property : SimpleProperty) (object : Instance) : Except MappingError Value := do
  property.converter.write (← property.get object)

theorem mapM_boundForm {property : SimpleProperty} {objects : List Instance} {values : List Value}
    (h : objects.mapM property.get = .ok values) :
    objects.mapM property.boundForm = values.mapM property.converter.write := by
  induction objects generalizing values with
  | nil =>
    cases h
    rfl
  | cons object rest ih =>
    rw [List.mapM_cons] at h
    obtain ⟨value, hvalue, h⟩ := except_bind_ok h
    obtain ⟨others, hothers, h⟩ := except_bind_ok h
    cases h
    rw [List.mapM_cons, List.mapM_cons, ih hothers, boundForm, hvalue]
    rfl

end SimpleProperty

namespace RowMapper

variable {E : Type}

theorem bindProperty_eq (metadata : EntityMetadata E) (object : Instance)
    (property : SimpleProperty) :
    bindProperty metadata object property =
      metadata.atProperty property ((property.boundForm object).map fun value =>
        ⟨property.name, property.column, property.converter.placeholder property.name, value⟩) := by
  change (metadata.atProperty property (property.boundForm object) >>= _) = _
  cases property.boundForm object <;> rfl

theorem mapM_bindProperty (metadata : EntityMetadata E) (property : SimpleProperty)
    (objects : List Instance) :
    (objects.mapM fun object => bindProperty metadata object property) =
      metadata.atProperty property ((objects.mapM property.boundForm).map fun values =>
        values.map fun value =>
          ⟨property.name, property.column, property.converter.placeholder property.name, value⟩) := by
  induction objects with
  | nil => rfl
  | cons object rest ih =>
    rw [List.mapM_cons, List.mapM_cons, ih, bindProperty_eq]
    cases property.boundForm object with
    | error e => rfl
    | ok value => cases rest.mapM property.boundForm <;> rfl

/-- An instance is bound property by property, up to the first that cannot be bound. -/
theorem bind_eq (mapper : RowMapper E) (object : Instance) :
    mapper.bind object = mapper.metadata.simple.mapM (bindProperty mapper.metadata object) := by
  unfold bind
  induction mapper.metadata.simple with
  | nil => rfl
  | cons property rest ih => rw [bindProperties, List.mapM_cons, ih]

/-- The column and the parameter of a bound value in an insertion. -/
def assignmentOf (bound : BoundValue) : Assignment :=
  ⟨bound.column, bound.property, .bound bound.placeholder bound.value⟩

theorem insertion_eq (mapper : RowMapper E) (bounds : List BoundValue) :
    mapper.insertion bounds = ⟨mapper.metadata.table, bounds.map assignmentOf⟩ := by
  have hfold : ∀ insert : Insert, bounds.foldl (fun insert b =>
      insert.bound b.column b.property b.placeholder b.value) insert =
        { insert with assignments := insert.assignments ++ bounds.map assignmentOf } := by
    induction bounds with
    | nil => simp
    | cons bound rest ih =>
      intro insert
      rw [List.foldl_cons, ih]
      simp [Insert.bound, Insert.assign, assignmentOf]
  exact hfold _

/-- An insertion of bound values is rendered with their placeholders and values as they are. -/
theorem render_insertion (mapper : RowMapper E) (bounds : List BoundValue) (chain : Chain) :
    (mapper.insertion bounds).render chain =
      .ok ⟨String.ofList (((mapper.insertion bounds).sql (bounds.map BoundValue.placeholder)).chars
          chain.head.dialect.quoteMark),
        bounds.map fun bound => ⟨bound.property, bound.value⟩⟩ chain := by
  have hall : Insert.bindAll (bounds.map assignmentOf) chain =
      .ok (bounds.map fun bound => (bound.placeholder, ⟨bound.property, bound.value⟩)) chain := by
    induction bounds with
    | nil => rfl
    | cons bound rest ih =>
      rw [List.map_cons, Insert.bindAll, bind_apply]
      change (Insert.bindAll (rest.map assignmentOf) >>= _) chain = _
      rw [bind_apply, ih]
      rfl
  rw [insertion_eq, Insert.render, bind_apply, hall]
  simp only [List.map_map]
  rfl

end RowMapper

/-! ## Rendering by a property -/

theorem answerOf_converted {α : Type} (found : Except MappingError α) (chain : Chain) :
    answerOf (Rendering.converted found chain) = found.mapError .mapping := by
  cases found <;> rfl

theorem Chain.converterFor_ok {chain : Chain} {token : TypeToken} {converter : Converter}
    (h : (chain.converterFor token).1 = .ok converter) :
    chain.converterFor token = (.ok converter, (chain.resolve token).2) :=
  Prod.ext h (chain.converterFor_chain token)

namespace SimpleProperty

variable {property : SimpleProperty} {chain : Chain}
  (current : (chain.converterFor property.type.token).1 = .ok property.converter)

include current

theorem answerOf_filterOn (comparison : Comparison) (object : Instance) (root : String)
    (taken : Nat) :
    answerOf (property.filterOn comparison object root taken chain) =
      ((property.boundForm object).map fun value =>
        (Sql.qualified root property.column ++ [.text (" " ++ comparison.sql ++ " "),
            .text (property.converter.placeholder (Condition.parameterName taken))],
          [(⟨Condition.parameterName taken, value⟩ : Parameter)])).mapError .mapping := by
  unfold filterOn boundForm
  rw [bind_apply]
  cases property.get object with
  | error e => rfl
  | ok value =>
    change answerOf ((((Condition.ofTest property.column (.compare comparison value)).withType
      property.type.token).render root taken) chain) = _
    rw [Condition.render_compare (Chain.converterFor_ok current), answerOf_converted]
    rfl

theorem answerOf_oneOf {objects : List Instance} {values : List Value} (hne : objects ≠ [])
    (hvalues : objects.mapM property.get = .ok values) (root : String) (taken : Nat) :
    answerOf ((((Condition.oneOf property.column values).withType property.type.token).render
        root taken) chain) =
      ((objects.mapM property.boundForm).map fun bound =>
        (Sql.qualified root property.column ++ .text " IN (" ::
            Sql.separated ", " (bound.zipIdx.map fun entry =>
              [.text (property.converter.placeholder (Condition.itemName taken entry.2))])
            ++ [.text ")"],
          bound.zipIdx.map fun entry =>
            (⟨Condition.itemName taken entry.2, entry.1⟩ : Parameter))).mapError .mapping := by
  have hitems : values ≠ [] := by
    rintro rfl
    obtain ⟨object, rest, rfl⟩ := List.exists_cons_of_ne_nil hne
    rw [List.mapM_cons] at hvalues
    obtain ⟨value, -, hrest⟩ := except_bind_ok hvalues
    obtain ⟨others, -, hnil⟩ := except_bind_ok hrest
    cases hnil
  rw [Condition.render_oneOf (Chain.converterFor_ok current) _ _ hitems, answerOf_converted,
    mapM_boundForm hvalues]

end SimpleProperty

/-! ## Sessions -/

namespace Session

variable {E C : Type} [DecidableEq E]

theorem mapper_of_cached {session : Session E C} {entity : E} {found : RowMapper E}
    (h : session.cache.cached? entity = some found) :
    mapper entity session = .ok found session := by
  have hcache : MetadataCache.mapper session.schema session.config.naming entity session.cache =
      .ok found session.cache := by
    rw [MetadataCache.mapper_eq, h]
  change inCache _ session = _
  unfold inCache
  rw [hcache]

variable [Connection C]

/-- A registered type with a mapper is inserted by one statement, with the placeholders and values
that its properties are bound to. An instance that cannot be bound is not sent anywhere. -/
theorem insert_eq {session : Session E C} {entity : E} {found : RowMapper E}
    (hcached : session.cache.cached? entity = some found)
    (hregistered : session.isRegistered entity = true) (object : Instance) :
    Repository.insert entity object session = match found.bind object with
      | .error e => .error (.mapping e) session
      | .ok bounds =>
          connected (Connection.execute ⟨String.ofList
              (((found.insertion bounds).sql (bounds.map BoundValue.placeholder)).chars
                session.cache.chain.head.dialect.quoteMark),
            bounds.map fun bound => ⟨bound.property, bound.value⟩⟩) session := by
  have hrequire : requireRegistered entity session = .ok () session := by
    change (if session.isRegistered entity then pure ()
      else throw _ : SessionM E C Unit) session = _
    rw [if_pos hregistered]
    rfl
  have hmapper : (Repository.mapper entity : SessionM E C (RowMapper E)) session =
      .ok found session := by
    rw [Repository.mapper, bind_apply, hrequire]
    exact mapper_of_cached hcached
  rw [Repository.insert, bind_apply, hmapper]
  change (converted (found.bind object) >>= _) session = _
  rw [bind_apply]
  cases found.bind object with
  | error e => rfl
  | ok bounds =>
    change (rendering (found.insertion bounds).render >>= _) session = _
    rw [bind_apply]
    unfold rendering
    rw [found.render_insertion]

section Histories

variable (schema : Schema E) (connection : C) (chain : Chain) (config : Config)
  (earlier later : List (Call E))
  (tell : NamesTell fun token =>
    schema.Mentions token ∨ ∃ asked, .types asked ∈ later ∧ asked.token = token)
  (fixed : ∀ asked, .types asked ∈ later → asked.isRegistration = false)
  {entity : E} {found : RowMapper E}
  (unbuilt : ((openWith schema connection chain config).after earlier).cache.cached? entity = none)
  (built : ((openWith schema connection chain config).after (earlier ++ later)).cache.cached? entity =
    some found)

include tell fixed unbuilt built

/-- With nothing registered since a mapper was built, its converters are those of the chain. -/
theorem converterFor_of_built {property : SimpleProperty} (hmem : property ∈ found.metadata.simple) :
    (((openWith schema connection chain config).after (earlier ++ later)).cache.chain.converterFor
      property.type.token).1 = .ok property.converter := by
  let types : TypeToken → Prop := fun token =>
    schema.Mentions token ∨ ∃ asked, .types asked ∈ later ∧ asked.token = token
  have hmentions : ∀ token, schema.Mentions token → types token := fun _ h => .inl h
  let start := (openWith schema connection chain config).after earlier
  -- Up to here registrations may come in between: of the mappers only the types are known.
  have hearlier : start.schema = schema ∧
      start.cache.Stocked types (fun _ => True) (fun _ _ => True) fun _ => False :=
    stocked_after hmentions (fun _ _ _ _ => trivial) (fun _ _ _ _ _ _ => trivial) earlier
      (fun _ _ _ _ => trivial) ⟨rfl, MetadataCache.stocked_ofChain trivial⟩
  obtain ⟨hschema, hknown⟩ := hearlier
  let origin := start.cache.chain
  have hstart : start.cache.Stocked types (fun later => origin.Remembers types later)
      (fun type converter => (origin.converterFor type.token).1 = .ok converter)
      (fun other => start.cache.cached? other ≠ none) :=
    ⟨.refl origin, hknown.types, fun other kept hkept hnew => absurd (hkept ▸ Option.some_ne_none _)
      hnew⟩
  have hlookup : ∀ token, types token → ∀ after : Chain, origin.Remembers types after →
      origin.Remembers types (after.resolve token).2 :=
    fun token htoken after h => h.trans (after.remembers_resolve tell htoken)
  have hgives : ∀ type : ColumnType, types type.token → ∀ after : Chain,
      origin.Remembers types after → ∀ converter, (after.converterFor type.token).1 = .ok converter →
        (origin.converterFor type.token).1 = .ok converter := by
    intro type htype after h converter hconverter
    rw [← hconverter, Chain.converterFor_of_remembers tell h htype]
  have hasks : ∀ asked, Call.types asked ∈ later → ∀ after : Chain, origin.Remembers types after →
      origin.Remembers types (after.perform asked) := fun asked hasked after h =>
    h.trans (after.remembers_lookup tell (fixed asked hasked) (.inr ⟨asked, hasked, rfl⟩))
  obtain ⟨-, hend⟩ := stocked_after hmentions hlookup hgives later hasks ⟨hschema, hstart⟩
  rw [after_append] at built ⊢
  have hnew : ¬ start.cache.cached? entity ≠ none := fun hne => hne unbuilt
  rw [Chain.converterFor_of_remembers tell hend.chain (hend.types entity found built property hmem)]
  exact hend.columns entity found built hnew property hmem

/-- Since a mapper was built nothing has been registered. Then, after any calls, the value of a
property is bound in a condition on its column as it is bound when the instance is written: to the
same value, and in the same placeholder but for the name of the parameter. Where one of them fails,
so does the other, with the same fault, which the mapper reports together with the property. Of a
list of instances this holds one by one, up to the first that fails. An insertion sends what the
properties are bound to, in their order, or nothing at all. -/
theorem binding_after :
    let session := (openWith schema connection chain config).after (earlier ++ later)
    (∀ property ∈ found.metadata.simple, ∃ before after,
      (∀ object, ∃ outcome : Except MappingError Value,
        RowMapper.bindProperty found.metadata object property =
          found.metadata.atProperty property (outcome.map fun value =>
            ⟨property.name, property.column, before ++ property.name ++ after, value⟩) ∧
        ∀ comparison root taken,
          answerOf (property.filterOn comparison object root taken session.cache.chain) =
            (outcome.map fun value =>
              (Sql.qualified root property.column ++ [.text (" " ++ comparison.sql ++ " "),
                  .text (before ++ Condition.parameterName taken ++ after)],
                [(⟨Condition.parameterName taken, value⟩ : Parameter)])).mapError .mapping) ∧
      ∀ objects values, objects ≠ [] → objects.mapM property.get = .ok values →
        ∃ outcome : Except MappingError (List Value),
          (objects.mapM fun object => RowMapper.bindProperty found.metadata object property) =
            found.metadata.atProperty property (outcome.map fun bound => bound.map fun value =>
              ⟨property.name, property.column, before ++ property.name ++ after, value⟩) ∧
          ∀ root taken,
            answerOf ((((Condition.oneOf property.column values).withType
                property.type.token).render root taken) session.cache.chain) =
              (outcome.map fun bound =>
                (Sql.qualified root property.column ++ .text " IN (" ::
                    Sql.separated ", " (bound.zipIdx.map fun entry =>
                      [.text (before ++ Condition.itemName taken entry.2 ++ after)]) ++ [.text ")"],
                  bound.zipIdx.map fun entry =>
                    (⟨Condition.itemName taken entry.2, entry.1⟩ : Parameter))).mapError .mapping) ∧
    ∀ object,
      found.bind object =
        found.metadata.simple.mapM (RowMapper.bindProperty found.metadata object) ∧
      (session.isRegistered entity = true →
        Repository.insert entity object session = match found.bind object with
          | .error e => .error (.mapping e) session
          | .ok bounds =>
              connected (Connection.execute ⟨String.ofList
                  (((found.insertion bounds).sql (bounds.map BoundValue.placeholder)).chars
                    session.cache.chain.head.dialect.quoteMark),
                bounds.map fun bound => ⟨bound.property, bound.value⟩⟩) session) := by
  intro session
  refine ⟨fun property hmem => ?_, fun object => ⟨found.bind_eq object,
    fun hregistered => insert_eq built hregistered object⟩⟩
  have hcurrent := converterFor_of_built schema connection chain config earlier later tell fixed
    unbuilt built hmem
  obtain ⟨before, after, hplaceholder⟩ := property.converter.placeholder_eq
  refine ⟨before, after, fun object => ⟨property.boundForm object, ?_, ?_⟩,
    fun objects values hne hvalues => ⟨objects.mapM property.boundForm, ?_, ?_⟩⟩
  · rw [RowMapper.bindProperty_eq, hplaceholder]
  · intro comparison root taken
    rw [SimpleProperty.answerOf_filterOn hcurrent, hplaceholder]
  · rw [RowMapper.mapM_bindProperty, hplaceholder]
  · intro root taken
    rw [SimpleProperty.answerOf_oneOf hcurrent hne hvalues]
    simp only [hplaceholder]

end Histories

/-- A diary whose entries have a mood. -/
inductive Diary where
  | entry
  deriving DecidableEq

namespace Diary

def feeling : ColumnType := ⟨Chain.mood, .enumeration ["HAPPY", "GRUMPY"]⟩

def schema : Schema Diary where
  entities := [.entry]
  complete entity := by cases entity; simp
  declaration _ := .ofProperties "diary::Entry" "entries" "mood" [.field "mood" feeling "mood"] []

/-- The mood gets another database type, before it is looked up. -/
def earlier : List (Call Diary) :=
  [.types (.registerEnum Chain.mood "feeling")]

def later : List (Call Diary) :=
  [.types (.resolve Chain.mood), .register .entry, .types (.converterFor Chain.mood)]

def session : Session Diary RecordingConnection :=
  (openWith schema {} (Engine.postgres.chain 4326) .standard).after (earlier ++ later)

theorem mentions {token : TypeToken} (h : schema.Mentions token) :
    token = (schema.declaration .entry).token ∨ token = Chain.mood := by
  rcases h with ⟨entity, rfl⟩ | ⟨entity, property, hmem, type, optional, hkind, rfl⟩
  · exact .inl rfl
  · simp only [schema, EntityDecl.ofProperties, List.mem_singleton] at hmem
    subst hmem
    cases hkind
    exact .inr rfl

end Diary

/-- An entry is written and asked for in the registered database type. -/
theorem binding_after_diary :
    ∃ found property before after, Diary.session.cache.cached? .entry = some found ∧
      property ∈ found.metadata.simple ∧
      property.converter = .enumeration "Mood" ["HAPPY", "GRUMPY"] (some "feeling") ∧
      ∀ object, ∃ outcome : Except MappingError Value,
        RowMapper.bindProperty found.metadata object property =
          found.metadata.atProperty property (outcome.map fun value =>
            ⟨property.name, property.column, before ++ property.name ++ after, value⟩) ∧
        answerOf (property.filterOn .eq object "entries" 0 Diary.session.cache.chain) =
          (outcome.map fun value =>
            (Sql.qualified "entries" property.column ++ [.text " = ",
                .text (before ++ "p1" ++ after)],
              [(⟨"p1", value⟩ : Parameter)])).mapError .mapping := by
  have tell : NamesTell fun token => Diary.schema.Mentions token ∨
      ∃ asked, Call.types asked ∈ Diary.later ∧ asked.token = token := by
    have hall : ∀ token, (Diary.schema.Mentions token ∨
        ∃ asked, Call.types asked ∈ Diary.later ∧ asked.token = token) →
        token = (Diary.schema.declaration .entry).token ∨ token = Chain.mood := by
      rintro token (h | ⟨asked, hasked, rfl⟩)
      · exact Diary.mentions h
      · simp only [Diary.later, List.mem_cons, List.not_mem_nil, or_false, Call.types.injEq,
          reduceCtorEq, false_or] at hasked
        rcases hasked with rfl | rfl <;> exact .inr rfl
    intro token other h h' hname
    rcases hall token h with rfl | rfl <;> rcases hall other h' with rfl | rfl
    · rfl
    · exact absurd hname (by decide)
    · exact absurd hname (by decide)
    · rfl
  have fixed : ∀ asked, Call.types asked ∈ Diary.later → asked.isRegistration = false := by
    intro asked hasked
    simp only [Diary.later, List.mem_cons, List.not_mem_nil, or_false, Call.types.injEq,
      reduceCtorEq, false_or] at hasked
    rcases hasked with rfl | rfl <;> rfl
  have hkept : ((Diary.session.cache.cached? .entry).map fun found =>
      found.metadata.simple.map SimpleProperty.converter) =
        some [.enumeration "Mood" ["HAPPY", "GRUMPY"] (some "feeling")] := by decide +kernel
  obtain ⟨found, built, hconverters⟩ := Option.map_eq_some_iff.1 hkept
  obtain ⟨property, rest, hsimple, hconverter, -⟩ := List.map_eq_cons_iff.1 hconverters
  have hmem : property ∈ found.metadata.simple := hsimple ▸ List.mem_cons_self
  obtain ⟨before, after, hbound, -⟩ := (binding_after Diary.schema ({} : RecordingConnection)
    (Engine.postgres.chain 4326) .standard Diary.earlier Diary.later tell fixed rfl built).1
      property hmem
  refine ⟨found, property, before, after, built, hmem, hconverter, fun object => ?_⟩
  obtain ⟨outcome, hbind, hfilter⟩ := hbound object
  exact ⟨outcome, hbind, hfilter .eq "entries" 0⟩

end Session

end ObjectRelational
