import ObjectRelational.Proofs.Mapping.Selection
import ObjectRelational.Proofs.Session.Binding

/-! # What an insertion sends

A mapper has the columns that its entity type declares, in the order of declaration, and an insertion
sends one parameter for each of them. Parameters are named after properties. A name is looked up from
the front, so that of several properties with one name the first gives the value.

* `EntityDecl.columns`, `MetadataCache.Declared`: the columns of a declaration, and of its mapper;
* `Insert.text`: the text of an insertion by its columns and placeholders;
* `Statement.parameter?_of_bounds`: what a name is looked up as;
* `Session.insertion_after`: the statement of an insertion, after any calls.
-/

namespace ObjectRelational

set_option autoImplicit false

/-! ## Declared columns -/

/-- The name and the column of a property that is stored in a column. -/
def PropertyDecl.stored? {E : Type} (naming : NamingConvention) (property : PropertyDecl E) :
    Option (String × String) :=
  match property.kind with
  | .column _ _ => some (property.name, property.column?.getD (naming.columnName property.name))
  | .nested _ => none

/-- The names and columns of the properties that are stored in columns. -/
def EntityDecl.columns {E : Type} (naming : NamingConvention) (declaration : EntityDecl E) :
    List (String × String) :=
  declaration.properties.filterMap (PropertyDecl.stored? naming)

namespace MetadataCache

variable {E : Type} {schema : Schema E} {naming : NamingConvention}

theorem columns_of_buildProperties {mapperOf : E → Build E (RowMapper E)}
    {properties : List (PropertyDecl E)}
    {found : List SimpleProperty × List (NestedProperty × RowMapper E)}
    {cache cache' : MetadataCache E}
    (h : buildProperties schema naming mapperOf properties cache = .ok found cache') :
    found.1.map (fun property => (property.name, property.column)) =
      properties.filterMap (PropertyDecl.stored? naming) := by
  induction properties generalizing found cache with
  | nil =>
    cases h
    rfl
  | cons first rest ih =>
    obtain ⟨type, optional, converter, others, cache₁, hkind, -, hrest, rfl⟩ |
      ⟨inner, mapper, others, cache₁, cache₂, hkind, -, hrest, rfl⟩ := buildProperties_cons_ok h
    · have hstored : first.stored? naming =
          some (first.name, first.column?.getD (naming.columnName first.name)) := by
        rw [PropertyDecl.stored?, hkind]
      rw [List.filterMap_cons_some hstored, ← ih hrest]
      rfl
    · have hnested : first.stored? naming = none := by
        rw [PropertyDecl.stored?, hkind]
      rw [List.filterMap_cons_none hnested, ← ih hrest]

variable [DecidableEq E]

/-- Every mapper that is kept has the table and the columns of its declaration. -/
def Declared (schema : Schema E) (naming : NamingConvention) (cache : MetadataCache E) : Prop :=
  ∀ entity mapper, cache.cached? entity = some mapper →
    mapper.metadata.table = (schema.declaration entity).table ∧
    mapper.metadata.simple.map (fun property => (property.name, property.column)) =
      (schema.declaration entity).columns naming

theorem declared_frame :
    IsFrame fun before after : MetadataCache E =>
      before.Declared schema naming → after.Declared schema naming :=
  ⟨fun _ h => h, fun _ _ _ h h' hd => h' (h hd)⟩

theorem declared_mapperWithin (building : List E) (entity : E) :
    Respects (fun before after => before.Declared schema naming → after.Declared schema naming)
      (mapperWithin schema naming building entity) := by
  induction building, entity using mapperWithin.induct schema with
  | case1 building entity ih =>
    intro cache hdeclared
    rw [mapperWithin_eq]
    cases hnone : cache.cached? entity with
    | some mapper => exact hdeclared
    | none =>
      by_cases hmarked : entity ∈ building
      · simp only [if_pos hmarked]
        exact hdeclared
      · simp only [if_neg hmarked]
        let build := buildProperties schema naming (mapperWithin schema naming (entity :: building))
          (schema.declaration entity).properties
        have hbuild : Respects
            (fun before after => before.Declared schema naming → after.Declared schema naming)
            (guarded entity build) :=
          respects_guarded declared_frame (fun _ _ h => h)
            (respects_buildProperties declared_frame (fun _ _ h => h) schema naming (ih hmarked) _)
        rw [bind_apply]
        cases hbuilt : guarded entity build cache with
        | error e cache₁ => exact hbuild.of_error hbuilt hdeclared
        | ok found cache₁ =>
          have hdeclared₁ := hbuild.of_ok hbuilt hdeclared
          obtain ⟨built, hproperties, rfl⟩ := guarded_ok hbuilt
          intro other mapper hother
          rcases eq_or_cached?_of_keep hother with ⟨rfl, rfl⟩ | hold
          · exact ⟨rfl, columns_of_buildProperties hproperties⟩
          · exact hdeclared₁ other mapper hold

end MetadataCache

/-! ## Text -/

/-- The text of an insertion by its columns and their placeholders, with names quoted. -/
def Insert.text (quote : String → String) (table : String) : List (String × String) → String
  | [] => "INSERT INTO " ++ quote table ++ " DEFAULT VALUES"
  | cells =>
      "INSERT INTO " ++ quote table ++ " (" ++ ", ".intercalate (cells.map fun cell => quote cell.1) ++
        ") VALUES (" ++ ", ".intercalate (cells.map Prod.snd) ++ ")"

theorem RowMapper.written_insertion {E : Type} (mapper : RowMapper E) (bounds : List BoundValue)
    (mark : Char) :
    Sql.written mark ((mapper.insertion bounds).sql (bounds.map BoundValue.placeholder)) =
      Insert.text (Text.quote mark) mapper.metadata.table
        (bounds.map fun bound => (bound.column, bound.placeholder)) := by
  rw [insertion_eq]
  cases bounds with
  | nil => simp [Insert.sql, Insert.text, String.append_assoc]
  | cons bound rest =>
    simp [Insert.sql, Insert.text, Sql.written_separated, Function.comp_def, assignmentOf,
      String.append_assoc]

/-! ## Parameters by name -/

/-- Of bound values with one name the first gives what the name is looked up as. -/
theorem Statement.parameter?_of_bounds {statement : Statement} {bounds : List BoundValue}
    (hparameters : statement.parameters = bounds.map fun bound => ⟨bound.property, bound.value⟩)
    {k : Nat} {bound : BoundValue} (h : bounds[k]? = some bound) :
    ∃ (j : Nat) (first : BoundValue), j ≤ k ∧ bounds[j]? = some first ∧
      first.property = bound.property ∧
      (∀ i < j, ∀ other, bounds[i]? = some other → other.property ≠ bound.property) ∧
      statement.parameter? bound.property = some first.value := by
  have hlookup : statement.parameter? bound.property =
      (bounds.find? fun other => other.property = bound.property).map BoundValue.value := by
    rw [parameter?, hparameters, List.find?_map, Option.map_map]
    rfl
  obtain ⟨first, hfirst⟩ : ∃ first,
      bounds.find? (fun other => other.property = bound.property) = some first := by
    rw [← Option.isSome_iff_exists, List.find?_isSome]
    exact ⟨bound, List.mem_of_getElem? h, by simp⟩
  obtain ⟨hsame, j, hj, hget, hbefore⟩ := List.find?_eq_some_iff_getElem.1 hfirst
  have hne : ∀ i < j, ∀ other, bounds[i]? = some other → other.property ≠ bound.property := by
    intro i hi other hother
    obtain ⟨hlength, rfl⟩ := List.getElem?_eq_some_iff.1 hother
    simpa using hbefore i hi
  refine ⟨j, first, ?_, List.getElem?_eq_some_iff.2 ⟨hj, hget⟩, of_decide_eq_true hsame, hne, ?_⟩
  · by_contra hk
    exact hne k (Nat.lt_of_not_le hk) bound h rfl
  · rw [hlookup, hfirst]
    rfl

/-! ## Insertions -/

/-- A value that a property of an instance is bound to, in a placeholder with a parameter of the name
of the property. -/
structure BoundValue.Binds (object : Instance) (property : SimpleProperty) (bound : BoundValue) :
    Prop where
  property_eq : bound.property = property.name
  column_eq : bound.column = property.column
  placeholder_eq : ∃ before after,
    bound.placeholder = before ++ Converter.parameter property.name ++ after
  value_eq : property.boundForm object = .ok bound.value

theorem RowMapper.binds_of_bindProperty {E : Type} {metadata : EntityMetadata E} {object : Instance}
    {property : SimpleProperty} {bound : BoundValue}
    (h : bindProperty metadata object property = .ok bound) : bound.Binds object property := by
  rw [bindProperty_eq] at h
  cases hvalue : property.boundForm object with
  | error e =>
    rw [hvalue] at h
    cases h
  | ok value =>
    rw [hvalue] at h
    cases h
    obtain ⟨before, after, hplaceholder⟩ := property.converter.placeholder_parameter
    exact ⟨rfl, rfl, ⟨before, after, hplaceholder _⟩, hvalue⟩

theorem RowMapper.binds_of_bind {E : Type} {mapper : RowMapper E} {object : Instance}
    {bounds : List BoundValue} (h : mapper.bind object = .ok bounds) :
    List.Forall₂ (fun property bound => bound.Binds object property) mapper.metadata.simple
      bounds := by
  rw [bind_eq] at h
  generalize mapper.metadata.simple = properties at h
  induction properties generalizing bounds with
  | nil =>
    cases h
    exact .nil
  | cons property rest ih =>
    rw [List.mapM_cons] at h
    obtain ⟨bound, hbound, h⟩ := except_bind_ok h
    obtain ⟨others, hothers, h⟩ := except_bind_ok h
    cases h
    exact .cons (binds_of_bindProperty hbound) (ih hothers)

namespace Session

variable {E C : Type} [DecidableEq E]

/-- The mappers of a session have what the declarations of a schema give under a convention. -/
structure Declares (schema : Schema E) (naming : NamingConvention) (session : Session E C) : Prop where
  schema_eq : session.schema = schema
  naming_eq : session.config.naming = naming
  declared : session.cache.Declared schema naming

theorem lasting_declares (schema : Schema E) (naming : NamingConvention) :
    Lasting (Declares (C := C) schema naming) fun _ => True := by
  refine lasting_of_cache ?_ (fun session chain hs => ⟨hs.schema_eq, hs.naming_eq, hs.declared⟩)
    fun session _ _ _ hs => ⟨hs.schema_eq, hs.naming_eq, hs.declared⟩
  rintro entity session ⟨rfl, rfl, hdeclared⟩
  exact ⟨rfl, rfl, MetadataCache.declared_mapperWithin _ entity session.cache hdeclared⟩

variable [Connection C]

theorem declares_after (schema : Schema E) (connection : C) (chain : Chain) (config : Config)
    (calls : List (Call E)) :
    ((openWith schema connection chain config).after calls).Declares schema config.naming :=
  (lasting_declares schema config.naming).after
    (fun _ _ hs => ⟨hs.schema_eq, hs.naming_eq, hs.declared⟩) calls
    (fun _ _ _ hs => ⟨hs.schema_eq, hs.naming_eq, hs.declared⟩) ⟨rfl, rfl, nofun⟩

/-- After any calls a registered type has a mapper. -/
theorem kept_of_isRegistered {schema : Schema E} {connection : C} {chain : Chain} {config : Config}
    {calls : List (Call E)} {entity : E}
    (h : ((openWith schema connection chain config).after calls).isRegistered entity = true) :
    ((openWith schema connection chain config).after calls).cache.Kept entity := by
  rw [isRegistered, decide_eq_true_iff, registered_iff] at h
  rcases h with h | ⟨earlier, call, later, rfl, hregisters⟩
  · cases h
  · obtain ⟨kept, hkept⟩ := kept_of_registers hregisters
    rw [after_append]
    exact ⟨kept, cached?_after later hkept⟩

/-- Inserting an instance of a registered type, after any calls: the type has a mapper, with the table
and the columns that are declared for it. An instance that cannot be bound is not sent. Any other is
sent in one statement, which has the declared columns in their order with a placeholder and a
parameter for each, named after its property. A name is looked up as the value of the first property
with this name: as the property's own value unless a property before it has the same name. -/
theorem insertion_after (schema : Schema E) (connection : C) (chain : Chain) (config : Config)
    (calls : List (Call E)) (entity : E) (object : Instance)
    (registered : ((openWith schema connection chain config).after calls).isRegistered entity = true) :
    let session := (openWith schema connection chain config).after calls
    ∃ mapper, session.cache.cached? entity = some mapper ∧
      mapper.metadata.simple.map (fun property => (property.name, property.column)) =
        (schema.declaration entity).columns config.naming ∧
      ((∃ e, mapper.bind object = .error e ∧
          Repository.insert entity object session = .error (.mapping e) session) ∨
        ∃ bounds statement, mapper.bind object = .ok bounds ∧
          Repository.insert entity object session =
            connected (Connection.execute statement) session ∧
          List.Forall₂ (fun property bound => bound.Binds object property) mapper.metadata.simple
            bounds ∧
          statement.sql = Insert.text session.cache.chain.quote (schema.declaration entity).table
            (bounds.map fun bound => (bound.column, bound.placeholder)) ∧
          statement.parameters = bounds.map (fun bound => ⟨bound.property, bound.value⟩) ∧
          ∀ (k : Nat) (bound : BoundValue), bounds[k]? = some bound →
            ∃ (j : Nat) (first : BoundValue), j ≤ k ∧ bounds[j]? = some first ∧
            first.property = bound.property ∧
            (∀ i < j, ∀ other, bounds[i]? = some other → other.property ≠ bound.property) ∧
            statement.parameter? bound.property = some first.value) := by
  intro session
  obtain ⟨mapper, hcached⟩ := kept_of_isRegistered registered
  obtain ⟨htable, hcolumns⟩ :=
    (declares_after schema connection chain config calls).declared entity mapper hcached
  have hinsert := insert_eq hcached registered object
  refine ⟨mapper, hcached, hcolumns, ?_⟩
  cases hbind : mapper.bind object with
  | error e =>
    rw [hbind] at hinsert
    exact .inl ⟨e, rfl, hinsert⟩
  | ok bounds =>
    rw [hbind] at hinsert
    refine .inr ⟨bounds, _, rfl, hinsert, RowMapper.binds_of_bind hbind, ?_, rfl, fun k bound =>
      Statement.parameter?_of_bounds rfl⟩
    rw [← htable]
    exact mapper.written_insertion bounds _

/-! ## Two types of entities -/

/-- A ticket has a number and an owner. Of a pair both properties have the same name. -/
inductive Booking where
  | ticket
  | pair
  deriving DecidableEq

namespace Booking

def number : ColumnType := ⟨⟨"i64", .scalar .bigint, none⟩, .integer .bigint⟩

def label : ColumnType := ⟨⟨"alloc::string::String", .scalar .text, none⟩, .text⟩

def schema : Schema Booking where
  entities := [.ticket, .pair]
  complete entity := by cases entity <;> simp
  declaration
    | .ticket => .ofProperties "booking::Ticket" "tickets" "ticketNo"
        [.field "number" number "ticketNo",
          (PropertyDecl.optional "owner" label "owner").inColumn "name"] []
    | .pair => .ofProperties "booking::Pair" "pairs" "seat"
        [.field "number" number "seat",
          (PropertyDecl.optional "owner" label "seat").inColumn "name"] []

def session : Session Booking RecordingConnection :=
  (openWith schema {} (Engine.generic.chain 4326) .standard).after [.register .ticket, .register .pair]

def object : Instance :=
  (Instance.empty.withColumn "number" (.integer .bigint ⟨3, by decide⟩)).withColumn "owner"
    (.text "Ada")

/-- The statements that are received when an instance is inserted: their texts, their parameters, and
what the names of the parameters are looked up as. -/
def received (entity : Booking) : List (String × List (String × ValueKey) × List (Option ValueKey)) :=
  (endState (Repository.insert entity object session)).connection.received.map fun statement =>
    (statement.sql, statement.parameters.map fun parameter => (parameter.name, parameter.value.key),
      statement.parameters.map fun parameter => (statement.parameter? parameter.name).map Value.key)

end Booking

/-- A ticket is inserted by one statement with its two columns. -/
theorem insertion_after_ticket :
    ∃ mapper bounds statement, Booking.session.cache.cached? .ticket = some mapper ∧
      mapper.metadata.simple.map (fun property => (property.name, property.column)) =
        [("ticketNo", "ticket_no"), ("owner", "name")] ∧
      mapper.bind Booking.object = .ok bounds ∧
      Repository.insert .ticket Booking.object Booking.session =
        connected (Connection.execute statement) Booking.session ∧
      statement.parameters = bounds.map fun bound => ⟨bound.property, bound.value⟩ := by
  have hregistered : Booking.session.isRegistered .ticket = true := by decide +kernel
  obtain ⟨mapper, hcached, hcolumns, hsent⟩ := insertion_after Booking.schema
    ({} : RecordingConnection) (Engine.generic.chain 4326) .standard
    [.register .ticket, .register .pair] .ticket Booking.object hregistered
  have hdeclared : (Booking.schema.declaration .ticket).columns Config.standard.naming =
      [("ticketNo", "ticket_no"), ("owner", "name")] := by decide +kernel
  have hbound : (Booking.session.cache.cached? .ticket).map (fun mapper =>
      (mapper.bind Booking.object).toOption.isSome) = some true := by decide +kernel
  rcases hsent with ⟨e, hbind, -⟩ | ⟨bounds, statement, hbind, hinsert, -, -, hparameters, -⟩
  · rw [Booking.session, hcached, Option.map_some, hbind] at hbound
    cases hbound
  · exact ⟨mapper, bounds, statement, hcached, hcolumns.trans hdeclared, hbind, hinsert, hparameters⟩

/-- The properties of a pair are bound to two values, in two parameters of one name, which is looked
up as the first value. -/
theorem received_pair :
    ((Booking.session.cache.cached? .pair).map fun mapper =>
        (mapper.bind Booking.object).toOption.map fun bounds =>
          bounds.map fun bound => (bound.property, bound.value.key)) =
      some (some [("seat", .int 3), ("seat", .text "Ada")]) ∧
    Booking.received .pair =
      [("INSERT INTO \"pairs\" (\"seat\", \"name\") VALUES (:seat, :seat)",
        [("seat", .int 3), ("seat", .text "Ada")], [some (.int 3), some (.int 3)])] := by
  decide +kernel

end Session

end ObjectRelational
