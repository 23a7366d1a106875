import Mathlib.Data.List.Forall2
import ObjectRelational.Proofs.Dialect.History
import ObjectRelational.Proofs.Mapping.Selection
import ObjectRelational.Proofs.Query.Binding
import ObjectRelational.Proofs.Text.Reading

/-! # The parameters of a selection

The conditions of a selection bind their values one after the other. A parameter has its name from
the number of parameters before its condition, and in a list also from its place in the list, so
that no two parameters of a selection have one name.

* `Condition.names`, `Condition.nodup_names`: the names of the parameters;
* `Template`: SQL with places for placeholders;
* `Condition.requests`: the values to be bound, and which chain is asked for their converters;
* `Select.parameters_of_render`: what a rendered selection binds, and where.
-/

namespace ObjectRelational

set_option autoImplicit false

/-! ## Names -/

namespace Condition

/-- The number that the name of a parameter has before the place in a list. -/
def nameNumber (name : String) : Nat :=
  Text.digitsValue (Text.spanDigits (name.toList.drop 1)).1

theorem nameNumber_append {n : Nat} {rest : List Char}
    (hrest : ∀ c ∈ rest.head?, c.isDigit = false) :
    nameNumber (String.ofList ('p' :: (Text.digits n ++ rest))) = n := by
  have hdigits : ∀ c ∈ Text.digits n, c.isDigit = true := fun c => Text.isDigit_of_mem_digits
  rw [nameNumber, String.toList_ofList, List.drop_one, List.tail_cons,
    Text.spanDigits_append hdigits hrest, Text.digitsValue_digits]

theorem nameNumber_parameterName (taken : Nat) : nameNumber (parameterName taken) = taken + 1 := by
  have hname : parameterName taken =
      String.ofList ('p' :: (Text.digits (taken + 1) ++ [])) := by
    apply String.toList_injective
    simp [parameterName, numberText]
  rw [hname, nameNumber_append (by simp)]

theorem nameNumber_itemName (taken index : Nat) : nameNumber (itemName taken index) = taken + 1 := by
  have hname : itemName taken index =
      String.ofList ('p' :: (Text.digits (taken + 1) ++ '_' :: Text.digits index)) := by
    apply String.toList_injective
    simp [itemName, parameterName, numberText]
  rw [hname, nameNumber_append (by simp)]

theorem itemName_injective (taken : Nat) : Function.Injective (itemName taken) := by
  intro i j h
  have hchars := congrArg String.toList h
  simp only [itemName, numberText, String.toList_append, String.toList_ofList] at hchars
  rw [← Text.digitsValue_digits i, List.append_cancel_left hchars, Text.digitsValue_digits]

end Condition

namespace ColumnTest

open Condition (parameterName itemName)

/-- The values that a test binds, in their order. -/
def values : ColumnTest → List Value
  | .compare _ value => [value]
  | .oneOf items => items
  | .isNull | .isNotNull => []

/-- The names of the parameters that a test adds to a number of others. -/
def names (taken : Nat) : ColumnTest → List String
  | .compare .. => [parameterName taken]
  | .oneOf items => (List.range items.length).map (itemName taken)
  | .isNull | .isNotNull => []

theorem length_names (taken : Nat) (test : ColumnTest) :
    (test.names taken).length = test.values.length := by
  cases test <;> simp [names, values]

theorem nameNumber_of_mem_names {taken : Nat} {test : ColumnTest} {name : String}
    (h : name ∈ test.names taken) : Condition.nameNumber name = taken + 1 := by
  cases test with
  | compare comparison value =>
    rw [List.mem_singleton.1 h, Condition.nameNumber_parameterName]
  | oneOf items =>
    obtain ⟨index, -, rfl⟩ := List.mem_map.1 h
    exact Condition.nameNumber_itemName taken index
  | isNull => cases h
  | isNotNull => cases h

theorem nodup_names (taken : Nat) (test : ColumnTest) : (test.names taken).Nodup := by
  cases test with
  | compare comparison value => exact List.nodup_singleton _
  | oneOf items => exact List.nodup_range.map (Condition.itemName_injective taken)
  | isNull => exact List.nodup_nil
  | isNotNull => exact List.nodup_nil

end ColumnTest

namespace Condition

/-- The names of the parameters of some conditions after a number of parameters. -/
def names (taken : Nat) : List Condition → List String
  | [] => []
  | condition :: rest =>
      condition.test.names taken ++ names (taken + condition.test.values.length) rest

theorem lt_nameNumber {taken : Nat} {conditions : List Condition} {name : String}
    (h : name ∈ names taken conditions) : taken < nameNumber name := by
  induction conditions generalizing taken with
  | nil => cases h
  | cons condition rest ih =>
    obtain hfirst | hrest := List.mem_append.1 h
    · rw [ColumnTest.nameNumber_of_mem_names hfirst]
      exact Nat.lt_succ_self taken
    · have hlater := ih hrest
      omega

/-- Later names have greater numbers, and within one list the places differ. -/
theorem nodup_names (taken : Nat) (conditions : List Condition) : (names taken conditions).Nodup := by
  induction conditions generalizing taken with
  | nil => exact List.nodup_nil
  | cons condition rest ih =>
    refine List.nodup_append.2 ⟨condition.test.nodup_names taken, ih _, ?_⟩
    rintro name hfirst other hother rfl
    have hsome : 0 < condition.test.values.length := by
      rw [← condition.test.length_names taken]
      exact List.length_pos_of_mem hfirst
    have hnumber := ColumnTest.nameNumber_of_mem_names hfirst
    have hlater := lt_nameNumber hother
    omega

end Condition

/-- The parameter of a name that only it has is found by the name. -/
theorem Statement.parameter?_of_nodup {statement : Statement}
    (hnodup : (statement.parameters.map Parameter.name).Nodup) {parameter : Parameter}
    (h : parameter ∈ statement.parameters) :
    statement.parameter? parameter.name = some parameter.value := by
  unfold parameter?
  generalize statement.parameters = parameters at hnodup h
  induction parameters with
  | nil => cases h
  | cons first rest ih =>
    rw [List.map_cons, List.nodup_cons] at hnodup
    obtain rfl | hrest := List.mem_cons.1 h
    · rw [List.find?_cons_of_pos (by simp)]
      rfl
    · have hne : first.name ≠ parameter.name := fun hsame =>
        hnodup.1 (hsame ▸ List.mem_map_of_mem hrest)
      rw [List.find?_cons_of_neg (by simpa using hne)]
      exact ih hnodup.2 hrest

/-! ## Places for placeholders -/

/-- SQL with places for placeholders: a piece as it stands, or a place. -/
abbrev Template : Type := List (Option SqlPiece)

namespace Template

def ofSql (sql : Sql) : Template :=
  sql.map some

/-- A single place. -/
def place : Template :=
  [none]

/-- The number of places. -/
def places (template : Template) : Nat :=
  template.count none

/-- The pieces of a template with placeholders in its places, in their order. -/
def fill : Template → List String → Sql
  | [], _ => []
  | some piece :: rest, placeholders => piece :: fill rest placeholders
  | none :: rest, placeholder :: placeholders => .text placeholder :: fill rest placeholders
  | none :: rest, [] => fill rest []

/-- Templates with a separator between them. -/
def separated (separator : String) : List Template → Template
  | [] => []
  | [template] => template
  | template :: rest => template ++ some (.text separator) :: separated separator rest

/-- No text of a template has the colon in it that a parameter starts with. -/
def Fixed (template : Template) : Prop :=
  ∀ s, some (.text s) ∈ template → ':' ∉ s.toList

@[simp]
theorem places_ofSql (sql : Sql) : (ofSql sql).places = 0 := by
  simp [places, ofSql, List.count_eq_zero]

@[simp]
theorem places_append (first second : Template) :
    (first ++ second).places = first.places + second.places :=
  List.count_append

theorem fill_ofSql_append (sql : Sql) (template : Template) (placeholders : List String) :
    (ofSql sql ++ template).fill placeholders = sql ++ template.fill placeholders := by
  induction sql with
  | nil => rfl
  | cons piece rest ih => exact congrArg (piece :: ·) ih

@[simp]
theorem fill_ofSql (sql : Sql) (placeholders : List String) : (ofSql sql).fill placeholders = sql := by
  simpa [fill] using fill_ofSql_append sql [] placeholders

/-- The first placeholders go into the first template. -/
theorem fill_append {first second : Template} {placeholders others : List String}
    (h : first.places = placeholders.length) :
    (first ++ second).fill (placeholders ++ others) =
      first.fill placeholders ++ second.fill others := by
  induction first generalizing placeholders with
  | nil =>
    obtain rfl := List.length_eq_zero_iff.1 h.symm
    rfl
  | cons piece rest ih =>
    cases piece with
    | some piece =>
      have hrest : places rest = placeholders.length := by simpa [places] using h
      exact congrArg (piece :: ·) (ih hrest)
    | none =>
      cases placeholders with
      | nil => simp [places] at h
      | cons placeholder placeholders =>
        have hrest : places rest = placeholders.length := by simpa [places] using h
        exact congrArg (.text placeholder :: ·) (ih hrest)

theorem fill_append_ofSql {template : Template} {placeholders : List String}
    (h : template.places = placeholders.length) (sql : Sql) :
    (template ++ ofSql sql).fill placeholders = template.fill placeholders ++ sql := by
  rw [← List.append_nil placeholders, fill_append h, fill_ofSql, List.append_nil]

theorem fill_separated (separator : String) {templates : List Template}
    {placeholders : List (List String)}
    (h : List.Forall₂ (fun template placeholders => template.places = placeholders.length)
      templates placeholders) :
    (separated separator templates).fill placeholders.flatten =
        Sql.separated separator (List.zipWith fill templates placeholders) ∧
      (separated separator templates).places = placeholders.flatten.length := by
  induction h with
  | nil => exact ⟨rfl, rfl⟩
  | @cons template first templates placeholders hfirst hrest ih =>
    cases hrest with
    | nil => simp [separated, Sql.separated, hfirst]
    | @cons next second templates placeholders hsecond hrest =>
      obtain ⟨hfill, hplaces⟩ := ih
      constructor
      · change (template ++ some (.text separator) :: separated separator (next :: templates)).fill
          (first ++ (second :: placeholders).flatten) = _
        rw [fill_append hfirst, fill, hfill]
        rfl
      · change (template ++ some (.text separator) :: separated separator (next :: templates)).places
          = (first ++ (second :: placeholders).flatten).length
        rw [places_append, hfirst, List.length_append, ← hplaces]
        simp [places]

/-- A list of places takes a list of placeholders. -/
theorem fill_list (separator : String) (placeholders : List String) :
    (separated separator (List.replicate placeholders.length place)).fill placeholders =
        Sql.separated separator (placeholders.map fun placeholder => [.text placeholder]) ∧
      (separated separator (List.replicate placeholders.length place)).places =
        placeholders.length := by
  have hplaces : ∀ names : List String,
      List.Forall₂ (fun template names => places template = names.length)
        (List.replicate names.length place) (names.map fun name => [name]) := by
    intro names
    induction names with
    | nil => exact .nil
    | cons name rest ih => exact .cons rfl ih
  have hfills : ∀ names : List String,
      List.zipWith fill (List.replicate names.length place) (names.map fun name => [name]) =
        names.map fun name => [.text name] := by
    intro names
    induction names with
    | nil => rfl
    | cons name rest ih => exact congrArg ([.text name] :: ·) ih
  have hflatten : (placeholders.map fun name => [name]).flatten = placeholders := by
    rw [← List.flatMap_def, List.flatMap_singleton']
  have hseparated := fill_separated separator (hplaces placeholders)
  rwa [hflatten, hfills] at hseparated

theorem Fixed.append {first second : Template} (h : first.Fixed) (h' : second.Fixed) :
    (first ++ second).Fixed := by
  intro s hs
  obtain hs | hs := List.mem_append.1 hs
  · exact h s hs
  · exact h' s hs

theorem fixed_separated {separator : String} (hseparator : ':' ∉ separator.toList)
    {templates : List Template} (h : ∀ template ∈ templates, Fixed template) :
    (separated separator templates).Fixed := by
  induction templates with
  | nil => simp [Fixed, separated]
  | cons template rest ih =>
    obtain ⟨htemplate, hrest⟩ := List.forall_mem_cons.1 h
    cases rest with
    | nil => exact htemplate
    | cons next rest =>
      refine htemplate.append fun s hs => ?_
      obtain heq | hs := List.mem_cons.1 hs
      · cases heq
        exact hseparator
      · exact ih hrest s hs

end Template

/-! ## Templates of conditions -/

namespace ColumnTest

open Template (ofSql place separated)

/-- A test of a column, with a place for each of its values. -/
def template (column : Sql) : ColumnTest → Template
  | .isNull => ofSql (column ++ [.text " IS NULL"])
  | .isNotNull => ofSql (column ++ [.text " IS NOT NULL"])
  | .oneOf [] => ofSql [.text "1 = 0"]
  | .oneOf items =>
      ofSql (column ++ [.text " IN ("]) ++ separated ", " (List.replicate items.length place)
        ++ ofSql [.text ")"]
  | .compare comparison _ => ofSql (column ++ [.text (" " ++ comparison.sql ++ " ")]) ++ place

theorem fill_oneOf (column : Sql) {items : List Value} (hne : items ≠ [])
    {placeholders : List String} (hlength : items.length = placeholders.length) :
    ((oneOf items).template column).fill placeholders = column ++ .text " IN (" ::
        Sql.separated ", " (placeholders.map fun placeholder => [.text placeholder])
          ++ [.text ")"] ∧
      ((oneOf items).template column).places = placeholders.length := by
  obtain ⟨hfill, hplaces⟩ := Template.fill_list ", " placeholders
  obtain ⟨item, rest, rfl⟩ := List.exists_cons_of_ne_nil hne
  have htemplate : (oneOf (item :: rest)).template column = ofSql (column ++ [.text " IN ("])
      ++ separated ", " (List.replicate (item :: rest).length place) ++ ofSql [.text ")"] := rfl
  rw [htemplate, hlength]
  constructor
  · rw [List.append_assoc (ofSql _), Template.fill_ofSql_append,
      Template.fill_append_ofSql hplaces, hfill]
    simp
  · rw [Template.places_append, Template.places_append, Template.places_ofSql,
      Template.places_ofSql, hplaces, Nat.zero_add, Nat.add_zero]

end ColumnTest

namespace Condition

/-- A condition in a statement on a root table, with a place for each of its values. -/
def template (root : String) (condition : Condition) : Template :=
  condition.test.template (Sql.qualified (condition.alias?.getD root) condition.column)

end Condition

namespace Select

/-- The conditions of a selection as it asks for them, with a place for each value. -/
def whereTemplate (select : Select) : Template :=
  match select.conditions with
  | [] => []
  | conditions =>
      some (.text " WHERE ") ::
        Template.separated " AND " (conditions.map (Condition.template select.table))

end Select

namespace Template

theorem fixed_ofSql {sql : Sql} (h : ∀ s, .text s ∈ sql → ':' ∉ s.toList) : (ofSql sql).Fixed := by
  intro s hs
  obtain ⟨piece, hpiece, heq⟩ := List.mem_map.1 hs
  cases heq
  exact h s hpiece

theorem fixed_test (table column : String) (test : ColumnTest) :
    (test.template (Sql.qualified table column)).Fixed := by
  have hcolumn : ∀ {text : String}, ':' ∉ text.toList →
      (ofSql (Sql.qualified table column ++ [.text text])).Fixed := by
    intro text htext
    refine fixed_ofSql fun s hs => ?_
    simp only [Sql.qualified, List.cons_append, List.nil_append, List.mem_cons, SqlPiece.text.injEq,
      reduceCtorEq, false_or, List.not_mem_nil, or_false] at hs
    obtain rfl | rfl := hs
    · decide
    · exact htext
  have hplace : Fixed place := fun s hs => by simp [place] at hs
  cases test with
  | isNull => exact hcolumn (by decide)
  | isNotNull => exact hcolumn (by decide)
  | compare comparison value =>
    refine (hcolumn ?_).append hplace
    cases comparison <;> decide
  | oneOf items =>
    cases items with
    | nil => exact fixed_ofSql (by simp)
    | cons item rest =>
      refine ((hcolumn (by decide)).append (fixed_separated (by decide) ?_)).append
        (fixed_ofSql (by simp))
      intro template htemplate
      rw [List.eq_of_mem_replicate htemplate]
      exact hplace

/-- Only in its places a selection has parameters. -/
theorem fixed_whereTemplate (select : Select) : select.whereTemplate.Fixed := by
  unfold Select.whereTemplate
  split
  · intro s hs
    cases hs
  · have hkeyword : Fixed (ofSql [.text " WHERE "]) := fixed_ofSql (by simp)
    refine hkeyword.append (fixed_separated (by decide) ?_)
    intro template htemplate
    obtain ⟨condition, -, rfl⟩ := List.mem_map.1 htemplate
    exact fixed_test _ _ _

end Template

/-! ## What is bound -/

/-- A value that is to be bound, the type of its column, and the chain that is asked for the
converter of the type. -/
structure Request where
  value : Value
  type? : Option TypeToken
  chain : Chain

namespace Request

/-- A placeholder and a parameter that bind a value: the name and the value themselves, or as the
converter of the type writes them. -/
def Binds (request : Request) (bound : String × Parameter) : Prop :=
  match request.type? with
  | none => bound.1 = Converter.parameter bound.2.name ∧ bound.2.value = request.value
  | some token => ∃ converter, (request.chain.converterFor token).1 = .ok converter ∧
      bound.1 = converter.placeholder bound.2.name ∧
      converter.write request.value = .ok bound.2.value

end Request

theorem bindValue_name {converter : Option Converter} {name : String} {value : Value}
    {bound : String × Parameter} (h : bindValue converter name value = .ok bound) :
    bound.2.name = name := by
  cases converter with
  | none =>
    cases h
    rfl
  | some converter =>
    obtain ⟨written, -, hbound⟩ := except_bind_ok h
    cases hbound
    rfl

namespace Condition

/-- What a chain is asked for a condition. -/
def lookups (condition : Condition) : List Chain.Call :=
  (condition.type?.map Chain.Call.converterFor).toList

/-- The values that some conditions bind, one condition after the other. -/
def requests (chain : Chain) : List Condition → List Request
  | [] => []
  | condition :: rest =>
      condition.test.values.map (⟨·, condition.type?, chain⟩)
        ++ requests (chain.after condition.lookups) rest

variable {converter : Option Converter} {chain chain' : Chain}

theorem bindItems_bound {taken index : Nat} {items : List Value} {bound : List (String × Parameter)}
    (h : bindItems converter taken index items = .ok bound) :
    List.Forall₂ (fun item entry => bindValue converter entry.2.name item = .ok entry) items bound ∧
      bound.map (fun entry => entry.2.name) =
        (List.range' index items.length).map (itemName taken) := by
  induction items generalizing index bound with
  | nil =>
    cases h
    exact ⟨.nil, rfl⟩
  | cons item rest ih =>
    obtain ⟨entry, hentry, h⟩ := except_bind_ok h
    obtain ⟨entries, hrest, h⟩ := except_bind_ok h
    cases h
    have hname := bindValue_name hentry
    obtain ⟨hbound, hnames⟩ := ih hrest
    refine ⟨.cons (hname ▸ hentry) hbound, ?_⟩
    rw [List.map_cons, hname, hnames]
    rfl

/-- A test fills its template with the placeholders of its values. -/
theorem testSql_bound {column sql : Sql} {taken : Nat} {test : ColumnTest}
    {parameters : List Parameter} (h : testSql column converter taken test = .ok (sql, parameters)) :
    ∃ bound : List (String × Parameter),
      parameters = bound.map Prod.snd ∧
      sql = (test.template column).fill (bound.map Prod.fst) ∧
      (test.template column).places = bound.length ∧
      List.Forall₂ (fun value entry => bindValue converter entry.2.name value = .ok entry)
        test.values bound ∧
      bound.map (fun entry => entry.2.name) = test.names taken := by
  cases test with
  | isNull =>
    cases h
    exact ⟨[], rfl, (Template.fill_ofSql _ _).symm, Template.places_ofSql _, .nil, rfl⟩
  | isNotNull =>
    cases h
    exact ⟨[], rfl, (Template.fill_ofSql _ _).symm, Template.places_ofSql _, .nil, rfl⟩
  | compare comparison value =>
    obtain ⟨entry, hentry, h⟩ := except_bind_ok h
    cases h
    have hname := bindValue_name hentry
    refine ⟨[entry], rfl, ?_, ?_, .cons (hname ▸ hentry) .nil, by simp [hname, ColumnTest.names]⟩
    · rw [ColumnTest.template, Template.fill_ofSql_append]
      simp [Template.place, Template.fill]
    · rw [ColumnTest.template, Template.places_append, Template.places_ofSql]
      rfl
  | oneOf items =>
    by_cases hne : items = []
    · subst hne
      cases h
      exact ⟨[], rfl, rfl, rfl, .nil, rfl⟩
    · rw [testSql_oneOf _ _ _ hne] at h
      obtain ⟨bound, hbound, hpair⟩ := Composite.map_eq_ok h
      cases hpair
      obtain ⟨hvalues, hnames⟩ := bindItems_bound hbound
      have hlength : items.length = (bound.map Prod.fst).length := by
        rw [List.length_map, hvalues.length_eq]
      obtain ⟨hfill, hplaces⟩ := ColumnTest.fill_oneOf column hne hlength
      refine ⟨bound, rfl, ?_, by rw [hplaces, List.length_map], hvalues, ?_⟩
      · rw [hfill, List.map_map]
        rfl
      · rw [hnames, ColumnTest.names, List.range_eq_range']

theorem Finds.after {condition : Condition} (h : condition.Finds chain converter chain') :
    chain' = chain.after condition.lookups := by
  unfold Finds at h
  unfold lookups
  cases htype : condition.type? with
  | none =>
    rw [htype] at h
    exact h.2
  | some token =>
    rw [htype] at h
    obtain ⟨found, -, hfound⟩ := h
    exact (congrArg Prod.snd hfound).symm

/-- What is bound by the converter that is looked up answers a request. -/
theorem Finds.binds {condition : Condition} (h : condition.Finds chain converter chain')
    {name : String} {value : Value} {bound : String × Parameter}
    (hbound : bindValue converter name value = .ok bound) :
    Request.Binds ⟨value, condition.type?, chain⟩ bound := by
  unfold Finds at h
  cases htype : condition.type? with
  | none =>
    rw [htype] at h
    obtain ⟨rfl, -⟩ := h
    cases hbound
    exact ⟨rfl, rfl⟩
  | some token =>
    rw [htype] at h
    obtain ⟨found, rfl, hfound⟩ := h
    obtain ⟨written, hwritten, hentry⟩ := except_bind_ok hbound
    cases hentry
    exact ⟨found, by rw [hfound], rfl, hwritten⟩

/-- Rendered conditions fill their templates, one after the other, with the placeholders of what
they bind. -/
theorem renderAll_ok {root : String} {taken : Nat} {conditions : List Condition} {sqls : List Sql}
    {parameters : List Parameter}
    (h : renderAll root taken conditions chain = .ok (sqls, parameters) chain') :
    ∃ (bound : List (String × Parameter)) (placeholders : List (List String)),
      parameters = bound.map Prod.snd ∧
      bound.map Prod.fst = placeholders.flatten ∧
      sqls = List.zipWith Template.fill (conditions.map (template root)) placeholders ∧
      List.Forall₂ (fun template placeholders => template.places = placeholders.length)
        (conditions.map (template root)) placeholders ∧
      List.Forall₂ Request.Binds (requests chain conditions) bound ∧
      bound.map (fun entry => entry.2.name) = names taken conditions ∧
      chain' = chain.after (conditions.flatMap lookups) := by
  induction conditions generalizing taken chain sqls parameters with
  | nil =>
    cases h
    exact ⟨[], [], rfl, rfl, rfl, .nil, .nil, rfl, rfl⟩
  | cons condition rest ih =>
    obtain ⟨⟨sql, first⟩, chain₁, hfirst, h⟩ := bind_ok h
    obtain ⟨⟨others, later⟩, chain₂, hrest, h⟩ := bind_ok h
    cases h
    obtain ⟨converter, hfinds, htest⟩ := render_ok hfirst
    obtain rfl := hfinds.after
    obtain ⟨bound, rfl, rfl, hplaces, hvalues, hnames⟩ := testSql_bound htest
    obtain ⟨bounds, placeholders, rfl, hflatten, rfl, hothers, hrequests, hrestNames, rfl⟩ := ih hrest
    have hlength : (bound.map Prod.snd).length = condition.test.values.length := by
      rw [List.length_map, hvalues.length_eq]
    refine ⟨bound ++ bounds, bound.map Prod.fst :: placeholders, by simp, ?_, rfl,
      .cons ?_ hothers, ?_, ?_, ?_⟩
    · rw [List.map_append, hflatten, List.flatten_cons]
    · rw [List.length_map]
      exact hplaces
    · refine List.rel_append ?_ hrequests
      rw [List.forall₂_map_left_iff]
      exact hvalues.imp fun value entry => hfinds.binds
    · rw [List.map_append, hnames, hrestNames, hlength]
      rfl
    · rw [List.flatMap_cons, Chain.after, Chain.after, Chain.after, List.foldl_append]

theorem values_requests (chain : Chain) (conditions : List Condition) :
    (requests chain conditions).map Request.value =
      conditions.flatMap fun condition => condition.test.values := by
  induction conditions generalizing chain with
  | nil => rfl
  | cons condition rest ih =>
    rw [requests, List.map_append, ih, List.map_map, List.flatMap_cons]
    congr 1
    exact List.map_id _

/-- The chains that are asked differ by what they remember alone. -/
theorem remembers_of_mem_requests {types : TypeToken → Prop} (tell : NamesTell types)
    {conditions : List Condition}
    (htypes : ∀ condition ∈ conditions, ∀ token, condition.type? = some token → types token)
    {request : Request} (h : request ∈ requests chain conditions) :
    chain.Remembers types request.chain ∧
      ∀ token, request.type? = some token → types token := by
  induction conditions generalizing chain with
  | nil => cases h
  | cons condition rest ih =>
    obtain ⟨hcondition, hrest⟩ := List.forall_mem_cons.1 htypes
    obtain hfirst | hlater := List.mem_append.1 h
    · obtain ⟨value, -, rfl⟩ := List.mem_map.1 hfirst
      exact ⟨.refl chain, hcondition⟩
    · obtain ⟨hremembers, htoken⟩ := ih hrest hlater
      refine ⟨.trans ?_ hremembers, htoken⟩
      unfold lookups
      cases htype : condition.type? with
      | none => exact .refl chain
      | some token =>
        have hlookup : (Chain.Call.converterFor token).isRegistration = false := rfl
        exact chain.remembers_lookup tell hlookup (hcondition token htype)

end Condition

/-- Calls leave the dialect of the first link. -/
theorem Chain.head_dialect_after (chain : Chain) (calls : List Chain.Call) :
    (chain.after calls).head.dialect = chain.head.dialect :=
  (List.cons.inj (chain.dialects_after calls)).1

namespace Select

open Condition (requests)

theorem fill_whereTemplate {select : Select} {placeholders : List (List String)}
    (h : List.Forall₂ (fun template placeholders => template.places = placeholders.length)
      (select.conditions.map (Condition.template select.table)) placeholders) :
    select.whereTemplate.fill placeholders.flatten = whereSql (List.zipWith Template.fill
        (select.conditions.map (Condition.template select.table)) placeholders) ∧
      select.whereTemplate.places = placeholders.flatten.length := by
  unfold whereTemplate
  cases hconditions : select.conditions with
  | nil =>
    rw [hconditions] at h
    cases h
    exact ⟨rfl, rfl⟩
  | cons condition rest =>
    rw [hconditions] at h
    obtain ⟨hfill, hplaces⟩ := Template.fill_separated " AND " h
    cases h with
    | cons hfirst hrest =>
      refine ⟨?_, ?_⟩
      · exact congrArg (.text " WHERE " :: ·) hfill
      · rw [← hplaces]
        simp [Template.places]

/-- A rendered selection binds the values of its conditions one after the other, each by itself or
by what the converter of its type writes. Its conditions have one place for each of them, in the
same order, where the placeholder of the parameter stands, and no parameter elsewhere. No two
parameters have one name, so that each is found by its name. The converters are those that the
chain gives before any lookup, if the types are told by their names. -/
theorem parameters_of_render {select : Select} {chain chain' : Chain} {statement : Statement}
    (h : select.render chain = .ok statement chain') :
    ∃ bound : List (String × Parameter),
      statement.parameters = bound.map Prod.snd ∧
      List.Forall₂ Request.Binds (requests chain select.conditions) bound ∧
      statement.sql = Sql.written chain.head.dialect.quoteMark
        (select.fromSql ++ select.whereTemplate.fill (bound.map Prod.fst) ++ select.tailSql) ∧
      select.whereTemplate.places = bound.length ∧
      select.whereTemplate.Fixed ∧
      (statement.parameters.map Parameter.name).Nodup ∧
      (∀ parameter ∈ statement.parameters,
        statement.parameter? parameter.name = some parameter.value) ∧
      ((requests chain select.conditions).map Request.value =
        select.conditions.flatMap fun condition => condition.test.values) ∧
      (NamesTell (fun token => ∃ condition ∈ select.conditions, condition.type? = some token) →
        ∀ request ∈ requests chain select.conditions, ∀ token, request.type? = some token →
          (request.chain.converterFor token).1 = (chain.converterFor token).1) := by
  obtain ⟨⟨sqls, parameters⟩, chain₁, hrender, hstatement⟩ := bind_ok h
  cases hstatement
  obtain ⟨bound, placeholders, rfl, hflatten, rfl, hplaces, hrequests, hnames, rfl⟩ :=
    Condition.renderAll_ok hrender
  obtain ⟨hfill, hcount⟩ := fill_whereTemplate hplaces
  have hnodup : ((bound.map Prod.snd).map Parameter.name).Nodup := by
    rw [List.map_map]
    exact hnames ▸ Condition.nodup_names 0 select.conditions
  refine ⟨bound, rfl, hrequests, ?_, ?_, Template.fixed_whereTemplate select, hnodup,
    fun parameter => Statement.parameter?_of_nodup hnodup, Condition.values_requests _ _, ?_⟩
  · rw [hflatten, hfill, ← chain.head_dialect_after]
    rfl
  · rw [hcount, ← hflatten, List.length_map]
  · intro tell request hrequest token htoken
    obtain ⟨hremembers, htypes⟩ := Condition.remembers_of_mem_requests tell
      (fun condition hcondition token htype => ⟨condition, hcondition, htype⟩) hrequest
    exact Chain.converterFor_of_remembers tell hremembers (htypes token htoken)

/-- A selection with conditions of every kind, typed and untyped. -/
def entries : Select where
  table := "entries"
  columns := ["day"]
  joins := []
  conditions := [
    (Condition.equals "mood" (.text "HAPPY")).withType Chain.mood,
    Condition.ofTest "day" .isNotNull,
    Condition.oneOf "place" [.text "home", .text "sea"],
    Condition.oneOf "place" [],
    (Condition.ofTest "mood" (.memberOf (.text "GRUMPY"))).withType Chain.mood]
  orderings := []
  limit := some 5
  offset := none

theorem parameters_of_render_entries :
    ∃ statement chain, entries.render (Engine.postgres.chain 4326) = .ok statement chain ∧
      statement.parameters.map Parameter.name = ["p1", "p2_0", "p2_1", "p4_0"] ∧
      (statement.parameters.map Parameter.name).Nodup ∧
      statement.parameter? "p2_1" = some (.text "sea") := by
  obtain ⟨statement, chain, hrender, hparameters⟩ :
      ∃ statement chain, entries.render (Engine.postgres.chain 4326) = .ok statement chain ∧
        statement.parameters = [⟨"p1", .typed "mood" (.text "HAPPY")⟩, ⟨"p2_0", .text "home"⟩,
          ⟨"p2_1", .text "sea"⟩, ⟨"p4_0", .typed "mood" (.text "GRUMPY")⟩] :=
    ⟨_, _, rfl, rfl⟩
  obtain ⟨-, -, -, -, -, -, hnodup, hfound, -⟩ := parameters_of_render hrender
  refine ⟨statement, chain, hrender, by rw [hparameters]; rfl, hnodup, ?_⟩
  exact hfound ⟨"p2_1", .text "sea"⟩ (by simp [hparameters])

end Select

end ObjectRelational
