import Mathlib.Data.List.Forall2
import ObjectRelational.Proofs.Mapping.Cells
import ObjectRelational.Proofs.Session.Frames
import ObjectRelational.Query.Select

/-! # Typed conditions

A condition on a column of a known type is rendered with the converter that the chain gives for the
type: it writes the values that are bound, and the placeholders around the names of the parameters.

* `Converter.placeholder_parameter`: a placeholder is a parameter with a text before and a text
  behind it;
* `Condition.bindItems_typed`: the items of a list, bound one after the other;
* `Condition.render_compare`, `Condition.render_oneOf`: a typed condition on the chain;
* `Condition.render_ok`: the converter of a rendered condition;
* `Select.render_single`, `Select.render_oneOf_ok`: a selection with one condition, and what it binds
  if that is a list.
-/

namespace ObjectRelational

set_option autoImplicit false

/-- A placeholder has the named parameter in it. -/
theorem Converter.placeholder_parameter (converter : Converter) :
    ∃ before after, ∀ name, converter.placeholder name = before ++ parameter name ++ after := by
  have hplain : ∃ before after, ∀ name, parameter name = before ++ parameter name ++ after :=
    ⟨"", "", fun name => by simp⟩
  have hcast : ∀ databaseType,
      ∃ before after, ∀ name, castParameter name databaseType = before ++ parameter name ++ after :=
    fun databaseType => ⟨"(", ")::" ++ databaseType, fun name => by
      simp only [castParameter, String.append_assoc]⟩
  unfold placeholder
  split
  · exact hplain
  · exact hcast _
  · exact hplain
  · exact hcast _
  · exact hplain
  · exact hcast _
  · exact ⟨"CAST(", " AS JSON)", fun name => rfl⟩
  · exact hcast _
  · exact hplain
  · exact hcast _
  · next srid =>
    exact ⟨"ST_GeomFromText(", ", " ++ Number.intText srid ++ ")", fun name => by
      simp only [String.append_assoc]⟩

theorem Converter.placeholder_eq (converter : Converter) :
    ∃ before after, ∀ name, converter.placeholder name = before ++ name ++ after := by
  obtain ⟨before, after, hplaceholder⟩ := converter.placeholder_parameter
  refine ⟨before ++ ":", after, fun name => ?_⟩
  rw [hplaceholder, parameter, ← String.append_assoc]

theorem Rendering.converted_ok {α : Type} {found : Except MappingError α} {a : α}
    {chain chain' : Chain} (h : Rendering.converted found chain = .ok a chain') : found = .ok a := by
  cases found <;> cases h
  rfl

theorem Rendering.converted_chain {α : Type} {found : Except MappingError α} {a : α}
    {chain chain' : Chain} (h : Rendering.converted found chain = .ok a chain') : chain' = chain := by
  cases found <;> cases h
  rfl

namespace Condition

variable {converter : Converter} {chain chain' : Chain} {token : TypeToken}

theorem testSql_oneOf (column : Sql) (converter : Option Converter) (taken : Nat)
    {items : List Value} (h : items ≠ []) :
    testSql column converter taken (.oneOf items) =
      (bindItems converter taken 0 items).map fun bound =>
        (column ++ .text " IN (" ::
            Sql.separated ", " (bound.map fun entry => [.text entry.1]) ++ [.text ")"],
          bound.map Prod.snd) := by
  obtain ⟨item, rest, rfl⟩ := List.exists_cons_of_ne_nil h
  simp only [testSql]
  cases bindItems converter taken 0 (item :: rest) <;> rfl

/-- The items of a list are bound by what the converter writes for them, up to the first that it
cannot write. -/
theorem bindItems_typed (converter : Converter) (taken index : Nat) (items : List Value) :
    bindItems (some converter) taken index items =
      (items.mapM converter.write).map fun values =>
        (values.zipIdx index).map fun entry =>
          (converter.placeholder (itemName taken entry.2),
            (⟨itemName taken entry.2, entry.1⟩ : Parameter)) := by
  induction items generalizing index with
  | nil => rfl
  | cons item rest ih =>
    rw [bindItems, bindValue, ih, List.mapM_cons]
    cases converter.write item with
    | error e => rfl
    | ok value => cases rest.mapM converter.write <;> rfl

theorem render_typed {condition : Condition} (htype : condition.type? = some token)
    (hconverter : chain.converterFor token = (.ok converter, chain')) (root : String) (taken : Nat) :
    condition.render root taken chain =
      Rendering.converted (testSql (Sql.qualified (condition.alias?.getD root) condition.column)
        (some converter) taken condition.test) chain' := by
  have hfound : Rendering.converterFor token chain = .ok converter chain' := by
    unfold Rendering.converterFor
    rw [hconverter]
  unfold render
  simp only [htype]
  rw [bind_apply]
  have hlookup : (some <$> Rendering.converterFor token) chain = .ok (some converter) chain' := by
    change (Rendering.converterFor token >>= fun found => pure (some found)) chain = _
    rw [bind_apply, hfound]
    rfl
  rw [hlookup]

/-- A comparison binds what the converter writes for its value. -/
theorem render_compare (hconverter : chain.converterFor token = (.ok converter, chain'))
    (column root : String) (comparison : Comparison) (value : Value) (taken : Nat) :
    ((ofTest column (.compare comparison value)).withType token).render root taken chain =
      Rendering.converted ((converter.write value).map fun bound =>
        (Sql.qualified root column ++ [.text (" " ++ comparison.sql ++ " "),
            .text (converter.placeholder (parameterName taken))],
          [⟨parameterName taken, bound⟩])) chain' := by
  rw [render_typed rfl hconverter]
  congr 1
  change testSql _ _ _ (.compare comparison value) = _
  rw [testSql, bindValue]
  cases converter.write value <;> rfl

/-- Membership in a list binds what the converter writes for its items. -/
theorem render_oneOf (hconverter : chain.converterFor token = (.ok converter, chain'))
    (column root : String) {items : List Value} (hne : items ≠ []) (taken : Nat) :
    ((oneOf column items).withType token).render root taken chain =
      Rendering.converted ((items.mapM converter.write).map fun values =>
        (Sql.qualified root column ++ .text " IN (" ::
            Sql.separated ", " (values.zipIdx.map fun entry =>
              [.text (converter.placeholder (itemName taken entry.2))]) ++ [.text ")"],
          values.zipIdx.map fun entry => ⟨itemName taken entry.2, entry.1⟩)) chain' := by
  rw [render_typed rfl hconverter]
  congr 1
  change testSql _ _ _ (.oneOf items) = _
  rw [testSql_oneOf _ _ _ hne, bindItems_typed]
  cases items.mapM converter.write with
  | error e => rfl
  | ok values => simp [Except.map, Function.comp_def, ofTest, oneOf, withType]

/-! ## Rendered lists -/

theorem bindItems_ok {taken index : Nat} {items : List Value} {bound : List (String × Parameter)}
    (h : bindItems (some converter) taken index items = .ok bound) :
    List.Forall₂ (fun item entry => converter.write item = .ok entry.2.value) items bound := by
  induction items generalizing index bound with
  | nil =>
    cases h
    exact .nil
  | cons item rest ih =>
    obtain ⟨entry, hentry, h⟩ := except_bind_ok h
    obtain ⟨entries, hrest, h⟩ := except_bind_ok h
    obtain ⟨value, hvalue, hbound⟩ := except_bind_ok hentry
    cases h
    cases hbound
    exact .cons hvalue (ih hrest)

theorem testSql_oneOf_ok {column sql : Sql} {taken : Nat} {items : List Value}
    {parameters : List Parameter}
    (h : testSql column (some converter) taken (.oneOf items) = .ok (sql, parameters)) :
    List.Forall₂ (fun item parameter => converter.write item = .ok parameter.value) items
      parameters := by
  by_cases hne : items = []
  · subst hne
    cases h
    exact .nil
  · rw [testSql_oneOf _ _ _ hne] at h
    obtain ⟨bound, hbound, hpair⟩ := Composite.map_eq_ok h
    cases hpair
    rw [List.forall₂_map_right_iff]
    exact bindItems_ok hbound

/-- The converter that is looked up for a condition, and the chain after the lookup. -/
def Finds (condition : Condition) (chain : Chain) (found : Option Converter) (chain' : Chain) :
    Prop :=
  match condition.type? with
  | none => found = none ∧ chain' = chain
  | some token =>
      ∃ converter, found = some converter ∧ chain.converterFor token = (.ok converter, chain')

/-- A condition is rendered with the converter that the chain gives for its type, if it has one. -/
theorem render_ok {condition : Condition} {root : String} {taken : Nat} {sql : Sql}
    {parameters : List Parameter}
    (h : condition.render root taken chain = .ok (sql, parameters) chain') :
    ∃ found, condition.Finds chain found chain' ∧
      testSql (Sql.qualified (condition.alias?.getD root) condition.column) found taken
        condition.test = .ok (sql, parameters) := by
  unfold render at h
  unfold Finds
  cases htype : condition.type? with
  | none =>
    simp only [htype, pure_bind] at h
    exact ⟨none, ⟨rfl, Rendering.converted_chain h⟩, Rendering.converted_ok h⟩
  | some token =>
    simp only [htype] at h
    obtain ⟨found, chain₁, hfound, htest⟩ := bind_ok h
    obtain ⟨converter, chain₂, hconverter, hpure⟩ := bind_ok hfound
    cases hpure
    obtain rfl := Rendering.converted_chain htest
    refine ⟨some converter, ⟨converter, rfl, ?_⟩, Rendering.converted_ok htest⟩
    unfold Rendering.converterFor at hconverter
    split at hconverter <;> cases hconverter
    assumption

theorem render_oneOf_ok {column root : String} {items : List Value} {taken : Nat}
    {sql : Sql} {parameters : List Parameter}
    (h : ((oneOf column items).withType token).render root taken chain =
      .ok (sql, parameters) chain') :
    ∃ converter, (chain.converterFor token).1 = .ok converter ∧
      List.Forall₂ (fun item parameter => converter.write item = .ok parameter.value) items
        parameters := by
  obtain ⟨found, ⟨converter, rfl, hconverter⟩, htest⟩ := render_ok h
  exact ⟨converter, by rw [hconverter], testSql_oneOf_ok htest⟩

end Condition

/-- A selection with a single condition is put together from its parts around the condition. -/
theorem Select.render_single {select : Select} (hnone : select.conditions = [])
    {condition : Condition} {chain chain' : Chain} {statement : Statement}
    (h : (select.filter condition).render chain = .ok statement chain') :
    ∃ sql, condition.render select.table 0 chain = .ok (sql, statement.parameters) chain' ∧
      statement.sql = String.ofList (Sql.chars chain'.head.dialect.quoteMark
        (select.fromSql ++ .text " WHERE " :: sql ++ select.tailSql)) := by
  have hsingle : (select.filter condition).conditions = [condition] := by
    rw [filter, hnone]
    rfl
  unfold render at h
  rw [hsingle] at h
  obtain ⟨⟨sqls, parameters⟩, chain₁, hall, hstatement⟩ := bind_ok h
  obtain ⟨⟨sql, bound⟩, chain₂, hcondition, hrest⟩ := bind_ok hall
  cases hrest
  cases hstatement
  rw [List.append_nil]
  exact ⟨sql, hcondition, rfl⟩

/-- A selection by a list alone binds what the converter of the list's type writes for the items. -/
theorem Select.render_oneOf_ok {select : Select} (hnone : select.conditions = []) {column : String}
    {items : List Value} {token : TypeToken} {chain chain' : Chain} {statement : Statement}
    (h : (select.filter ((Condition.oneOf column items).withType token)).render chain =
      .ok statement chain') :
    ∃ converter, (chain.converterFor token).1 = .ok converter ∧
      List.Forall₂ (fun item parameter => converter.write item = .ok parameter.value) items
        statement.parameters := by
  obtain ⟨sql, hcondition, -⟩ := render_single hnone h
  exact Condition.render_oneOf_ok hcondition

end ObjectRelational
