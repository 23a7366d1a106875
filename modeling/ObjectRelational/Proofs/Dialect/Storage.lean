import Mathlib.Data.List.Nodup
import ObjectRelational.Proofs.Converter.RoundTrip
import ObjectRelational.Proofs.Dialect.History

/-! # Columns come back on every engine

The engines store types in different forms, but each of their dialects answers for a type with a
converter that suits it. So does a chain, whatever was registered on it and looked up before, as
long as only composites are registered as composites. What a column holds then comes back from any
engine that has a form for it.

* `Dialect.Suitable`: a dialect answers with converters that suit the types;
* `Engine.suits_of_resolve`: so does the chain of an engine after any calls;
* `Engine.roundTrip_after`: what a column holds comes back.
-/

namespace ObjectRelational

set_option autoImplicit false

open Chain (Call)

/-! ## Columns -/

namespace ColumnType

/-- The type is a scalar, an identifier, a point, an enumeration or a composite with fields, and its
token says so. -/
structure Elementary (type : ColumnType) : Prop where
  kind : type.native.kind? = some type.token.kind
  fields : ∀ composite, type.native = .composite composite → composite.fields ≠ []

/-- The bound form of what a column holds. -/
def store (type : ColumnType) (converter : Converter) (optional : Bool) (held : Value) :
    Except MappingError Value := do
  converter.write (← if optional then type.writeOptional held else type.write held)

/-- What a column holds for a stored value. -/
def restore (type : ColumnType) (converter : Converter) (optional : Bool) (stored : Value) :
    Except MappingError Value := do
  let value ← converter.read stored
  if optional then type.readOptional value else type.read value

/-- The number of the variant that a literal stands for, the first if there are several. -/
def variant? (literals : List String) : Value → Option Nat
  | .text literal => literals.idxOf? literal
  | _ => none

variable {type : ColumnType} {converter : Converter}

theorem store_of_holds {held : Value} (holds : type.native.Holds held) (optional : Bool) :
    type.store converter optional held = converter.write held := by
  obtain ⟨hwrite, hnull⟩ := Converter.write_of_holds holds
  cases optional with
  | false =>
    change (type.write held >>= _) = _
    rw [hwrite]
    rfl
  | true =>
    change (type.writeOptional held >>= _) = _
    rw [writeOptional, hnull, hwrite]
    rfl

theorem restore_of_read {stored canonical : Value} (hread : converter.read stored = .ok canonical)
    (hnull : canonical.isNull = false) (optional : Bool) :
    type.restore converter optional stored = type.read canonical := by
  change (converter.read stored >>= _) = _
  rw [hread]
  cases optional with
  | false => rfl
  | true =>
    change type.readOptional canonical = _
    rw [readOptional, hnull]
    rfl

/-- What is absent is stored as null and read as absent. -/
theorem null_survives (type : ColumnType) (converter : Converter) :
    type.store converter true .null = .ok .null ∧ type.restore converter true .null = .ok .null := by
  cases converter <;> exact ⟨rfl, rfl⟩

/-- Distinct literals tell the variants apart. -/
theorem variant?_of_nodup {literals : List String} (h : literals.Nodup) {place : Nat}
    {literal : String} (hplace : literals[place]? = some literal) :
    variant? literals (.text literal) = some place := by
  obtain ⟨hlt, rfl⟩ := List.getElem?_eq_some_iff.1 hplace
  refine List.idxOf?_eq_some_iff.2 ⟨hlt, rfl, fun earlier hearlier heq => ?_⟩
  have := (List.Nodup.getElem_inj_iff h).1 heq
  omega

end ColumnType

/-! ## Dialects -/

/-- The converters that a dialect answers with suit the types that it answers for. -/
structure Dialect.Suitable (dialect : Dialect) : Prop where
  answers : dialect.answers = none
  composite : ∀ token databaseType converter type,
    dialect.composite token databaseType = .ok converter → converter.Suits (.composite type)
  native : ∀ kind converter type,
    dialect.native kind = some converter → type.kind? = some kind → converter.Suits type
  enumeration : ∀ typeName literals databaseType converter,
    dialect.enumeration typeName literals databaseType = some converter →
      converter.Suits (.enumeration literals)
  scalar : ∀ kind converter type,
    dialect.scalar kind = some converter → type.kind? = some (.scalar kind) → converter.Suits type

namespace Dialect

theorem suitable_generic : generic.Suitable where
  answers := rfl
  composite token databaseType converter type h := by cases h
  native kind converter type h hkind := by
    cases kind <;> cases h
    rw [NativeType.eq_uuid_of_kind? hkind]
    exact .uuid _
  enumeration typeName literals databaseType converter h := by
    cases h
    exact .enumeration ..
  scalar kind converter type h hkind := by
    cases kind with
    | json => exact absurd hkind type.kind?_ne_json
    | _ =>
      cases h
      exact .passThrough _ ⟨_, hkind⟩

theorem suits_namedEnumeration {typeName : String} {literals : List String}
    {databaseType : Option String} {converter : Converter}
    (h : namedEnumeration typeName literals databaseType = some converter) :
    converter.Suits (.enumeration literals) := by
  cases databaseType with
  | none => cases h
  | some name =>
    cases h
    exact .enumeration ..

theorem suitable_postgres : postgres.Suitable where
  answers := rfl
  composite token databaseType converter type h := by
    cases h
    exact .composite ..
  native kind converter type h hkind := by
    unfold postgres at h
    dsimp only at h
    split at h <;> cases h
    · rw [NativeType.eq_uuid_of_kind? hkind]
      exact .uuid _
    · rw [NativeType.eq_point_of_kind? hkind]
      exact .pointPair
    · exact absurd hkind type.kind?_ne_json
  enumeration _ _ _ _ := suits_namedEnumeration
  scalar kind converter type h := by cases h

theorem suitable_postgis (srid : Int) : (postgis srid).Suitable where
  answers := rfl
  composite token databaseType converter type h := by
    cases h
    exact .composite ..
  native kind converter type h hkind := by
    unfold postgis at h
    dsimp only at h
    split at h <;> cases h
    rw [NativeType.eq_point_of_kind? hkind]
    exact .pointGeometry srid
  enumeration _ _ _ _ := suits_namedEnumeration
  scalar kind converter type h := by cases h

theorem suitable_mysql (srid : Int) : (mysql srid).Suitable where
  answers := rfl
  composite token databaseType converter type h := by cases h
  native kind converter type h hkind := by
    unfold mysql at h
    dsimp only at h
    split at h <;> cases h
    · rw [NativeType.eq_uuid_of_kind? hkind]
      exact .uuid _
    · rw [NativeType.eq_point_of_kind? hkind]
      exact .pointGeometry srid
    · exact absurd hkind type.kind?_ne_json
  enumeration typeName literals databaseType converter h := by
    cases h
    exact .enumeration ..
  scalar kind converter type h := by cases h

/-- A dialect with nothing registered as a document, and only composites as composites, answers
with a converter that suits the type. -/
theorem Suitable.suits_of_answer {dialect : Dialect} (suitable : dialect.Suitable)
    {registered : Registered} {type : ColumnType} (kind : type.native.kind? = some type.token.kind)
    (hdocument : registered.document = false)
    (hcomposite : registered.composite? ≠ none → ∃ composite, type.native = .composite composite)
    {converter : Converter} (h : dialect.answer registered type.token = .ok (some converter)) :
    converter.Suits type.native := by
  -- The cases are those of the fixed order: a composite, native storage, the kind of the type.
  unfold answer at h
  rw [suitable.answers] at h
  dsimp only at h
  split at h
  · next databaseType hregistered =>
    obtain ⟨composite, hnative⟩ := hcomposite (by simp [hregistered])
    rw [hnative]
    cases hfound : dialect.composite type.token databaseType with
    | error e =>
      rw [hfound] at h
      cases h
    | ok found =>
      rw [hfound] at h
      cases h
      exact suitable.composite _ _ _ _ hfound
  · rw [hdocument, if_neg Bool.false_ne_true] at h
    split at h
    · next found hfound =>
      cases h
      exact suitable.native _ _ _ hfound kind
    · split at h
      · next literals hkind =>
        rw [hkind] at kind
        rw [NativeType.eq_enumeration_of_kind? kind]
        exact suitable.enumeration _ _ _ _ (Except.ok.inj h)
      · next scalar hkind =>
        exact suitable.scalar _ _ _ (Except.ok.inj h) (hkind ▸ kind)
      · cases h

end Dialect

/-! ## Chains -/

theorem mem_of_firstAnswer {answers : List Answer} {converter : Converter}
    (h : firstAnswer answers = .ok (some converter)) : .ok (some converter) ∈ answers := by
  induction answers with
  | nil => cases h
  | cons answer rest ih =>
    by_cases hnone : answer = .ok none
    · subst hnone
      exact List.mem_cons_of_mem _ (ih h)
    · rw [firstAnswer_of_ne hnone] at h
      exact h ▸ List.mem_cons_self

namespace Engine

theorem suitable_of_mem {engine : Engine} {srid : Int} {dialect : Dialect}
    (h : dialect ∈ engine.dialects srid) : dialect.Suitable := by
  cases engine <;> simp only [dialects, List.mem_cons, List.not_mem_nil, or_false] at h
  · exact h ▸ Dialect.suitable_generic
  · rcases h with rfl | rfl
    · exact Dialect.suitable_postgres
    · exact Dialect.suitable_generic
  · rcases h with rfl | rfl | rfl
    · exact Dialect.suitable_postgis srid
    · exact Dialect.suitable_postgres
    · exact Dialect.suitable_generic
  · rcases h with rfl | rfl
    · exact Dialect.suitable_mysql srid
    · exact Dialect.suitable_generic

/-- What an engine owes for a type that is not registered for something else suits the type. -/
theorem suits_of_answer {engine : Engine} {srid : Int} {calls : List Call} {type : ColumnType}
    (kind : type.native.kind? = some type.token.kind)
    (hdocument : (Registered.ofCalls calls type.token).document = false)
    (hcomposite : (Registered.ofCalls calls type.token).composite? ≠ none →
      ∃ composite, type.native = .composite composite)
    {converter : Converter} (h : engine.answer srid calls type.token = .ok (some converter)) :
    converter.Suits type.native := by
  obtain ⟨place, hplace, hanswer⟩ := List.mem_mapIdx.1 (mem_of_firstAnswer h)
  have suitable : ((engine.dialects srid)[place]).Suitable :=
    suitable_of_mem (List.getElem_mem hplace)
  by_cases hfirst : place = 0
  · rw [if_pos hfirst] at hanswer
    exact suitable.suits_of_answer kind hdocument hcomposite hanswer
  · rw [if_neg hfirst] at hanswer
    exact suitable.suits_of_answer kind rfl (fun hne => absurd rfl hne) hanswer

/-- A chain of an engine resolves a type to a converter that suits it. -/
theorem suits_of_resolve {engine : Engine} {srid : Int} {calls : List Call} {type : ColumnType}
    (kind : type.native.kind? = some type.token.kind)
    (tell : NamesTell fun other => other = type.token ∨ ∃ call ∈ calls, call.token = other)
    (documents : .registerDocument type.token ∉ calls)
    (composites : ∀ databaseType, .registerComposite type.token databaseType ∈ calls →
      ∃ composite, type.native = .composite composite)
    {converter : Converter}
    (resolved : (((engine.chain srid).after calls).resolve type.token).1 = .ok (some converter)) :
    converter.Suits type.native := by
  have hsame : ∀ call ∈ calls, call.token.same type.token = true → call.token = type.token :=
    fun call hcall h => tell _ _ (.inr ⟨call, hcall, rfl⟩) (.inl rfl) (of_decide_eq_true h)
  have hdocument : (Registered.ofCalls calls type.token).document = false := by
    refine List.any_eq_false.2 fun call hcall => ?_
    cases call with
    | registerDocument other =>
      intro hother
      have := hsame _ hcall hother
      exact documents (this ▸ hcall)
    | _ => exact Bool.false_ne_true
  have hcomposite : (Registered.ofCalls calls type.token).composite? ≠ none →
      ∃ composite, type.native = .composite composite := by
    intro hne
    obtain ⟨databaseType, hfound⟩ := Option.ne_none_iff_exists'.1 hne
    obtain ⟨call, hcall, hcomposite⟩ := List.exists_of_findSome?_eq_some hfound
    rw [List.mem_reverse] at hcall
    cases call with
    | registerComposite other name =>
      by_cases hother : other.same type.token = true
      · have := hsame _ hcall hother
        exact composites name (this ▸ hcall)
      · simp [hother] at hcomposite
    | _ => cases hcomposite
  rw [Chain.resolve_answer,
    engine.answer_after srid calls tell (fun call h => .inr ⟨call, h, rfl⟩) (.inl rfl)] at resolved
  exact suits_of_answer kind hdocument hcomposite resolved

/-! ## Round trips -/

open ColumnType in
/-- On the chain of an engine, after any registrations and lookups, a column type that the chain
resolves gives back what is stored. The type is not registered as a document, and only a composite
as a composite. Storing fails for a point that is not finite, and for nothing else. What comes back
is what was held, but for which of the values it is that are no number. What is absent is stored as
null and comes back absent, and of distinct literals the variant comes back. -/
theorem roundTrip_after (engine : Engine) (srid : Int) (calls : List Call) (type : ColumnType)
    (elementary : type.Elementary)
    (tell : NamesTell fun other => other = type.token ∨ ∃ call ∈ calls, call.token = other)
    (documents : .registerDocument type.token ∉ calls)
    (composites : ∀ databaseType, .registerComposite type.token databaseType ∈ calls →
      ∃ composite, type.native = .composite composite)
    {converter : Converter}
    (resolved : (((engine.chain srid).after calls).resolve type.token).1 = .ok (some converter))
    (optional : Bool) {held : Value}
    (holds : type.native.Holds held ∨ optional = true ∧ held = .null) :
    ((∃ e, type.store converter optional held = .error e) ↔ ∃ p, held = .point p ∧ ¬ p.IsFinite) ∧
      ∀ stored, type.store converter optional held = .ok stored →
        ∃ back, type.restore converter optional stored = .ok back ∧ held.Alike back ∧
          (held = .null → stored = .null ∧ back = .null) ∧
          ∀ literals place literal, type.native = .enumeration literals → literals.Nodup →
            literals[place]? = some literal → held = .text literal →
              variant? literals back = some place := by
  have suits : converter.Suits type.native :=
    suits_of_resolve elementary.kind tell documents composites resolved
  rcases holds with holds | ⟨rfl, rfl⟩
  · rw [store_of_holds holds]
    obtain ⟨-, hheld⟩ := Converter.write_of_holds holds
    by_cases hfinite : ∀ p, held = .point p → p.IsFinite
    · obtain ⟨stored, canonical, back, hwrite, hread, hnull, hback, halike⟩ :=
        suits.survives elementary.fields holds hfinite
      rw [hwrite]
      refine ⟨⟨?_, ?_⟩, ?_⟩
      · rintro ⟨e, he⟩
        cases he
      · rintro ⟨p, hp, hinfinite⟩
        exact absurd (hfinite p hp) hinfinite
      · rintro _ ⟨⟩
        rw [restore_of_read hread hnull]
        refine ⟨back, hback, halike, ?_, ?_⟩
        · rintro rfl
          cases hheld
        · rintro literals place literal - hnodup hplace rfl
          rw [halike.eq_text]
          exact variant?_of_nodup hnodup hplace
    · simp only [not_forall] at hfinite
      obtain ⟨p, rfl, hinfinite⟩ := hfinite
      have hnative : type.native = .point := by
        obtain ⟨token, native⟩ := type
        dsimp only at holds
        cases holds
        rfl
      have hpoint : converter.Suits .point := hnative ▸ suits
      rw [hpoint.write_infinite hinfinite]
      refine ⟨⟨fun _ => ⟨p, rfl, hinfinite⟩, fun _ => ⟨_, rfl⟩⟩, fun stored h => ?_⟩
      cases h
  · obtain ⟨hstore, hrestore⟩ := null_survives type converter
    rw [hstore]
    refine ⟨⟨?_, ?_⟩, ?_⟩
    · rintro ⟨e, he⟩
      cases he
    · rintro ⟨p, hp, -⟩
      cases hp
    · rintro _ ⟨⟩
      refine ⟨.null, hrestore, .refl _, fun _ => ⟨rfl, rfl⟩, ?_⟩
      rintro literals place literal - - - hliteral
      cases hliteral

/-- A composite with a text, a number and a count that may be missing. -/
def city : ColumnType where
  token := ⟨"City", .structured, none⟩
  native := .composite ⟨"City",
    [("name", ⟨.text, false⟩), ("height", ⟨.double, false⟩), ("people", ⟨.integer .int, true⟩)]⟩

/-- A quote in the text, negative zero, and no count. -/
def cityFields : List Value :=
  [.text "The \"Pit\"", .double ⟨true, 0, by decide⟩, .null]

theorem roundTrip_after_city :
    let calls := [Call.registerEnum Chain.mood "mood", .registerComposite city.token "city",
      .resolve Chain.mood]
    (((postgis.chain 4326).after calls).resolve city.token).1 = .ok (some (.composite "city")) ∧
      ∃ stored back, city.store (.composite "city") false (.record cityFields) = .ok stored ∧
        city.restore (.composite "city") false stored = .ok back ∧
        (Value.record cityFields).Alike back := by
  intro calls
  have elementary : city.Elementary := by
    refine ⟨rfl, ?_⟩
    rintro composite ⟨⟩
    exact List.cons_ne_nil _ _
  have hcall : ∀ call ∈ calls, call.token = Chain.mood ∨ call.token = city.token := by
    simp [calls, Call.token]
  have tell : NamesTell fun other => other = city.token ∨ ∃ call ∈ calls, call.token = other := by
    have hall : ∀ other, (other = city.token ∨ ∃ call ∈ calls, call.token = other) →
        other = Chain.mood ∨ other = city.token := by
      rintro other (h | ⟨call, hmem, rfl⟩)
      · exact .inr h
      · exact hcall call hmem
    intro token other h h' hname
    rcases hall token h with rfl | rfl <;> rcases hall other h' with rfl | rfl
    · rfl
    · exact absurd hname (by decide)
    · exact absurd hname (by decide)
    · rfl
  have holds : city.native.Holds (.record cityFields) :=
    .composite (.cons (.inr (.text _)) (.cons (.inr (.double _)) (.cons (.inl ⟨rfl, rfl⟩) .nil)))
  have resolved : (((postgis.chain 4326).after calls).resolve city.token).1 =
      .ok (some (.composite "city")) := rfl
  obtain ⟨hfails, hback⟩ := roundTrip_after postgis 4326 calls city elementary tell
    (by simp [calls]) (fun _ _ => ⟨_, rfl⟩) resolved false (.inl holds)
  refine ⟨resolved, ?_⟩
  cases hstore : city.store (.composite "city") false (.record cityFields) with
  | error e =>
    obtain ⟨p, hp, -⟩ := hfails.1 ⟨e, hstore⟩
    cases hp
  | ok stored =>
    obtain ⟨back, hrestore, halike, -⟩ := hback stored hstore
    exact ⟨stored, back, rfl, hrestore, halike⟩

end Engine

end ObjectRelational
