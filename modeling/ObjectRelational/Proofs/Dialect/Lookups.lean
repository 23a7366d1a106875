import ObjectRelational.Proofs.Dialect.History

/-! # Lookups of registered types

A composite type and a document type can be looked up as such. These lookups search the links for a
registration, where resolving a type searches them for an answer. On the chain of an engine both end
at the first link: registrations land there, and there a registration comes before anything else that
the dialect knows.

* `Engine.composite`, `Engine.documentStyle`: what the first dialect of an engine makes of them;
* `Chain.fixedPart_after`: lookups among some calls change neither composites nor documents;
* `Chain.Registers`: where the links of a chain have a type registered;
* `Chain.lookups_after`: what the lookups of a type and its resolution give after any calls.
-/

namespace ObjectRelational

set_option autoImplicit false

open Chain (Call)

/-! ## The first dialect of an engine -/

namespace Engine

/-- The converter of a registered composite type; an engine without composites refuses it. -/
def composite (engine : Engine) (token : TypeToken) (databaseType : String) :
    Except ConfigError Converter :=
  match engine with
  | .postgres | .postgis => .ok (.composite databaseType)
  | .generic | .mysql => .error (.unsupported engine.label "composite types" token.name)

/-- How registered documents are bound. -/
def documentStyle : Engine → JsonStyle
  | .generic => .plain
  | .postgres | .postgis => .binary
  | .mysql => .cast

theorem head_composite (engine : Engine) (srid : Int) (token : TypeToken) (databaseType : String) :
    (engine.chain srid).head.dialect.composite token databaseType =
      engine.composite token databaseType := by
  cases engine <;> rfl

theorem head_document (engine : Engine) (srid : Int) :
    (engine.chain srid).head.dialect.document = .json engine.documentStyle := by
  cases engine <;> rfl

theorem composite_ne (engine : Engine) (token : TypeToken) (databaseType : String) :
    engine.composite token databaseType ≠ .error (.typeNotConfigured token.name) := by
  cases engine <;> exact nofun

/-- The dialects of engines keep to the fixed order, in which a structure is nothing native. -/
theorem standard_of_mem {engine : Engine} {srid : Int} {dialect : Dialect}
    (h : dialect ∈ engine.dialects srid) :
    dialect.answers = none ∧ dialect.native .structured = none := by
  cases engine <;> simp only [dialects, List.mem_cons, List.not_mem_nil, or_false] at h
  · exact h ▸ ⟨rfl, rfl⟩
  · rcases h with rfl | rfl <;> exact ⟨rfl, rfl⟩
  · rcases h with rfl | rfl | rfl <;> exact ⟨rfl, rfl⟩
  · rcases h with rfl | rfl <;> exact ⟨rfl, rfl⟩

end Engine

/-! ## The answer of a link -/

namespace Link

variable {link : Link} {token : TypeToken}

theorem answer_composite (hanswers : link.dialect.answers = none) {databaseType : String}
    (h : link.registry.compositeType? token = some databaseType) :
    link.answer token = (link.dialect.composite token databaseType).map some := by
  unfold answer Dialect.answer
  simp only [hanswers, Registry.registered, h]

theorem answer_document (hanswers : link.dialect.answers = none)
    (hcomposite : link.registry.compositeType? token = none)
    (h : link.registry.isDocument token = true) :
    link.answer token = .ok (some link.dialect.document) := by
  unfold answer Dialect.answer
  simp only [hanswers, Registry.registered, hcomposite, h, if_true]

/-- A structure that is not registered is left to the next link. -/
theorem answer_structured (hanswers : link.dialect.answers = none)
    (hnative : link.dialect.native .structured = none) (hkind : token.kind = .structured)
    (hcomposite : link.registry.compositeType? token = none)
    (hdocument : link.registry.isDocument token = false) : link.answer token = .ok none := by
  unfold answer Dialect.answer
  simp only [hanswers, Registry.registered, hcomposite, hdocument, hkind, hnative,
    Bool.false_eq_true, if_false]

end Link

theorem firstAnswer_of_forall {answers : List Answer} (h : ∀ answer ∈ answers, answer = .ok none) :
    firstAnswer answers = .ok none := by
  induction answers with
  | nil => rfl
  | cons answer rest ih =>
    obtain ⟨rfl, hrest⟩ := List.forall_mem_cons.1 h
    exact ih hrest

namespace Chain

/-! ## Registrations on the links -/

/-- A registration makes of chains with the same composites and documents such chains again. -/
theorem fixedPart_perform {before after : Chain}
    (h : before.links.map fixedPart = after.links.map fixedPart) {call : Call}
    (hcall : call.isRegistration = true) :
    (before.perform call).links.map fixedPart = (after.perform call).links.map fixedPart := by
  obtain ⟨hhead, htail⟩ := List.cons.inj h
  obtain ⟨hdialect, hrest⟩ := Prod.mk.inj hhead
  obtain ⟨hcomposites, hdocuments⟩ := Prod.mk.inj hrest
  -- All three change the registry of the first link and leave the links behind it as they are.
  cases call with
  | registerEnum token databaseType => exact h
  | registerComposite token databaseType =>
    refine List.cons_eq_cons.2 ⟨?_, htail⟩
    exact Prod.ext hdialect (Prod.ext (congrArg (Table.put · token.name databaseType) hcomposites)
      hdocuments)
  | registerDocument token =>
    refine List.cons_eq_cons.2 ⟨?_, htail⟩
    exact Prod.ext hdialect (Prod.ext hcomposites (congrArg (token.name :: ·) hdocuments))
  | resolve token => cases hcall
  | converterFor token => cases hcall

theorem fixedPart_lookup (chain : Chain) {call : Call} (hcall : call.isRegistration = false) :
    (chain.perform call).links.map fixedPart = chain.links.map fixedPart := by
  cases call with
  | resolve token => exact (chain.resolve_frame token).1
  | converterFor token =>
    change (chain.converterFor token).2.links.map fixedPart = _
    rw [converterFor_chain]
    exact (chain.resolve_frame token).1
  | _ => cases hcall

/-- The composites and documents of the links are those of the registrations among some calls. -/
theorem fixedPart_after (chain : Chain) (calls : List Call) :
    (chain.after calls).links.map fixedPart =
      (chain.after (calls.filter Call.isRegistration)).links.map fixedPart := by
  induction calls using List.reverseRecOn with
  | nil => rfl
  | append_singleton calls call ih =>
    rw [List.filter_append, after_concat]
    cases hcall : call.isRegistration with
    | true =>
      rw [List.filter_cons_of_pos hcall, List.filter_nil, after_concat]
      exact fixedPart_perform ih hcall
    | false =>
      rw [List.filter_cons_of_neg (by simp [hcall]), List.filter_nil, List.append_nil,
        fixedPart_lookup _ hcall]
      exact ih

/-- What is registered for a type on the links of an engine's chain: on the first link some name of a
composite or a document, on the links behind it nothing. -/
structure Registers (engine : Engine) (srid : Int) (registered : Registered) (token : TypeToken)
    (chain : Chain) : Prop where
  dialect : chain.head.dialect = (engine.chain srid).head.dialect
  standard : ∀ link ∈ chain.links, link.dialect ∈ engine.dialects srid
  composite : chain.head.registry.compositeType? token = registered.composite?
  document : chain.head.registry.isDocument token = registered.document
  behind : ∀ link ∈ chain.tail, link.registry.compositeType? token = none ∧
    link.registry.isDocument token = false

theorem registers_after (engine : Engine) (srid : Int) (calls : List Call) (token : TypeToken) :
    ((engine.chain srid).after calls).Registers engine srid (.ofCalls calls token) token := by
  obtain ⟨hbehind, hfirst, hregistered⟩ :=
    (engine.chain srid).after_registrations (calls.filter Call.isRegistration)
      (fun call h => (List.mem_filter.1 h).2) (engine.head_registry srid)
  have hdialects := (engine.chain srid).dialects_after calls
  obtain ⟨hhead, htail⟩ := List.cons.inj ((engine.chain srid).fixedPart_after calls)
  obtain ⟨hdialect, hrest⟩ := Prod.mk.inj hhead
  obtain ⟨hcomposites, hdocuments⟩ := Prod.mk.inj hrest
  have hknown := hregistered token
  rw [Registered.ofCalls_filter] at hknown
  refine ⟨hdialect.trans hfirst, fun link hlink => ?_, ?_, ?_, fun link hlink => ?_⟩
  · have hmem := List.mem_map_of_mem (f := Link.dialect) hlink
    rw [hdialects, engine.chain_links, List.map_map] at hmem
    obtain ⟨dialect, hdialect, rfl⟩ := List.mem_map.1 hmem
    exact hdialect
  · rw [Registry.compositeType?, hcomposites]
    exact congrArg Registered.composite? hknown
  · rw [Registry.isDocument, hdocuments]
    exact congrArg Registered.document hknown
  · have hmem := List.mem_map_of_mem (f := fixedPart) hlink
    rw [htail, hbehind] at hmem
    obtain ⟨fresh, hfresh, hsame⟩ := List.mem_map.1 hmem
    obtain ⟨dialect, rfl⟩ : ∃ dialect, Link.ofDialect dialect = fresh := by
      have hlinks : fresh ∈ (engine.chain srid).links := List.mem_cons_of_mem _ hfresh
      rw [engine.chain_links] at hlinks
      obtain ⟨dialect, -, hdialect⟩ := List.mem_map.1 hlinks
      exact ⟨dialect, hdialect⟩
    obtain ⟨-, hparts⟩ := Prod.mk.inj hsame
    obtain ⟨hnone, hno⟩ := Prod.mk.inj hparts
    rw [Registry.compositeType?, Registry.isDocument, ← hnone, ← hno]
    exact ⟨rfl, rfl⟩

/-! ## Lookups -/

section Lookups

variable {engine : Engine} {srid : Int} {registered : Registered} {token : TypeToken} {chain : Chain}
  (h : chain.Registers engine srid registered token)

include h

theorem Registers.compositeConverter :
    chain.compositeConverter token = match registered.composite? with
      | some databaseType => engine.composite token databaseType
      | none => .error (.typeNotConfigured token.name) := by
  unfold Chain.compositeConverter
  rw [links, List.findSome?_cons, h.composite, h.dialect]
  cases registered.composite? with
  | some databaseType => exact engine.head_composite srid token databaseType
  | none =>
    have hnone : ∀ link ∈ chain.tail, (link.registry.compositeType? token).map
        (fun databaseType => link.dialect.composite token databaseType) = none := by
      intro link hlink
      rw [(h.behind link hlink).1, Option.map_none]
    dsimp only [Option.map_none]
    rw [List.findSome?_eq_none_iff.2 hnone, Option.getD_none]

theorem Registers.documentConverter :
    chain.documentConverter token = if registered.document then .ok (.json engine.documentStyle)
      else .error (.typeNotConfigured token.name) := by
  unfold Chain.documentConverter
  rw [links, List.find?_cons, h.document]
  cases registered.document with
  | true =>
    dsimp only
    rw [h.dialect, engine.head_document]
    rfl
  | false =>
    have hnone : ∀ link ∈ chain.tail, ¬ link.registry.isDocument token = true := by
      intro link hlink
      rw [(h.behind link hlink).2]
      exact Bool.false_ne_true
    dsimp only
    rw [List.find?_eq_none.2 hnone]
    rfl

theorem Registers.answers {link : Link} (hlink : link ∈ chain.links) :
    link.dialect.answers = none :=
  (Engine.standard_of_mem (h.standard link hlink)).1

theorem Registers.resolve_composite {databaseType : String}
    (hcomposite : registered.composite? = some databaseType) :
    (chain.resolve token).1 = (engine.composite token databaseType).map some := by
  have hanswer : chain.head.answer token = (engine.composite token databaseType).map some := by
    rw [Link.answer_composite (h.answers List.mem_cons_self) (h.composite.trans hcomposite),
      h.dialect, engine.head_composite]
  have hne : chain.head.answer token ≠ .ok none := by
    rw [hanswer]
    cases engine.composite token databaseType <;> exact nofun
  rw [chain.resolve_answer, Chain.answer, links, List.map_cons, firstAnswer_of_ne hne, hanswer]

theorem Registers.resolve_document (hcomposite : registered.composite? = none)
    (hdocument : registered.document = true) :
    (chain.resolve token).1 = .ok (some (.json engine.documentStyle)) := by
  have hanswer : chain.head.answer token = .ok (some (.json engine.documentStyle)) := by
    rw [Link.answer_document (h.answers List.mem_cons_self) (h.composite.trans hcomposite)
      (h.document.trans hdocument), h.dialect, engine.head_document]
  have hne : chain.head.answer token ≠ .ok none := by
    rw [hanswer]
    exact nofun
  rw [chain.resolve_answer, Chain.answer, links, List.map_cons, firstAnswer_of_ne hne, hanswer]

theorem Registers.resolve_structured (hkind : token.kind = .structured)
    (hcomposite : registered.composite? = none) (hdocument : registered.document = false) :
    (chain.resolve token).1 = .ok none := by
  rw [chain.resolve_answer]
  refine firstAnswer_of_forall fun answer hanswer => ?_
  obtain ⟨link, hlink, rfl⟩ := List.mem_map.1 hanswer
  obtain ⟨hanswers, hnative⟩ := Engine.standard_of_mem (h.standard link hlink)
  rcases List.mem_cons.1 hlink with rfl | hbehind
  · exact Link.answer_structured hanswers hnative hkind (h.composite.trans hcomposite)
      (h.document.trans hdocument)
  · obtain ⟨hnone, hno⟩ := h.behind link hbehind
    exact Link.answer_structured hanswers hnative hkind hnone hno

/-- A structure is found if and only if it is registered as a composite or as a document. -/
theorem Registers.resolve_structured_iff (hkind : token.kind = .structured) :
    (chain.resolve token).1 = .ok none ↔
      registered.composite? = none ∧ registered.document = false := by
  constructor
  · intro hnone
    cases hcomposite : registered.composite? with
    | some databaseType =>
      rw [h.resolve_composite hcomposite] at hnone
      cases hfound : engine.composite token databaseType <;> rw [hfound] at hnone <;> cases hnone
    | none =>
      refine ⟨rfl, Bool.eq_false_iff.2 fun hdocument => ?_⟩
      rw [h.resolve_document hcomposite hdocument] at hnone
      cases hnone
  · rintro ⟨hcomposite, hdocument⟩
    exact h.resolve_structured hkind hcomposite hdocument

/-- The converter of a structure that needs a column: its registration decides alone. -/
theorem Registers.converterFor_structured (hkind : token.kind = .structured) :
    (chain.converterFor token).1 = match registered.composite? with
      | some databaseType => engine.composite token databaseType
      | none =>
          if registered.document then .ok (.json engine.documentStyle)
          else .error (.typeNotConfigured token.name) := by
  rw [converterFor_eq, ← chain.resolve_answer]
  cases hcomposite : registered.composite? with
  | some databaseType =>
    rw [h.resolve_composite hcomposite]
    dsimp only
    cases engine.composite token databaseType <;> rfl
  | none =>
    cases hdocument : registered.document with
    | true =>
      rw [h.resolve_document hcomposite hdocument]
      rfl
    | false =>
      rw [h.resolve_structured hkind hcomposite hdocument]
      dsimp only
      rw [noConverter, hkind]
      rfl

theorem Registers.converterFor_structured_iff (hkind : token.kind = .structured) :
    (chain.converterFor token).1 = .error (.typeNotConfigured token.name) ↔
      registered.composite? = none ∧ registered.document = false := by
  rw [h.converterFor_structured hkind]
  cases registered.composite? with
  | some databaseType =>
    exact ⟨fun he => absurd he (engine.composite_ne token _), fun hneither => nomatch hneither.1⟩
  | none =>
    cases registered.document with
    | true => exact ⟨nofun, fun hneither => nomatch hneither.2⟩
    | false => exact ⟨fun _ => ⟨rfl, rfl⟩, fun _ => rfl⟩

end Lookups

/-- On the chain of an engine, after any calls: a type can be looked up as a composite if and only if
it has been registered as one, and then the lookup and its resolution give the same, by the last name
that was registered; it can be looked up as a document if and only if it has been registered as one,
and then its resolution gives the same unless it is a composite too; and a structure is resolved to
nothing, and is not configured where it needs a column, if and only if it has been registered as
neither. -/
theorem lookups_after (engine : Engine) (srid : Int) (calls : List Call) (token : TypeToken) :
    let chain := (engine.chain srid).after calls
    let registered := Registered.ofCalls calls token
    (chain.compositeConverter token = .error (.typeNotConfigured token.name) ↔
      registered.composite? = none) ∧
    (∀ databaseType, registered.composite? = some databaseType →
      chain.compositeConverter token = engine.composite token databaseType ∧
      (chain.resolve token).1 = (chain.compositeConverter token).map some) ∧
    (chain.documentConverter token = .error (.typeNotConfigured token.name) ↔
      registered.document = false) ∧
    (registered.document = true →
      chain.documentConverter token = .ok (.json engine.documentStyle) ∧
      (registered.composite? = none →
        (chain.resolve token).1 = (chain.documentConverter token).map some)) ∧
    (token.kind = .structured →
      ((chain.resolve token).1 = .ok none ↔
        registered.composite? = none ∧ registered.document = false) ∧
      ((chain.converterFor token).1 = .error (.typeNotConfigured token.name) ↔
        registered.composite? = none ∧ registered.document = false)) := by
  intro chain registered
  have h : chain.Registers engine srid registered token := registers_after engine srid calls token
  have hcomposite := h.compositeConverter
  have hdocument := h.documentConverter
  refine ⟨?_, fun databaseType hsome => ?_, ?_, fun htrue => ?_, fun hkind =>
    ⟨h.resolve_structured_iff hkind, h.converterFor_structured_iff hkind⟩⟩
  · rw [hcomposite]
    cases registered.composite? with
    | none => exact ⟨fun _ => rfl, fun _ => rfl⟩
    | some databaseType => exact ⟨fun he => absurd he (engine.composite_ne token _), nofun⟩
  · rw [hsome] at hcomposite
    exact ⟨hcomposite, by rw [hcomposite, h.resolve_composite hsome]⟩
  · rw [hdocument]
    cases registered.document with
    | true => exact ⟨nofun, nofun⟩
    | false => exact ⟨fun _ => rfl, fun _ => rfl⟩
  · rw [htrue, if_pos rfl] at hdocument
    exact ⟨hdocument, fun hnone => by rw [hdocument, h.resolve_document hnone htrue]; rfl⟩

/-- An engine without composites refuses one that is registered, also when it is resolved. -/
example :
    let chain := (Engine.mysql.chain 4326).after [.registerComposite mood "feeling"]
    chain.compositeConverter mood = .error (.unsupported "mysql" "composite types" "Mood") ∧
      (chain.resolve mood).1 = .error (.unsupported "mysql" "composite types" "Mood") :=
  ⟨rfl, rfl⟩

end Chain

end ObjectRelational
