import Mathlib.Data.List.Induction
import ObjectRelational.Proofs.Dialect.Resolution

/-! # Chains with a history

A chain in use is asked to register types and to look types up, in any order. What it answers comes
from the last registrations alone: lookups leave nothing behind that a later answer shows.

* `Chain.Call`, `Chain.after`: what a chain is asked, and the chain after some calls;
* `Registered.ofCalls`: what some calls have registered for a type;
* `Engine.answer`: the answer that an engine owes after some calls;
* `Chain.resolve_after`: the answers of a chain after any calls.
-/

namespace ObjectRelational

set_option autoImplicit false

/-! ## Calls -/

namespace Chain

/-- What a chain is asked. -/
inductive Call where
  | registerEnum (token : TypeToken) (databaseType : String)
  | registerComposite (token : TypeToken) (databaseType : String)
  | registerDocument (token : TypeToken)
  | resolve (token : TypeToken)
  | converterFor (token : TypeToken)

namespace Call

def token : Call → TypeToken
  | registerEnum token _ => token
  | registerComposite token _ => token
  | registerDocument token => token
  | resolve token => token
  | converterFor token => token

def isRegistration : Call → Bool
  | registerEnum .. | registerComposite .. | registerDocument _ => true
  | resolve _ | converterFor _ => false

end Call

/-- The chain after one call. -/
def perform (chain : Chain) : Call → Chain
  | .registerEnum token databaseType => chain.registerEnum token databaseType
  | .registerComposite token databaseType => chain.registerComposite token databaseType
  | .registerDocument token => chain.registerDocument token
  | .resolve token => (chain.resolve token).2
  | .converterFor token => (chain.converterFor token).2

/-- The chain after some calls. -/
def after (chain : Chain) (calls : List Call) : Chain :=
  calls.foldl perform chain

@[simp]
theorem after_nil (chain : Chain) : chain.after [] = chain := rfl

@[simp]
theorem after_concat (chain : Chain) (calls : List Call) (call : Call) :
    chain.after (calls ++ [call]) = (chain.after calls).perform call := by
  simp [after]

end Chain

open Chain (Call)

/-! ## Registrations among calls -/

namespace Registered

/-- What some calls have registered for a type; of several names of one sort the last counts. -/
def ofCalls (calls : List Call) (token : TypeToken) : Registered where
  composite? := calls.reverse.findSome? fun call =>
    match call with
    | .registerComposite other databaseType =>
        if other.same token then some databaseType else none
    | _ => none
  document := calls.any fun call =>
    match call with
    | .registerDocument other => other.same token
    | _ => false
  enum? := calls.reverse.findSome? fun call =>
    match call with
    | .registerEnum other databaseType => if other.same token then some databaseType else none
    | _ => none

/-- What is registered after one call more. -/
def next (registered : Registered) (token : TypeToken) : Call → Registered
  | .registerEnum other databaseType =>
      if other.same token then { registered with enum? := some databaseType } else registered
  | .registerComposite other databaseType =>
      if other.same token then { registered with composite? := some databaseType } else registered
  | .registerDocument other =>
      if other.same token then { registered with document := true } else registered
  | .resolve _ => registered
  | .converterFor _ => registered

theorem ofCalls_concat (calls : List Call) (call : Call) (token : TypeToken) :
    ofCalls (calls ++ [call]) token = (ofCalls calls token).next token call := by
  cases call <;>
    simp only [ofCalls, next, List.reverse_append, List.reverse_singleton, List.singleton_append,
      List.findSome?_cons, List.any_append, List.any_cons, List.any_nil, Bool.or_false]
  all_goals split <;> simp_all

theorem ofCalls_filter (calls : List Call) (token : TypeToken) :
    ofCalls (calls.filter Call.isRegistration) token = ofCalls calls token := by
  induction calls using List.reverseRecOn with
  | nil => rfl
  | append_singleton calls call ih =>
    rw [List.filter_append, ofCalls_concat]
    cases call <;>
      simp only [Call.isRegistration, List.filter_cons, List.filter_nil, if_true, ofCalls_concat, ih]
    all_goals simpa [next] using ih

end Registered

/-! ## Registering on a chain -/

namespace Registry

theorem registered_registerEnum (registry : Registry) (other token : TypeToken)
    (databaseType : String) :
    (registry.registerEnum other databaseType).registered token =
      (registry.registered token).next token (.registerEnum other databaseType) := by
  simp only [registered, Registered.next, registerEnum, enumType?, TypeToken.same, Table.get?_put,
    decide_eq_true_eq]
  split <;> rfl

theorem registered_registerComposite (registry : Registry) (other token : TypeToken)
    (databaseType : String) :
    (registry.registerComposite other databaseType).registered token =
      (registry.registered token).next token (.registerComposite other databaseType) := by
  simp only [registered, Registered.next, registerComposite, compositeType?, TypeToken.same, Table.get?_put,
    decide_eq_true_eq]
  split <;> rfl

theorem registered_registerDocument (registry : Registry) (other token : TypeToken) :
    (registry.registerDocument other).registered token =
      (registry.registered token).next token (.registerDocument other) := by
  by_cases h : other.name = token.name
  · simp [registered, Registered.next, registerDocument, enumType?, compositeType?, isDocument,
      TypeToken.same, h]
  · simp [registered, Registered.next, registerDocument, enumType?, compositeType?, isDocument,
      TypeToken.same, h, Ne.symm h]

/-- Registering respects what is only remembered. -/
theorem Remembers.registerEnum {types : TypeToken → Prop} {before after : Registry}
    (h : before.Remembers types after) (token : TypeToken) (databaseType : String) :
    (before.registerEnum token databaseType).Remembers types
      (after.registerEnum token databaseType) where
  composites := h.composites
  documents := h.documents
  enums := by
    intro other hother
    simp only [Registry.registerEnum, enumType?, Table.get?_put]
    split
    · exact .inl rfl
    · exact h.enums other hother

theorem Remembers.registerComposite {types : TypeToken → Prop} {before after : Registry}
    (h : before.Remembers types after) (token : TypeToken) (databaseType : String) :
    (before.registerComposite token databaseType).Remembers types
      (after.registerComposite token databaseType) where
  composites := by simp only [Registry.registerComposite, h.composites]
  documents := h.documents
  enums := h.enums

theorem Remembers.registerDocument {types : TypeToken → Prop} {before after : Registry}
    (h : before.Remembers types after) (token : TypeToken) :
    (before.registerDocument token).Remembers types (after.registerDocument token) where
  composites := h.composites
  documents := by simp only [Registry.registerDocument, h.documents]
  enums := h.enums

end Registry

namespace Chain

theorem Remembers.updateRegistry {types : TypeToken → Prop} {before after : Chain}
    (h : before.Remembers types after) {update : Registry → Registry}
    (hupdate : ∀ registry registry', registry.Remembers types registry' →
      (update registry).Remembers types (update registry')) :
    (before.updateRegistry update).Remembers types (after.updateRegistry update) := by
  obtain ⟨hhead, htail⟩ := List.forall₂_cons.1 h
  exact .cons ⟨hhead.dialect, hupdate _ _ hhead.registry⟩ htail

theorem converterFor_chain (chain : Chain) (token : TypeToken) :
    (chain.converterFor token).2 = (chain.resolve token).2 := by
  unfold converterFor
  rcases chain.resolve token with ⟨e | _ | converter, chain'⟩ <;> rfl

theorem Remembers.perform {types : TypeToken → Prop} {before after : Chain}
    (h : before.Remembers types after) {call : Call} (hcall : call.isRegistration = true) :
    (before.perform call).Remembers types (after.perform call) := by
  cases call with
  | registerEnum token databaseType =>
    exact h.updateRegistry fun _ _ hr => hr.registerEnum token databaseType
  | registerComposite token databaseType =>
    exact h.updateRegistry fun _ _ hr => hr.registerComposite token databaseType
  | registerDocument token => exact h.updateRegistry fun _ _ hr => hr.registerDocument token
  | resolve token => cases hcall
  | converterFor token => cases hcall

theorem remembers_lookup {types : TypeToken → Prop} (tell : NamesTell types) (chain : Chain)
    {call : Call} (hcall : call.isRegistration = false) (htoken : types call.token) :
    chain.Remembers types (chain.perform call) := by
  cases call with
  | resolve token => exact chain.remembers_resolve tell htoken
  | converterFor token =>
    change chain.Remembers types (chain.converterFor token).2
    rw [converterFor_chain]
    exact chain.remembers_resolve tell htoken
  | _ => cases hcall

/-- Lookups among some calls leave nothing behind but what links remember. -/
theorem remembers_after {types : TypeToken → Prop} (tell : NamesTell types) (chain : Chain)
    (calls : List Call) (htypes : ∀ call ∈ calls, types call.token) :
    (chain.after (calls.filter Call.isRegistration)).Remembers types (chain.after calls) := by
  -- A registration is made on both chains, a lookup on the one with the whole history alone.
  induction calls using List.reverseRecOn with
  | nil => exact .refl chain
  | append_singleton calls call ih =>
    have hcalls := ih fun earlier h => htypes earlier (List.mem_append_left _ h)
    have hcall := htypes call (List.mem_append_right _ (List.mem_singleton_self call))
    rw [List.filter_append, after_concat]
    cases hr : call.isRegistration with
    | true =>
      rw [List.filter_cons_of_pos hr, List.filter_nil, after_concat]
      exact hcalls.perform hr
    | false =>
      rw [List.filter_cons_of_neg (by simp [hr]), List.filter_nil, List.append_nil]
      exact hcalls.trans (remembers_lookup tell _ hr hcall)

/-- Registrations change the first link alone, and there what is registered for a type. -/
theorem after_registrations (chain : Chain) (calls : List Call)
    (hcalls : ∀ call ∈ calls, call.isRegistration = true)
    (hempty : chain.head.registry = .empty) :
    (chain.after calls).tail = chain.tail ∧
      (chain.after calls).head.dialect = chain.head.dialect ∧
      ∀ token, (chain.after calls).head.registry.registered token = .ofCalls calls token := by
  induction calls using List.reverseRecOn with
  | nil =>
    refine ⟨rfl, rfl, fun token => ?_⟩
    rw [after_nil, hempty]
    rfl
  | append_singleton calls call ih =>
    obtain ⟨htail, hdialect, hregistered⟩ :=
      ih fun earlier h => hcalls earlier (List.mem_append_left _ h)
    have hcall := hcalls call (List.mem_append_right _ (List.mem_singleton_self call))
    simp only [after_concat, Registered.ofCalls_concat, ← hregistered]
    cases call with
    | registerEnum other databaseType =>
      exact ⟨htail, hdialect, fun token => Registry.registered_registerEnum _ other token _⟩
    | registerComposite other databaseType =>
      exact ⟨htail, hdialect, fun token => Registry.registered_registerComposite _ other token _⟩
    | registerDocument other =>
      exact ⟨htail, hdialect, fun token => Registry.registered_registerDocument _ other token⟩
    | resolve token => cases hcall
    | converterFor token => cases hcall

end Chain

/-! ## The answers of an engine -/

namespace Engine

/-- The answer that an engine owes after some calls: that of its first dialect with an answer. The
registrations count for the first dialect; on the others nothing is registered. -/
def answer (engine : Engine) (srid : Int) (calls : List Call) (token : TypeToken) : Answer :=
  firstAnswer ((engine.dialects srid).mapIdx fun place dialect =>
    dialect.answer (if place = 0 then .ofCalls calls token else .nothing) token)

/-- The converter that an engine owes, or why there is none. -/
def converter (engine : Engine) (srid : Int) (calls : List Call) (token : TypeToken) :
    Except ConfigError Converter :=
  match engine.answer srid calls token with
  | .error e => .error e
  | .ok (some converter) => .ok converter
  | .ok none =>
      match token.kind with
      | .structured => .error (.typeNotConfigured token.name)
      | _ => .error (.unsupportedType token.name
          (" -> ".intercalate ((engine.dialects srid).map Dialect.name)))

theorem chain_links (engine : Engine) (srid : Int) :
    (engine.chain srid).links = (engine.dialects srid).map .ofDialect := by
  cases engine <;> rfl

theorem head_registry (engine : Engine) (srid : Int) :
    (engine.chain srid).head.registry = .empty := by
  cases engine <;> rfl

/-- Without lookups a chain of an engine answers as the engine owes it. -/
theorem answer_after_registrations (engine : Engine) (srid : Int) (calls : List Call)
    (hcalls : ∀ call ∈ calls, call.isRegistration = true) (token : TypeToken) :
    ((engine.chain srid).after calls).answer token = engine.answer srid calls token := by
  obtain ⟨htail, hdialect, hregistered⟩ :=
    (engine.chain srid).after_registrations calls hcalls (engine.head_registry srid)
  have hlinks := engine.chain_links srid
  unfold Chain.answer answer
  simp only [Chain.links, List.map_cons] at hlinks ⊢
  rw [Link.answer, hregistered, hdialect, htail]
  cases hd : engine.dialects srid with
  | nil =>
    rw [hd] at hlinks
    cases hlinks
  | cons first rest =>
    rw [hd, List.map_cons, List.cons.injEq] at hlinks
    rw [hlinks.1, hlinks.2, List.mapIdx_cons, List.map_map]
    congr 2
    apply List.ext_getElem? fun place => ?_
    simp only [List.getElem?_map, List.getElem?_mapIdx]
    rfl

/-- A chain of an engine answers after any calls as the engine owes it. -/
theorem answer_after (engine : Engine) (srid : Int) (calls : List Call) {types : TypeToken → Prop}
    (tell : NamesTell types) (htypes : ∀ call ∈ calls, types call.token) {token : TypeToken}
    (htoken : types token) :
    ((engine.chain srid).after calls).answer token = engine.answer srid calls token := by
  have hremembers := (engine.chain srid).remembers_after tell calls htypes
  have hregistrations : ∀ call ∈ calls.filter Call.isRegistration, call.isRegistration = true :=
    fun call h => (List.mem_filter.1 h).2
  rw [Chain.answer_of_remembers hremembers htoken,
    engine.answer_after_registrations srid _ hregistrations token]
  simp only [answer, Registered.ofCalls_filter]

theorem describe_after_registrations (engine : Engine) (srid : Int) (calls : List Call)
    (hcalls : ∀ call ∈ calls, call.isRegistration = true) :
    ((engine.chain srid).after calls).describe =
      " -> ".intercalate ((engine.dialects srid).map Dialect.name) := by
  obtain ⟨htail, hdialect, -⟩ :=
    (engine.chain srid).after_registrations calls hcalls (engine.head_registry srid)
  have hlinks := engine.chain_links srid
  unfold Chain.links at hlinks
  unfold Chain.describe Chain.links
  rw [List.map_cons, hdialect, htail, ← List.map_cons (f := fun link : Link => link.dialect.name),
    hlinks, List.map_map]
  rfl

end Engine

namespace Chain

theorem converterFor_eq (chain : Chain) (token : TypeToken) :
    (chain.converterFor token).1 =
      match chain.answer token with
      | .error e => .error e
      | .ok (some converter) => .ok converter
      | .ok none => .error ((chain.resolve token).2.noConverter token) := by
  unfold converterFor
  rw [← chain.resolve_answer token]
  rcases chain.resolve token with ⟨e | _ | converter, chain'⟩ <;> rfl

theorem noConverter_of_remembers {types : TypeToken → Prop} {before after : Chain}
    (h : before.Remembers types after) (token : TypeToken) :
    after.noConverter token = before.noConverter token := by
  unfold noConverter
  rw [describe_of_remembers h]

/-- The converter of a type does not depend on what is remembered. -/
theorem converterFor_of_remembers {types : TypeToken → Prop} (tell : NamesTell types)
    {before after : Chain} (h : before.Remembers types after) {token : TypeToken}
    (htoken : types token) : (after.converterFor token).1 = (before.converterFor token).1 := by
  have hchain := before.remembers_resolve tell htoken
  have hchain' := h.trans (after.remembers_resolve tell htoken)
  rw [converterFor_eq, converterFor_eq, answer_of_remembers h htoken,
    noConverter_of_remembers hchain, noConverter_of_remembers hchain']

/-- What a link is apart from the database types of its enumerations. -/
def fixedPart (link : Link) : Dialect × Table String String × List String :=
  (link.dialect, link.registry.composites, link.registry.documents)

theorem fixedPart_of_remembers {types : TypeToken → Prop} {before after : Chain}
    (h : before.Remembers types after) :
    after.links.map fixedPart = before.links.map fixedPart := by
  unfold Remembers at h
  generalize before.links = links at h ⊢
  generalize after.links = links' at h ⊢
  induction h with
  | nil => rfl
  | cons hl _ ih =>
    rw [List.map_cons, List.map_cons, ih]
    unfold fixedPart
    rw [hl.dialect, hl.registry.composites, hl.registry.documents]

/-- A lookup touches neither composites nor documents, and no link behind one that answers. -/
theorem resolve_frame (chain : Chain) (token : TypeToken) :
    (chain.resolve token).2.links.map fixedPart = chain.links.map fixedPart ∧
      ∀ (i j : Nat) (link : Link), i < j → chain.links[i]? = some link →
        (link.resolve token).1 ≠ .ok none →
          (chain.resolve token).2.links[j]? = chain.links[j]? := by
  have htell : NamesTell (· = token) := fun _ _ h h' _ => h.trans h'.symm
  refine ⟨fixedPart_of_remembers (chain.remembers_resolve htell rfl), ?_⟩
  intro i j link hij hi hanswers
  rw [link.resolve_answer] at hanswers
  rw [(chain.resolve_eq token).2]
  exact resolveLinks_behind token hij hi hanswers

theorem dialects_resolve (chain : Chain) (token : TypeToken) :
    (chain.resolve token).2.links.map Link.dialect = chain.links.map Link.dialect := by
  have hparts := congrArg (List.map Prod.fst) (chain.resolve_frame token).1
  rwa [List.map_map, List.map_map] at hparts

theorem dialects_perform (chain : Chain) (call : Call) :
    (chain.perform call).links.map Link.dialect = chain.links.map Link.dialect := by
  cases call with
  | resolve token => exact chain.dialects_resolve token
  | converterFor token =>
    change (chain.converterFor token).2.links.map Link.dialect = _
    rw [converterFor_chain]
    exact chain.dialects_resolve token
  | _ => rfl

theorem dialects_after (chain : Chain) (calls : List Call) :
    (chain.after calls).links.map Link.dialect = chain.links.map Link.dialect := by
  induction calls using List.reverseRecOn with
  | nil => rfl
  | append_singleton calls call ih => rw [after_concat, dialects_perform, ih]

/-- After any calls a chain of an engine answers as its registrations alone say, in the fixed order
at the first link that has an answer, and so it does for a type that needs a column. Lookups before
do not count; a registered database type is never hidden by a remembered one. A lookup changes
neither composites nor documents of any link, and nothing at all behind a link that answers. -/
theorem resolve_after (engine : Engine) (srid : Int) (calls : List Call) (token : TypeToken)
    (tell : NamesTell fun other => other = token ∨ ∃ call ∈ calls, call.token = other) :
    let chain := (engine.chain srid).after calls
    (chain.resolve token).1 = engine.answer srid calls token ∧
    (chain.converterFor token).1 = engine.converter srid calls token ∧
    (((engine.chain srid).after (calls.filter Call.isRegistration)).resolve token).1 =
      (chain.resolve token).1 ∧
    (∀ databaseType, (Registered.ofCalls calls token).enum? = some databaseType →
      chain.head.registry.enumType? token = some databaseType) ∧
    ∀ lookup ∈ [Call.resolve token, Call.converterFor token],
      (chain.perform lookup).links.map fixedPart = chain.links.map fixedPart ∧
      ∀ (i j : Nat) (link : Link), i < j → chain.links[i]? = some link →
        (link.resolve token).1 ≠ .ok none →
          (chain.perform lookup).links[j]? = chain.links[j]? := by
  intro chain
  let registered := (engine.chain srid).after (calls.filter Call.isRegistration)
  have hregistrations : ∀ call ∈ calls.filter Call.isRegistration, call.isRegistration = true :=
    fun call h => (List.mem_filter.1 h).2
  have hremembers : registered.Remembers _ chain :=
    (engine.chain srid).remembers_after tell calls fun call h => .inr ⟨call, h, rfl⟩
  have hanswer : chain.answer token = engine.answer srid calls token :=
    engine.answer_after srid calls tell (fun call h => .inr ⟨call, h, rfl⟩) (.inl rfl)
  have howed : registered.answer token = engine.answer srid calls token :=
    (answer_of_remembers hremembers (.inl rfl)).symm.trans hanswer
  refine ⟨(chain.resolve_answer token).trans hanswer, ?converter, ?lookups, ?names, ?frame⟩
  case converter =>
    have hdescribe : (chain.resolve token).2.describe =
        " -> ".intercalate ((engine.dialects srid).map Dialect.name) := by
      rw [describe_of_remembers (chain.remembers_resolve tell (.inl rfl)),
        describe_of_remembers hremembers, engine.describe_after_registrations srid _ hregistrations]
    rw [converterFor_eq, hanswer]
    unfold Engine.converter noConverter
    rw [hdescribe]
    rcases engine.answer srid calls token with e | _ | converter
    · rfl
    · cases token.kind <;> rfl
    · rfl
  case lookups =>
    rw [registered.resolve_answer, chain.resolve_answer, howed, hanswer]
  case names =>
    intro databaseType hname
    obtain ⟨-, -, hfirst⟩ := (engine.chain srid).after_registrations _ hregistrations
      (engine.head_registry srid)
    have hbefore : registered.head.registry.enumType? token = some databaseType := by
      rw [← hname, ← Registered.ofCalls_filter calls token, ← hfirst token]
      rfl
    rcases (List.forall₂_cons.1 hremembers).1.registry.enums token (.inl rfl) with h | ⟨h, -⟩
    · exact h.trans hbefore
    · cases h.symm.trans hbefore
  case frame =>
    intro lookup hlookup
    have hchain : chain.perform lookup = (chain.resolve token).2 := by
      rcases List.mem_pair.1 hlookup with rfl | rfl
      · rfl
      · exact chain.converterFor_chain token
    rw [hchain]
    exact chain.resolve_frame token

/-- An enumeration that declares its database type. -/
def mood : TypeToken := ⟨"Mood", .enumeration ["HAPPY", "GRUMPY"], some "mood"⟩

/-- An enumeration that is looked up, then registered, then looked up again, is stored in the type
that it was registered for. -/
theorem resolve_after_mood :
    let calls := [Call.resolve mood, .registerEnum mood "feeling", .converterFor mood]
    (NamesTell fun other => other = mood ∨ ∃ call ∈ calls, call.token = other) ∧
      (((Engine.postgis.chain 4326).after calls).resolve mood).1 =
        .ok (some (.enumeration "Mood" ["HAPPY", "GRUMPY"] (some "feeling"))) := by
  intro calls
  have hmood : ∀ other, (other = mood ∨ ∃ call ∈ calls, call.token = other) → other = mood := by
    rintro other (h | ⟨call, hcall, rfl⟩)
    · exact h
    · simp only [calls, List.mem_cons, List.not_mem_nil, or_false] at hcall
      rcases hcall with rfl | rfl | rfl <;> rfl
  have tell : NamesTell fun other => other = mood ∨ ∃ call ∈ calls, call.token = other :=
    fun token other h h' _ => (hmood token h).trans (hmood other h').symm
  exact ⟨tell, (resolve_after .postgis 4326 calls mood tell).1.trans (by rfl)⟩

end Chain

end ObjectRelational
