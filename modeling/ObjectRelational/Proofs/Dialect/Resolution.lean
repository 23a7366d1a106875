import Mathlib.Data.List.Forall2
import ObjectRelational.Dialect.Chain

/-! # What a lookup answers

A lookup of a type answers by what is registered for the type and by what the type declares, in a
fixed order, at the first link that has an answer. It may leave a link remembering the declared
database type of an enumeration, which no later answer shows.

* `Dialect.answer`: the fixed order, on what is registered for the type;
* `Chain.answer`: the answer of the first link that has one;
* `Chain.Remembers`: a chain that is another one but for remembered database types;
* `Chain.resolve_answer`, `Chain.answer_of_remembers`: a lookup gives the answer, and remembering
  does not change it.
-/

namespace ObjectRelational

set_option autoImplicit false

/-! ## The fixed order -/

/-- What is registered for a type. -/
structure Registered where
  composite? : Option String
  document : Bool
  enum? : Option String
  deriving DecidableEq

def Registered.nothing : Registered := ⟨none, false, none⟩

/-- The registrations of a type. -/
def Registry.registered (registry : Registry) (token : TypeToken) : Registered :=
  ⟨registry.compositeType? token, registry.isDocument token, registry.enumType? token⟩

/-- What a lookup comes to: nothing, a converter or an error. -/
abbrev Answer : Type := Except ConfigError (Option Converter)

/-- The answer of a dialect for a type: a registered composite, a registered document, native
storage, an enumeration by its registered or else by its declared database type, a scalar. -/
def Dialect.answer (dialect : Dialect) (registered : Registered) (token : TypeToken) : Answer :=
  match dialect.answers with
  | some answer => .ok (answer token)
  | none =>
    match registered.composite? with
    | some databaseType => (dialect.composite token databaseType).map some
    | none =>
      if registered.document then .ok (some dialect.document)
      else
        match dialect.native token.kind with
        | some converter => .ok (some converter)
        | none =>
          match token.kind with
          | .enumeration literals =>
              .ok (dialect.enumeration token.shortName literals
                (registered.enum?.or token.databaseType))
          | .scalar kind => .ok (dialect.scalar kind)
          | _ => .ok none

theorem Dialect.answer_congr (dialect : Dialect) {token : TypeToken} {known other : Registered}
    (hcomposite : known.composite? = other.composite?) (hdocument : known.document = other.document)
    (henum : known.enum?.or token.databaseType = other.enum?.or token.databaseType) :
    dialect.answer known token = dialect.answer other token := by
  unfold answer
  rw [hcomposite, hdocument, henum]

/-- The first answer that is not that there is none. -/
def firstAnswer : List Answer → Answer
  | [] => .ok none
  | .ok none :: rest => firstAnswer rest
  | found :: _ => found

theorem firstAnswer_of_ne {found : Answer} (h : found ≠ .ok none) (rest : List Answer) :
    firstAnswer (found :: rest) = found := by
  unfold firstAnswer
  split
  · contradiction
  · next heq => exact absurd (List.cons.inj heq).1 h
  · next heq => exact (List.cons.inj heq).1.symm

namespace Link

/-- The answer of a link by its registrations. -/
def answer (link : Link) (token : TypeToken) : Answer :=
  link.dialect.answer (link.registry.registered token) token

theorem enumType?_rememberDeclared (link : Link) (token other : TypeToken) :
    (link.rememberDeclared token).registry.enumType? other =
      if token.name = other.name then
        (link.registry.enumType? token).or token.databaseType
      else link.registry.enumType? other := by
  unfold rememberDeclared
  cases hd : token.databaseType with
  | none =>
    by_cases hn : token.name = other.name
    · simp [Registry.enumType?, hn]
    · simp [hn]
  | some declared =>
    simp only [Registry.enumType?, Registry.rememberEnum, Table.get?_putNew]
    by_cases hn : token.name = other.name
    · simp only [hn, if_true]
      cases Table.get? link.registry.enums other.name <;> rfl
    · simp only [hn, if_false]

theorem dialect_rememberDeclared (link : Link) (token : TypeToken) :
    (link.rememberDeclared token).dialect = link.dialect := by
  unfold rememberDeclared
  split <;> rfl

/-- A link answers by its registrations, whatever it remembers while it does. -/
theorem resolve_answer (link : Link) (token : TypeToken) :
    (link.resolve token).1 = link.answer token := by
  have henum := enumType?_rememberDeclared link token token
  simp only [if_true] at henum
  unfold resolve answer Dialect.answer
  cases link.dialect.answers with
  | some answer => rfl
  | none =>
    simp only [resolveInOrder, Registry.registered]
    cases link.registry.compositeType? token with
    | some databaseType => rfl
    | none =>
      by_cases hdocument : link.registry.isDocument token = true
      · simp only [hdocument, if_true]
      · simp only [hdocument]
        cases link.dialect.native token.kind with
        | some converter => rfl
        | none =>
          simp only [resolveKind]
          cases token.kind <;> simp [henum, dialect_rememberDeclared]

/-- A lookup leaves a link as it is, or remembering what the type declares. -/
theorem resolve_link (link : Link) (token : TypeToken) :
    (link.resolve token).2 = link ∨ (link.resolve token).2 = link.rememberDeclared token := by
  unfold resolve
  split
  · exact .inl rfl
  · unfold resolveInOrder
    split
    · exact .inl rfl
    · split
      · exact .inl rfl
      · split
        · exact .inl rfl
        · change (link.resolveKind token).2 = _ ∨ (link.resolveKind token).2 = _
          unfold resolveKind
          split
          · exact .inr rfl
          all_goals exact .inl rfl

end Link

namespace Chain

/-- The answer of the first link that has one. -/
def answer (chain : Chain) (token : TypeToken) : Answer :=
  firstAnswer (chain.links.map fun link => link.answer token)

theorem resolveLinks_cons (token : TypeToken) (link : Link) (rest : List Link) :
    resolveLinks token (link :: rest) =
      if link.answer token = .ok none then
        ((resolveLinks token rest).1, (link.resolve token).2 :: (resolveLinks token rest).2)
      else (link.answer token, (link.resolve token).2 :: rest) := by
  rw [← link.resolve_answer token]
  rcases hr : link.resolve token with ⟨found, link'⟩
  simp only [resolveLinks, hr]
  rcases found with e | _ | converter <;> simp

/-- A chain is looked through as the list of its links is. -/
theorem resolve_eq (chain : Chain) (token : TypeToken) :
    (chain.resolve token).1 = (resolveLinks token chain.links).1 ∧
      (chain.resolve token).2.links = (resolveLinks token chain.links).2 := by
  rcases hr : chain.head.resolve token with ⟨found, head⟩
  rcases found with e | _ | converter <;> simp [resolve, links, resolveLinks, hr]

theorem resolveLinks_answer (token : TypeToken) (links : List Link) :
    (resolveLinks token links).1 = firstAnswer (links.map fun link => link.answer token) := by
  induction links with
  | nil => rfl
  | cons link rest ih =>
    rw [resolveLinks_cons, List.map_cons]
    by_cases h : link.answer token = .ok none
    · rw [if_pos h, h, ih]
      rfl
    · rw [if_neg h, firstAnswer_of_ne h]

theorem resolve_answer (chain : Chain) (token : TypeToken) :
    (chain.resolve token).1 = chain.answer token :=
  (chain.resolve_eq token).1.trans (resolveLinks_answer token chain.links)

/-- The links behind one that has an answer are not touched. -/
theorem resolveLinks_behind (token : TypeToken) {links : List Link} {i j : Nat} (hij : i < j)
    {link : Link} (hi : links[i]? = some link) (ha : link.answer token ≠ .ok none) :
    (resolveLinks token links).2[j]? = links[j]? := by
  induction links generalizing i j with
  | nil => cases hi
  | cons first rest ih =>
    obtain ⟨j, rfl⟩ : ∃ k, j = k + 1 := ⟨j - 1, by omega⟩
    rw [resolveLinks_cons]
    split
    · next hnone =>
      cases i with
      | zero =>
        cases hi
        contradiction
      | succ i => exact ih (by omega) hi
    · rfl

end Chain

/-! ## Remembered database types -/

/-- The name of a type says which type it is. -/
def NamesTell (types : TypeToken → Prop) : Prop :=
  ∀ token other, types token → types other → token.name = other.name → token = other

/-- One registry is another with declared database types of some enumerations, for which nothing
was registered. -/
structure Registry.Remembers (types : TypeToken → Prop) (before after : Registry) : Prop where
  composites : after.composites = before.composites
  documents : after.documents = before.documents
  enums : ∀ token, types token →
    after.enumType? token = before.enumType? token ∨
      before.enumType? token = none ∧ after.enumType? token = token.databaseType

structure Link.Remembers (types : TypeToken → Prop) (before after : Link) : Prop where
  dialect : after.dialect = before.dialect
  registry : before.registry.Remembers types after.registry

/-- The links of one chain are those of another but for what they remember. -/
def Chain.Remembers (types : TypeToken → Prop) (before after : Chain) : Prop :=
  List.Forall₂ (Link.Remembers types) before.links after.links

section Remembering

variable {types : TypeToken → Prop}

theorem Registry.Remembers.refl (registry : Registry) : registry.Remembers types registry :=
  ⟨rfl, rfl, fun _ _ => .inl rfl⟩

theorem Registry.Remembers.trans {first second third : Registry}
    (h : first.Remembers types second) (h' : second.Remembers types third) :
    first.Remembers types third where
  composites := h'.composites.trans h.composites
  documents := h'.documents.trans h.documents
  enums := by
    intro token htoken
    rcases h.enums token htoken with hkept | ⟨hnone, hdeclared⟩ <;>
      rcases h'.enums token htoken with hkept' | ⟨hnone', hdeclared'⟩
    · exact .inl (hkept'.trans hkept)
    · exact .inr ⟨hkept ▸ hnone', hdeclared'⟩
    · exact .inr ⟨hnone, hkept'.trans hdeclared⟩
    · exact .inr ⟨hnone, hdeclared'⟩

theorem Link.Remembers.refl (link : Link) : link.Remembers types link :=
  ⟨rfl, .refl _⟩

theorem Link.Remembers.trans {first second third : Link} (h : first.Remembers types second)
    (h' : second.Remembers types third) : first.Remembers types third :=
  ⟨h'.dialect.trans h.dialect, h.registry.trans h'.registry⟩

theorem Chain.Remembers.refl (chain : Chain) : chain.Remembers types chain :=
  List.forall₂_same.2 fun link _ => .refl link

theorem Chain.Remembers.trans {first second third : Chain} (h : first.Remembers types second)
    (h' : second.Remembers types third) : first.Remembers types third := by
  unfold Chain.Remembers at *
  generalize first.links = links₁ at h
  generalize second.links = links₂ at h h'
  generalize third.links = links₃ at h'
  induction h generalizing links₃ with
  | nil =>
    cases h'
    exact .nil
  | cons hl _ ih =>
    cases h' with
    | cons hl' hrest' => exact .cons (hl.trans hl') (ih _ hrest')

/-- An answer counts what is registered and what is declared, not what is remembered. -/
theorem Link.answer_of_remembers {before after : Link} (h : before.Remembers types after)
    {token : TypeToken} (htoken : types token) : after.answer token = before.answer token := by
  unfold Link.answer
  rw [h.dialect]
  apply Dialect.answer_congr
  · simp only [Registry.registered, Registry.compositeType?, h.registry.composites]
  · simp only [Registry.registered, Registry.isDocument, h.registry.documents]
  · rcases h.registry.enums token htoken with hkept | ⟨hnone, hdeclared⟩
    · simp only [Registry.registered, hkept]
    · simp only [Registry.registered, hnone, hdeclared, Option.or_self, Option.none_or]

theorem Chain.answer_of_remembers {before after : Chain} (h : before.Remembers types after)
    {token : TypeToken} (htoken : types token) : after.answer token = before.answer token := by
  unfold Chain.answer
  congr 1
  unfold Chain.Remembers at h
  generalize before.links = links at h ⊢
  generalize after.links = links' at h ⊢
  induction h with
  | nil => rfl
  | cons hl _ ih => rw [List.map_cons, List.map_cons, ih, Link.answer_of_remembers hl htoken]

theorem Chain.describe_of_remembers {before after : Chain} (h : before.Remembers types after) :
    after.describe = before.describe := by
  unfold Chain.describe
  congr 1
  unfold Chain.Remembers at h
  generalize before.links = links at h ⊢
  generalize after.links = links' at h ⊢
  induction h with
  | nil => rfl
  | cons hl _ ih => rw [List.map_cons, List.map_cons, ih, hl.dialect]

variable (tell : NamesTell types)

include tell

theorem Link.remembers_resolve (link : Link) {token : TypeToken} (htoken : types token) :
    link.Remembers types (link.resolve token).2 := by
  rcases link.resolve_link token with h | h
  · rw [h]
    exact .refl link
  · rw [h]
    refine ⟨dialect_rememberDeclared link token, ?_, ?_, ?_⟩
    · unfold rememberDeclared
      split <;> rfl
    · unfold rememberDeclared
      split <;> rfl
    · intro other hother
      rw [enumType?_rememberDeclared]
      split
      · next hname =>
        obtain rfl := tell token other htoken hother hname
        cases link.registry.enumType? token with
        | none => exact .inr ⟨rfl, rfl⟩
        | some registered => exact .inl rfl
      · exact .inl rfl

/-- A lookup changes nothing but what its links remember. -/
theorem Chain.remembers_resolve (chain : Chain) {token : TypeToken} (htoken : types token) :
    chain.Remembers types (chain.resolve token).2 := by
  unfold Chain.Remembers
  rw [(chain.resolve_eq token).2]
  generalize chain.links = links
  induction links with
  | nil => exact .nil
  | cons link rest ih =>
    rw [resolveLinks_cons]
    split
    · exact .cons (link.remembers_resolve tell htoken) ih
    · exact .cons (link.remembers_resolve tell htoken)
        (List.forall₂_same.2 fun link _ => .refl link)

end Remembering

end ObjectRelational
