import ObjectRelational.Proofs.Dialect.History
import ObjectRelational.Proofs.Query.Binding
import ObjectRelational.Proofs.Text.Reading

/-! # Quoted names in rendered selections

The SQL of a selection is read from left to right by the quoting rule of its engine: a mark opens a
name, two marks in a name are one mark of it, and a single mark closes it. What is read are the
names that the clauses are built from, whatever characters they have.

* `Text.lexemes?`: a text taken apart into quoted names and the characters outside of them;
* `Sql.Legible`: pieces in which no name runs into what follows it;
* `Select.mentions`: the names that a selection is built from, in their order;
* `Select.mentions_of_render`: the rendered selection reads back as these names.
-/

namespace ObjectRelational

set_option autoImplicit false

/-! ## Reading quoted names -/

/-- A quoted name, or a character outside of all names. -/
inductive Lexeme where
  | name (s : String)
  | char (c : Char)
  deriving DecidableEq

namespace Lexeme

def name? : Lexeme → Option String
  | .name s => some s
  | .char _ => none

end Lexeme

/-- Where a text is being read: outside of names, in a name, or after a mark in a name. What has
been read of a name is kept with the last character first. -/
inductive LexerState where
  | outside
  | inside (read : List Char)
  | afterMark (read : List Char)

namespace Text

/-- What a text is made of from a state on; nothing if a name is not closed. -/
def lexemesFrom? (mark : Char) : LexerState → List Char → Option (List Lexeme)
  | .outside, [] => some []
  | .outside, c :: rest =>
      if c = mark then lexemesFrom? mark (.inside []) rest
      else (.char c :: ·) <$> lexemesFrom? mark .outside rest
  | .inside _, [] => none
  | .inside read, c :: rest =>
      if c = mark then lexemesFrom? mark (.afterMark read) rest
      else lexemesFrom? mark (.inside (c :: read)) rest
  | .afterMark read, [] => some [.name (String.ofList read.reverse)]
  | .afterMark read, c :: rest =>
      if c = mark then lexemesFrom? mark (.inside (mark :: read)) rest
      else (.name (String.ofList read.reverse) :: .char c :: ·) <$> lexemesFrom? mark .outside rest

/-- What a text is made of. -/
def lexemes? (mark : Char) (text : String) : Option (List Lexeme) :=
  lexemesFrom? mark .outside text.toList

variable {mark : Char}

theorem lexemesFrom?_plain {plain : List Char} (h : mark ∉ plain) (rest : List Char) :
    lexemesFrom? mark .outside (plain ++ rest) =
      (plain.map Lexeme.char ++ ·) <$> lexemesFrom? mark .outside rest := by
  induction plain with
  | nil => simp
  | cons c plain ih =>
    have hc : c ≠ mark := fun hc => h (hc ▸ List.mem_cons_self)
    have hplain := ih fun hmem => h (List.mem_cons_of_mem c hmem)
    rw [List.cons_append, lexemesFrom?, if_neg hc, hplain]
    simp [Function.comp_def]

/-- A name with its marks doubled is read up to the mark that closes it. -/
theorem lexemesFrom?_doubleMark (name read rest : List Char) :
    lexemesFrom? mark (.inside read) (doubleMark mark name ++ mark :: rest) =
      lexemesFrom? mark (.afterMark (name.reverse ++ read)) rest := by
  induction name generalizing read with
  | nil => simp [doubleMark, lexemesFrom?]
  | cons c name ih =>
    have hread : (c :: name).reverse ++ read = name.reverse ++ c :: read := by simp
    rw [hread, ← ih, doubleMark]
    by_cases hc : c = mark
    · simp [hc, lexemesFrom?]
    · simp [hc, lexemesFrom?]

/-- A quoted name is read as the name, unless another mark follows it. -/
theorem lexemesFrom?_quoteChars (name : String) {rest : List Char} (h : rest.head? ≠ some mark) :
    lexemesFrom? mark .outside (quoteChars mark name.toList ++ rest) =
      (.name name :: ·) <$> lexemesFrom? mark .outside rest := by
  have hopen : quoteChars mark name.toList ++ rest =
      mark :: (doubleMark mark name.toList ++ mark :: rest) := by simp [quoteChars]
  rw [hopen, lexemesFrom?, if_pos rfl, lexemesFrom?_doubleMark]
  cases rest with
  | nil => simp [lexemesFrom?]
  | cons c rest =>
    have hc : c ≠ mark := by simpa using h
    simp [lexemesFrom?, hc, Function.comp_def]

/-- Text without the mark of any engine. -/
def Plain (text : String) : Prop :=
  '"' ∉ text.toList ∧ '\x60' ∉ text.toList
  deriving Decidable

theorem Plain.append {first second : String} (h : Plain first) (h' : Plain second) :
    Plain (first ++ second) := by
  simp only [Plain, String.toList_append, List.mem_append, not_or]
  exact ⟨⟨h.1, h'.1⟩, h.2, h'.2⟩

theorem plain_numberText (n : Nat) : Plain (Condition.numberText n) := by
  have hdigits : ∀ c ∈ (Condition.numberText n).toList, c.isDigit = true := by
    intro c hc
    rw [Condition.numberText, String.toList_ofList] at hc
    exact isDigit_of_mem_digits hc
  constructor
  · intro hmark
    exact absurd (hdigits _ hmark) (by decide)
  · intro hmark
    exact absurd (hdigits _ hmark) (by decide)

end Text

/-! ## Legible pieces -/

namespace Sql

open Text (Plain)

/-- Pieces that may follow a name. -/
def Trails : Sql → Prop
  | [] => True
  | .text s :: _ => s ≠ ""
  | .name _ :: _ => False

/-- Pieces whose text has no mark and whose names are followed by text, if by anything. -/
def Legible : Sql → Prop
  | [] => True
  | .text s :: rest => Plain s ∧ Legible rest
  | .name _ :: rest => Trails rest ∧ Legible rest

def pieceLexemes : SqlPiece → List Lexeme
  | .text s => s.toList.map Lexeme.char
  | .name s => [.name s]

theorem Trails.append {first second : Sql} (h : Trails first) (h' : Trails second) :
    Trails (first ++ second) := by
  match first, h with
  | [], _ => exact h'
  | .text _ :: _, h => exact h

theorem Legible.append {first second : Sql} (h : Legible first) (h' : Legible second)
    (trails : Trails second) : Legible (first ++ second) := by
  induction first with
  | nil => exact h'
  | cons piece first ih =>
    cases piece with
    | text s => exact ⟨h.1, ih h.2⟩
    | name s => exact ⟨h.1.append trails, ih h.2⟩

theorem legible_separated {separator : String} (hplain : Plain separator) (hne : separator ≠ "")
    {sqls : List Sql} (h : ∀ sql ∈ sqls, Legible sql) : Legible (separated separator sqls) := by
  induction sqls with
  | nil => exact trivial
  | cons sql rest ih =>
    have hsql := h sql List.mem_cons_self
    cases rest with
    | nil => exact hsql
    | cons next rest =>
      have hrest := ih fun other hother => h other (List.mem_cons_of_mem sql hother)
      exact hsql.append ⟨hplain, hrest⟩ hne

theorem legible_flatMap {α : Type} {f : α → Sql} (hlegible : ∀ x, Legible (f x))
    (htrails : ∀ x, Trails (f x)) (xs : List α) :
    Legible (xs.flatMap f) ∧ Trails (xs.flatMap f) := by
  induction xs with
  | nil => exact ⟨trivial, trivial⟩
  | cons x rest ih =>
    rw [List.flatMap_cons]
    exact ⟨(hlegible x).append ih.1 ih.2, (htrails x).append ih.2⟩

/-- A text ends before pieces that may follow a name with anything but a mark. -/
theorem head?_chars_ne {mark : Char} (hmark : mark = '"' ∨ mark = '\x60') {sql : Sql}
    (hlegible : Legible sql) (htrails : Trails sql) : (sql.chars mark).head? ≠ some mark := by
  match sql, hlegible, htrails with
  | [], _, _ => simp [chars]
  | .text s :: rest, hlegible, hne =>
    have hs : s.toList ≠ [] := mt String.toList_eq_nil_iff.1 hne
    have hplain : mark ∉ s.toList := by
      rcases hmark with rfl | rfl
      · exact hlegible.1.1
      · exact hlegible.1.2
    obtain ⟨c, cs, hcs⟩ := List.exists_cons_of_ne_nil hs
    have hc : c ≠ mark := by
      rintro rfl
      exact hplain (hcs ▸ List.mem_cons_self)
    simpa [chars, pieceChars, hcs] using hc

/-- The characters of legible pieces are read as the pieces. -/
theorem lexemes?_chars {mark : Char} (hmark : mark = '"' ∨ mark = '\x60') {sql : Sql}
    (h : Legible sql) :
    Text.lexemes? mark (String.ofList (sql.chars mark)) = some (sql.flatMap pieceLexemes) ∧
      Lexeme.char mark ∉ sql.flatMap pieceLexemes := by
  rw [Text.lexemes?, String.toList_ofList]
  induction sql with
  | nil => exact ⟨rfl, List.not_mem_nil⟩
  | cons piece rest ih =>
    cases piece with
    | text s =>
      obtain ⟨hread, hmem⟩ := ih h.2
      have hplain : mark ∉ s.toList := by
        rcases hmark with rfl | rfl
        · exact h.1.1
        · exact h.1.2
      have hchars : chars mark (.text s :: rest) = s.toList ++ chars mark rest := rfl
      constructor
      · rw [hchars, Text.lexemesFrom?_plain hplain, hread]
        rfl
      · simpa [pieceLexemes, hplain] using hmem
    | name s =>
      obtain ⟨hread, hmem⟩ := ih h.2
      have hchars : chars mark (.name s :: rest) =
          Text.quoteChars mark s.toList ++ chars mark rest := rfl
      constructor
      · rw [hchars, Text.lexemesFrom?_quoteChars s (head?_chars_ne hmark h.2 h.1), hread]
        rfl
      · simpa [pieceLexemes] using hmem

theorem filterMap_name?_pieceLexemes (sql : Sql) :
    (sql.flatMap pieceLexemes).filterMap Lexeme.name? = sql.names := by
  induction sql with
  | nil => rfl
  | cons piece rest ih =>
    cases piece with
    | text s =>
      have hchars : (s.toList.map Lexeme.char).filterMap Lexeme.name? = [] := by
        simp [Lexeme.name?]
      rw [List.flatMap_cons, List.filterMap_append, ih, pieceLexemes, hchars]
      rfl
    | name s =>
      rw [List.flatMap_cons, List.filterMap_append, ih]
      rfl

/-! ## Names among pieces -/

@[simp]
theorem names_nil : names [] = [] := rfl

@[simp]
theorem names_text (s : String) (rest : Sql) : names (.text s :: rest) = names rest := rfl

@[simp]
theorem names_name (s : String) (rest : Sql) : names (.name s :: rest) = s :: names rest := rfl

@[simp]
theorem names_append (first second : Sql) :
    names (first ++ second) = names first ++ names second := by
  simp [names]

@[simp]
theorem names_separated (separator : String) (sqls : List Sql) :
    names (separated separator sqls) = sqls.flatMap names := by
  induction sqls with
  | nil => rfl
  | cons sql rest ih =>
    cases rest with
    | nil => simp [separated]
    | cons next rest =>
      have hrest : separated separator (sql :: next :: rest) =
          sql ++ .text separator :: separated separator (next :: rest) := rfl
      rw [hrest, names_append, names_text, ih]
      rfl

theorem names_flatMap {α : Type} (f : α → Sql) (xs : List α) :
    names (xs.flatMap f) = xs.flatMap fun x => names (f x) := by
  induction xs with
  | nil => rfl
  | cons x rest ih => rw [List.flatMap_cons, names_append, ih, List.flatMap_cons]

end Sql

/-! ## Conditions -/

namespace Condition

open Text (Plain plain_numberText)
open Sql (Legible legible_separated)

/-- The names of a condition: the table or alias and the column, unless the condition is membership
in an empty list. -/
def mentions (condition : Condition) (root : String) : List String :=
  match condition.test with
  | .oneOf [] => []
  | _ => [condition.alias?.getD root, condition.column]

theorem plain_parameterName (taken : Nat) : Plain (parameterName taken) :=
  Plain.append (by decide) (plain_numberText _)

theorem plain_itemName (taken index : Nat) : Plain (itemName taken index) :=
  ((plain_parameterName taken).append (by decide)).append (plain_numberText index)

theorem plain_parameter {name : String} (h : Plain name) : Plain (Converter.parameter name) :=
  Plain.append (by decide) h

theorem bindItems_untyped (taken index : Nat) (items : List Value) :
    ∃ bound, bindItems none taken index items = .ok bound ∧ ∀ entry ∈ bound, Plain entry.1 := by
  induction items generalizing index with
  | nil => exact ⟨[], rfl, by simp⟩
  | cons item rest ih =>
    obtain ⟨bound, hbound, hplain⟩ := ih (index + 1)
    refine ⟨_ :: bound, by rw [bindItems, bindValue, hbound]; rfl, ?_⟩
    rw [List.forall_mem_cons]
    exact ⟨plain_parameter (plain_itemName taken index), hplain⟩

/-- A test without a converter is legible after its column. -/
theorem testSql_untyped (table column : String) (taken : Nat) (test : ColumnTest) :
    ∃ sql parameters,
      testSql (Sql.qualified table column) none taken test = .ok (sql, parameters) ∧
      sql.Legible ∧
      sql.names = (⟨column, test, some table, none⟩ : Condition).mentions table := by
  have hcolumn : Legible (Sql.qualified table column) :=
    ⟨(by decide : "." ≠ ""), by decide, trivial, trivial⟩
  cases test with
  | isNull =>
    exact ⟨_, _, rfl, hcolumn.append ⟨by decide, trivial⟩ (by decide : " IS NULL" ≠ ""), rfl⟩
  | isNotNull =>
    exact ⟨_, _, rfl, hcolumn.append ⟨by decide, trivial⟩ (by decide : " IS NOT NULL" ≠ ""), rfl⟩
  | compare comparison value =>
    have hsign : Plain (" " ++ comparison.sql ++ " ") := by cases comparison <;> decide
    have hname := plain_parameter (plain_parameterName taken)
    exact ⟨_, _, rfl, hcolumn.append ⟨hsign, hname, trivial⟩ (by simp [Sql.Trails]), rfl⟩
  | oneOf items =>
    cases items with
    | nil => exact ⟨_, _, rfl, ⟨by decide, trivial⟩, rfl⟩
    | cons item rest =>
      obtain ⟨bound, hbound, hplain⟩ := bindItems_untyped taken 0 (item :: rest)
      let placeholders : List Sql := bound.map fun entry => [SqlPiece.text entry.1]
      have hplaceholders : ∀ sql ∈ placeholders, Legible sql := by
        intro sql hsql
        obtain ⟨entry, hentry, rfl⟩ := List.mem_map.1 hsql
        exact ⟨hplain entry hentry, trivial⟩
      have hend : Legible [.text ")"] := ⟨by decide, trivial⟩
      have hlist : Legible (.text " IN (" :: Sql.separated ", " placeholders) :=
        ⟨by decide, legible_separated (by decide) (by decide) hplaceholders⟩
      have hnone : placeholders.flatMap Sql.names = [] := by
        rw [List.flatMap_eq_nil_iff]
        intro sql hsql
        obtain ⟨entry, -, rfl⟩ := List.mem_map.1 hsql
        rfl
      have hstart : Legible (Sql.qualified table column ++ .text " IN (" ::
          Sql.separated ", " placeholders) := hcolumn.append hlist (by decide : " IN (" ≠ "")
      refine ⟨_, bound.map Prod.snd, ?_, hstart.append hend (by decide : ")" ≠ ""), ?_⟩
      · rw [testSql_oneOf _ none taken (List.cons_ne_nil item rest), hbound]
        rfl
      · rw [Sql.names_append, Sql.names_append, Sql.names_text, Sql.names_separated, hnone]
        rfl

theorem render_untyped {condition : Condition} (h : condition.type? = none) (root : String)
    (taken : Nat) (chain : Chain) :
    ∃ sql parameters,
      condition.render root taken chain = .ok (sql, parameters) chain ∧
      sql.Legible ∧ sql.names = condition.mentions root := by
  obtain ⟨sql, parameters, hsql, hlegible, hnames⟩ :=
    testSql_untyped (condition.alias?.getD root) condition.column taken condition.test
  refine ⟨sql, parameters, ?_, hlegible, hnames⟩
  unfold render
  simp only [h, pure_bind, hsql]
  rfl

theorem renderAll_untyped {conditions : List Condition}
    (h : ∀ condition ∈ conditions, condition.type? = none) (root : String) (taken : Nat)
    (chain : Chain) :
    ∃ sqls parameters,
      renderAll root taken conditions chain = .ok (sqls, parameters) chain ∧
      (∀ sql ∈ sqls, Legible sql) ∧
      sqls.flatMap Sql.names = conditions.flatMap fun condition => condition.mentions root := by
  induction conditions generalizing taken with
  | nil => exact ⟨[], [], rfl, by simp, rfl⟩
  | cons condition rest ih =>
    obtain ⟨sql, parameters, hsql, hlegible, hnames⟩ :=
      render_untyped (h condition List.mem_cons_self) root taken chain
    obtain ⟨sqls, others, hsqls, hrest, hothers⟩ :=
      ih (fun other hother => h other (List.mem_cons_of_mem condition hother))
        (taken + parameters.length)
    refine ⟨sql :: sqls, parameters ++ others, ?_, List.forall_mem_cons.2 ⟨hlegible, hrest⟩, ?_⟩
    · rw [renderAll, bind_apply, hsql]
      change (renderAll root (taken + parameters.length) rest >>= _) chain = _
      rw [bind_apply, hsqls]
      rfl
    · rw [List.flatMap_cons, List.flatMap_cons, hnames, hothers]

end Condition

/-! ## Selections -/

namespace Join

/-- The names of a joined table, and of the columns it is joined on. -/
def mentions (join : Join) (root : String) : List String :=
  [join.table, join.path, join.parent root, join.localColumn, join.path, join.remoteColumn]

theorem legible_sql (join : Join) (root : String) :
    (join.sql root).Legible ∧ (join.sql root).Trails := by
  have hkind : Text.Plain (" " ++ join.kind.sql ++ " ") := by cases join.kind <;> decide
  have hdot : Sql.Trails (.text "." :: [.name join.remoteColumn]) := (by decide : "." ≠ "")
  refine ⟨⟨hkind, (by decide : " AS " ≠ ""), by decide, (by decide : " ON " ≠ ""), by decide,
    (by decide : "." ≠ ""), by decide, (by decide : " = " ≠ ""), by decide, hdot, by decide,
    trivial, trivial⟩, ?_⟩
  simp [sql, Sql.Trails]

end Join

namespace Select

open Sql (Legible Trails legible_separated legible_flatMap)

/-- The names in the list of selected columns. -/
def selectedMentions (select : Select) : List String :=
  (if select.columns = [] then [select.table]
    else select.columns.flatMap fun column => [select.table, column, column])
    ++ select.joins.flatMap fun join =>
      join.columns.flatMap fun column => [join.path, column, join.path ++ "." ++ column]

/-- The names that a selection is built from, clause by clause. -/
def mentions (select : Select) : List String :=
  select.selectedMentions ++ [select.table]
    ++ select.joins.flatMap (fun join => join.mentions select.table)
    ++ select.conditions.flatMap (fun condition => condition.mentions select.table)
    ++ select.orderings.flatMap fun ordering => [select.table, ordering.column]

theorem legible_column (table column name : String) :
    Legible (Sql.qualified table column ++ [.text " AS ", .name name]) :=
  ⟨(by decide : "." ≠ ""), by decide, (by decide : " AS " ≠ ""), by decide, trivial, trivial⟩

/-- Every selected column is legible. -/
theorem legible_selected (select : Select) :
    ∀ sql ∈ select.rootSelected ++ select.joins.flatMap Join.selected, Legible sql := by
  intro sql hsql
  rcases List.mem_append.1 hsql with hroot | hjoined
  · unfold rootSelected at hroot
    split at hroot
    · rw [List.mem_singleton.1 hroot]
      exact ⟨(by decide : ".*" ≠ ""), by decide, trivial⟩
    · obtain ⟨column, -, rfl⟩ := List.mem_map.1 hroot
      exact legible_column _ _ _
  · obtain ⟨join, -, hcolumn⟩ := List.mem_flatMap.1 hjoined
    obtain ⟨column, -, rfl⟩ := List.mem_map.1 hcolumn
    exact legible_column _ _ _

theorem names_selected (select : Select) :
    (select.rootSelected ++ select.joins.flatMap Join.selected).flatMap Sql.names =
      select.selectedMentions := by
  have hroot : select.rootSelected.flatMap Sql.names =
      if select.columns = [] then [select.table]
        else select.columns.flatMap fun column => [select.table, column, column] := by
    unfold rootSelected
    split
    · simp [*]
    · rw [if_neg ‹_›, List.flatMap_map]
      rfl
  have hjoined : (select.joins.flatMap Join.selected).flatMap Sql.names =
      select.joins.flatMap fun join =>
        join.columns.flatMap fun column => [join.path, column, join.path ++ "." ++ column] := by
    rw [List.flatMap_assoc]
    congr 1
    funext join
    rw [Join.selected, List.flatMap_map]
    rfl
  rw [List.flatMap_append, hroot, hjoined, selectedMentions]

theorem legible_fromSql (select : Select) :
    select.fromSql.Legible ∧
      select.fromSql.names = select.selectedMentions ++ [select.table]
        ++ select.joins.flatMap fun join => join.mentions select.table := by
  obtain ⟨hjoins, htrails⟩ := legible_flatMap (fun join => (Join.legible_sql join select.table).1)
    (fun join => (Join.legible_sql join select.table).2) select.joins
  have htable : Legible [.text " FROM ", .name select.table] := ⟨by decide, trivial, trivial⟩
  have hlist : Legible (.text "SELECT " ::
      Sql.separated ", " (select.rootSelected ++ select.joins.flatMap Join.selected)) :=
    ⟨by decide, legible_separated (by decide) (by decide) select.legible_selected⟩
  constructor
  · exact (hlist.append htable (by decide : " FROM " ≠ "")).append hjoins htrails
  · unfold fromSql
    rw [Sql.names_append, Sql.names_append, Sql.names_text, Sql.names_separated, names_selected,
      Sql.names_flatMap]
    rfl

theorem legible_whereSql {conditions : List Sql} (h : ∀ sql ∈ conditions, Legible sql) :
    (whereSql conditions).Legible ∧ (whereSql conditions).Trails ∧
      (whereSql conditions).names = conditions.flatMap Sql.names := by
  unfold whereSql
  split
  · exact ⟨trivial, trivial, rfl⟩
  · refine ⟨⟨by decide, legible_separated (by decide) (by decide) h⟩,
      (by decide : " WHERE " ≠ ""), ?_⟩
    rw [Sql.names_text, Sql.names_separated]

theorem legible_orderSql (table : String) (orderings : List OrderTerm) :
    (orderSql table orderings).Legible ∧ (orderSql table orderings).Trails ∧
      (orderSql table orderings).names =
        orderings.flatMap fun ordering => [table, ordering.column] := by
  unfold orderSql
  split
  · exact ⟨trivial, trivial, rfl⟩
  · refine ⟨⟨by decide, legible_separated (by decide) (by decide) ?_⟩,
      (by decide : " ORDER BY " ≠ ""), ?_⟩
    · intro sql hsql
      obtain ⟨ordering, -, rfl⟩ := List.mem_map.1 hsql
      have hdirection : Text.Plain (" " ++ ordering.direction.sql) := by
        cases ordering.direction <;> decide
      have htrails : Trails [.text (" " ++ ordering.direction.sql)] := by simp [Trails]
      exact ⟨(by decide : "." ≠ ""), by decide, htrails, hdirection, trivial⟩
    · rw [Sql.names_text, Sql.names_separated, List.flatMap_map]
      rfl

theorem legible_countSql {keyword : String} (h : Text.Plain keyword) (count : Option Nat) :
    (countSql keyword count).Legible ∧ (countSql keyword count).Trails ∧
      (countSql keyword count).names = [] := by
  cases count with
  | none => exact ⟨trivial, trivial, rfl⟩
  | some n =>
    have hplain : Text.Plain (" " ++ keyword ++ " " ++ Condition.numberText n) :=
      (((by decide : Text.Plain " ").append h).append (by decide)).append
        (Text.plain_numberText n)
    exact ⟨⟨hplain, trivial⟩, by simp [countSql, Trails], rfl⟩

theorem legible_tailSql (select : Select) :
    select.tailSql.Legible ∧ select.tailSql.Trails ∧
      select.tailSql.names =
        select.orderings.flatMap fun ordering => [select.table, ordering.column] := by
  obtain ⟨horder, htrails, hnames⟩ := legible_orderSql select.table select.orderings
  obtain ⟨hlimit, hlimits, hnone⟩ := legible_countSql (by decide : Text.Plain "LIMIT") select.limit
  obtain ⟨hoffset, hoffsets, hnone'⟩ :=
    legible_countSql (by decide : Text.Plain "OFFSET") select.offset
  refine ⟨(horder.append hlimit hlimits).append hoffset hoffsets,
    (htrails.append hlimits).append hoffsets, ?_⟩
  unfold tailSql
  rw [Sql.names_append, Sql.names_append, hnames, hnone, hnone', List.append_nil, List.append_nil]

/-- A selection is rendered as legible pieces. -/
theorem render_untyped {select : Select}
    (untyped : ∀ condition ∈ select.conditions, condition.type? = none) (chain : Chain) :
    ∃ (sql : Sql) (parameters : List Parameter),
      select.render chain =
        .ok ⟨String.ofList (sql.chars chain.head.dialect.quoteMark), parameters⟩ chain ∧
      sql.Legible ∧ sql.names = select.mentions := by
  obtain ⟨conditions, parameters, hrender, hlegible, hnames⟩ :=
    Condition.renderAll_untyped untyped select.table 0 chain
  obtain ⟨hfrom, hfroms⟩ := select.legible_fromSql
  obtain ⟨hwhere, htrails, hwheres⟩ := legible_whereSql hlegible
  obtain ⟨htail, htrails', htails⟩ := select.legible_tailSql
  refine ⟨select.fromSql ++ whereSql conditions ++ select.tailSql, parameters, ?_,
    (hfrom.append hwhere htrails).append htail htrails', ?_⟩
  · rw [render, bind_apply, hrender]
    rfl
  · rw [Sql.names_append, Sql.names_append, hfroms, hwheres, htails, hnames, mentions]

end Select

/-! ## Engines -/

/-- The mark that an engine quotes names by. -/
def Engine.quoteMark : Engine → Char
  | .mysql => '\x60'
  | .generic | .postgres | .postgis => '"'

namespace Select

/-- On every engine, after any calls, a selection without typed conditions is rendered to SQL in
which every quoted name is closed and no mark stands outside of one, and the names read back are
those that the clauses are built from, in their order. -/
theorem mentions_of_render (engine : Engine) (srid : Int) (calls : List Chain.Call)
    (select : Select) (untyped : ∀ condition ∈ select.conditions, condition.type? = none) :
    let chain := (engine.chain srid).after calls
    ∃ statement lexemes,
      select.render chain = .ok statement chain ∧
      Text.lexemes? engine.quoteMark statement.sql = some lexemes ∧
      Lexeme.char engine.quoteMark ∉ lexemes ∧
      lexemes.filterMap Lexeme.name? = select.mentions := by
  intro chain
  obtain ⟨sql, parameters, hrender, hlegible, hnames⟩ := render_untyped untyped chain
  have hmark : chain.head.dialect.quoteMark = engine.quoteMark := by
    have hdialects := (engine.chain srid).dialects_after calls
    simp only [Chain.links, List.map_cons, List.cons.injEq] at hdialects
    rw [hdialects.1]
    cases engine <;> rfl
  have hengine : engine.quoteMark = '"' ∨ engine.quoteMark = '\x60' := by
    cases engine <;> simp [Engine.quoteMark]
  obtain ⟨hread, houtside⟩ := Sql.lexemes?_chars hengine hlegible
  refine ⟨_, _, hrender, ?_, houtside, ?_⟩
  · rw [hmark]
    exact hread
  · rw [Sql.filterMap_name?_pieceLexemes, hnames]

/-- A selection with marks, dots and keywords in its names. -/
def withMarks : Select where
  table := "a\"b"
  columns := ["\"", "SELECT"]
  joins := [⟨.left, "", "c.d\"\"", "x\x60", " y", ["z"]⟩]
  conditions := [Condition.equals "e\" = \"" (.bool true), Condition.oneOf "f" []]
  orderings := [⟨"g.h", .descending⟩]
  limit := some 3
  offset := none

theorem mentions_of_render_withMarks :
    (∀ condition ∈ withMarks.conditions, condition.type? = none) ∧
      ∃ statement lexemes,
        withMarks.render (Engine.postgres.chain 4326) =
          .ok statement (Engine.postgres.chain 4326) ∧
        Text.lexemes? '"' statement.sql = some lexemes ∧
        lexemes.filterMap Lexeme.name? =
          ["a\"b", "\"", "\"", "a\"b", "SELECT", "SELECT", "c.d\"\"", "z", "c.d\"\".z", "a\"b",
            "", "c.d\"\"", "c", "x\x60", "c.d\"\"", " y", "a\"b", "e\" = \"", "a\"b", "g.h"] := by
  have untyped : ∀ condition ∈ withMarks.conditions, condition.type? = none := by
    simp [withMarks, Condition.equals, Condition.oneOf, Condition.ofTest]
  obtain ⟨statement, lexemes, hrender, hread, -, hnames⟩ :=
    mentions_of_render .postgres 4326 [] withMarks untyped
  exact ⟨untyped, statement, lexemes, hrender, hread, hnames.trans (by decide)⟩

end Select

end ObjectRelational
