import QueryTree.Proofs.AbsentKeys
import QueryTree.Proofs.ColumnUse
import QueryTree.Proofs.OperandForms

/-!
# Where operands stand

A comparison has an operand next to its word, and a row of an insertion has its operands between
commas.  Both are what they look like as long as each operand is one operand in the text.

* `Dialect.Stands` : a value and its text where an operand is expected.
* `Dialect.Compares` : a text that compares something with operands.  The tests of a column are such
  texts, **`compares_of_invocation`**, and so are those of an expression,
  **`compares_of_expression`**.
* `Dialect.IsTable` : the columns of an insertion and its rows, and **`isTable_of_insertion`**.
* **`Dialect.single_operands`** : what an operand is, which operators divide it, and what stands in
  comparisons and rows.
-/

namespace QueryTree

open Rendering (each)

theorem Value.isNull_iff {v : Value} : v.isNull = true ↔ v = .null := by
  cases v <;> simp [isNull]

/-- Each program of a list is run, after the values of those before it. -/
theorem Rendering.forall₂_of_run_each {α β : Type} {placeholder : Nat → String}
    {answer : Call → Compile String} {f : α → Rendering β} {items : List α} {bs : List β}
    {s s' : Array Value}
    (h : ((each f items).run placeholder answer).run.run s = (.ok bs, s')) :
    List.Forall₂ (fun a b => ∃ s s', ((f a).run placeholder answer).run.run s = (.ok b, s'))
      items bs := by
  induction items generalizing bs s with
  | nil =>
    cases h
    exact .nil
  | cons a rest ih =>
    simp only [each, run_andThen] at h
    obtain ⟨b, s₁, hb, h⟩ := bind_eq_ok_iff.1 h
    obtain ⟨others, s₂, hothers, hdone⟩ := bind_eq_ok_iff.1 h
    cases hdone
    exact .cons ⟨_, _, hb⟩ (ih hothers)

/-- What holds of all that a list is related to. -/
theorem forall_mem_of_forall₂ {α β : Type} {R : α → β → Prop} {P : β → Prop} {as : List α}
    {bs : List β} (h : List.Forall₂ R as bs) (hP : ∀ a ∈ as, ∀ b, R a b → P b) :
    ∀ b ∈ bs, P b := by
  induction h with
  | nil => simp
  | cons hfirst _ ih =>
    obtain ⟨hhead, htail⟩ := List.forall_mem_cons.1 hP
    exact List.forall_mem_cons.2 ⟨hhead _ hfirst, ih htail⟩

namespace Dialect

open Sql

variable {d : Dialect} {parent : Option Combinator} {binder values s s' : Array Value}
  {operator text : String} {label : Option String} {v x : Value} {node : Fields}

/-- The text stands for the value where an operand is expected.  It is one operand, unless the
value is loose. -/
structure Stands (d : Dialect) (parent : Option Combinator) (v : Value) (text : String) : Prop where
  rendered : ∃ binder values, IsOperand d parent binder v text values
  single : ¬ IsLoose v → IsSingle d.quoting.mark text

/-- A text that an operand was rendered to stands for it. -/
theorem stands_of_run (hd : d ∈ library)
    (h : ((valueExpression (d.context parent) label v).run d.placeholder d.respond).run.run s =
      (.ok text, s')) : d.Stands parent v text := by
  rw [← operand_eq hd] at h
  exact ⟨⟨s, s', (operand_eq_ok_iff hd).1 h⟩, fun hv => operand_isSingle hd hv h⟩

/-- The same of a list of operands, one by one. -/
theorem stands_of_run_each (hd : d ∈ library) {α : Type} {f : α → Value} {items : List α}
    {texts : List String}
    (h : ((each (fun a => valueExpression (d.context parent) label (f a)) items).run d.placeholder
      d.respond).run.run s = (.ok texts, s')) :
    List.Forall₂ (fun a text => d.Stands parent (f a) text) items texts :=
  (Rendering.forall₂_of_run_each h).imp fun _ _ ⟨_, _, hrun⟩ => stands_of_run hd hrun

/-- Quotes and parentheses match in the text of an operand. -/
theorem Stands.closed (hd : d ∈ library) (h : d.Stands parent v text) :
    Closed d.quoting.mark text := by
  obtain ⟨binder, values, hoperand⟩ := h.rendered
  have hrun : d.operand parent none v binder = (.ok text, values) :=
    (operand_eq_ok_iff hd).2 hoperand
  obtain ⟨S, hmark, htext⟩ := exists_scheme hd (settled_of_mem hd).placeholder
  obtain ⟨bound, -, hyields⟩ := (runFor_eq_ok_iff d v _ binder text values).1 hrun
  rw [htext] at hyields
  rw [hmark]
  have hsetting := (ready hd hmark htext parent (d.callBound v)).toSetting
  exact (valueExpression_renders hsetting none v _ _ _ hyields).closed

theorem closed_of_forall₂ (hd : d ∈ library) {α : Type} {f : α → Value} {items : List α}
    {texts : List String}
    (h : List.Forall₂ (fun a text => d.Stands parent (f a) text) items texts) :
    ∀ text ∈ texts, Closed d.quoting.mark text :=
  forall_mem_of_forall₂ h fun _ _ _ hstands => hstands.closed hd

/-! ## Comparisons -/

/-- The tests for a missing value, with what they are applied to and their words. -/
def missingTests : List (String × Value × String) :=
  [("$eq", .null, " IS NULL"), ("$ne", .null, " IS NOT NULL"), ("$isNull", .bool true, " IS NULL"),
    ("$isNull", .bool false, " IS NOT NULL")]

/-- The tests that have one operand to the right of a word. -/
def rightWords : List (String × String) :=
  comparisonWords ++ [("$ilike", "ILIKE"), ("$in", "IN"), ("$nin", "NOT IN")]

/-- The text compares what is written `left` with a value, the way that the operator does. -/
inductive Compares (d : Dialect) (parent : Option Combinator) (left : String) :
    String → Value → String → Prop where
  | missing {operator word : String} {x : Value} (mem : (operator, x, word) ∈ missingTests) :
      Compares d parent left operator x (left ++ word)
  | operand {operator word right : String} {x : Value} (mem : (operator, word) ∈ rightWords)
      (stands : d.Stands parent x right) :
      Compares d parent left operator x (left ++ " " ++ word ++ " " ++ right)
  /-- The members of a list stand in parentheses, which are one operand. -/
  | members {operator word right : String} {items : List Value} {members : List String}
      (mem : (operator, word) ∈ Filter.membershipWords)
      (stand : List.Forall₂ (d.Stands parent) items members)
      (list : right = "(" ++ commaList members ++ ")") (single : IsSingle d.quoting.mark right) :
      Compares d parent left operator (.list items) (left ++ " " ++ word ++ " " ++ right)
  | between {low high : Value} {first last : String} (lowStands : d.Stands parent low first)
      (highStands : d.Stands parent high last) :
      Compares d parent left "$between" (.list [low, high])
        (left ++ " BETWEEN " ++ first ++ " AND " ++ last)

/-- Every text of the operator compares the column that it is applied to. -/
def ComparesBy (d : Dialect) (parent : Option Combinator) (operator : String) (handler : Handler) :
    Prop :=
  ∀ (x : Value) (node : Fields) (column text : String) (s s' : Array Value),
    ((handler.render (d.context parent) ⟨operator, x, node, some column, parent⟩).run d.placeholder
      d.respond).run.run s = (.ok text, s') →
    ∃ left, d.quoting.name column = .ok left ∧ d.Compares parent left operator x text

/-- What follows the column of a test. -/
theorem run_testedColumn {column : String} {rest : String → Rendering String}
    (h : ((Operator.testedColumn (d.context parent) operator (some column) >>= rest).run
      d.placeholder d.respond).run.run s = (.ok text, s')) :
    ∃ left s₁, d.quoting.name column = .ok left ∧
      ((rest left).run d.placeholder d.respond).run.run s₁ = (.ok text, s') := by
  rw [Operator.testedColumn, Rendering.run_andThen] at h
  obtain ⟨left, s₁, hleft, hrest⟩ := Rendering.bind_eq_ok_iff.1 h
  exact ⟨left, s₁, (name_run_iff.1 hleft).1, hrest⟩

/-- A comparison writes its operand to the right, and `null` as a word. -/
theorem comparison_comparesBy (hd : d ∈ library) {word : String}
    (hmem : (operator, word) ∈ rightWords) :
    d.ComparesBy parent operator (Operator.comparison operator word) := by
  intro x node column text s s' hrun
  obtain ⟨left, s₁, hname, hrest⟩ := run_testedColumn hrun
  refine ⟨left, hname, ?_⟩
  have hmissing : ∀ {name : String}, (x.isNull && operator == name) = true →
      x = .null ∧ operator = name := fun h =>
    ⟨Value.isNull_iff.1 (Bool.and_eq_true_iff.1 h).1, eq_of_beq (Bool.and_eq_true_iff.1 h).2⟩
  split at hrest
  · rename_i hnull
    obtain ⟨rfl, rfl⟩ := hmissing hnull
    cases hrest
    exact .missing (by simp [missingTests])
  · split at hrest
    · rename_i hnull
      obtain ⟨rfl, rfl⟩ := hmissing hnull
      cases hrest
      exact .missing (by simp [missingTests])
    · obtain ⟨right, hright, rfl⟩ := Rendering.run_map_eq_ok_iff.1 hrest
      exact .operand hmem (stands_of_run hd hright)

/-- Membership writes a nested statement to the right, or its members in parentheses. -/
theorem membership_comparesBy (hd : d ∈ library) {word : String}
    (hmem : (operator, word) ∈ Filter.membershipWords) :
    d.ComparesBy parent operator (Operator.membership operator word) := by
  intro x node column text s s' hrun
  obtain ⟨left, s₁, hname, hrest⟩ := run_testedColumn hrun
  refine ⟨left, hname, ?_⟩
  cases x with
  | object fields =>
    obtain ⟨right, hright, rfl⟩ := Rendering.run_map_eq_ok_iff.1 hrest
    exact .operand (List.mem_append_right _ (List.mem_cons_of_mem _ hmem)) (stands_of_run hd hright)
  | list items =>
    dsimp only at hrest
    split at hrest
    · cases hrest
    · obtain ⟨members, hmembers, rfl⟩ := Rendering.run_map_eq_ok_iff.1 hrest
      have hstand : List.Forall₂ (d.Stands parent) items members :=
        stands_of_run_each (f := id) hd hmembers
      have htext : left ++ " " ++ word ++ " (" ++ commaList members ++ ")" =
          left ++ " " ++ word ++ " " ++ ("(" ++ commaList members ++ ")") := by
        simp [← String.toList_inj]
      rw [htext]
      have hmark := (settled_of_mem hd).mark
      exact .members hmem hstand rfl
        (.parenthesized hmark (.commaList hmark (closed_of_forall₂ hd hstand)))
  | null | bool flag | int number | float number | str text => cases hrest

/-- An interval has its two ends in a list. -/
theorem between_comparesBy (hd : d ∈ library) :
    d.ComparesBy parent "$between" Operator.between := by
  intro x node column text s s' hrun
  obtain ⟨left, s₁, hname, hrest⟩ := run_testedColumn hrun
  refine ⟨left, hname, ?_⟩
  dsimp only at hrest
  split at hrest
  · rw [Rendering.run_andThen] at hrest
    obtain ⟨first, s₂, hfirst, hrest⟩ := Rendering.bind_eq_ok_iff.1 hrest
    obtain ⟨last, hlast, rfl⟩ := Rendering.run_map_eq_ok_iff.1 hrest
    exact .between (stands_of_run hd hfirst) (stands_of_run hd hlast)
  · cases hrest

/-- A test for a missing value has no operand in its text. -/
theorem nullTest_comparesBy : d.ComparesBy parent "$isNull" Operator.nullTest := by
  intro x node column text s s' hrun
  obtain ⟨left, s₁, hname, hrest⟩ := run_testedColumn hrun
  refine ⟨left, hname, ?_⟩
  dsimp only at hrest
  split at hrest
  · cases hrest
    exact .missing (by simp [missingTests])
  · cases hrest
    exact .missing (by simp [missingTests])
  · cases hrest

/-- All tests of a column are of these shapes. -/
theorem comparesBy_of_mem_tests (hd : d ∈ library) :
    ∀ entry ∈ Operator.tests, d.ComparesBy parent entry.1 entry.2 := by
  simp only [Operator.tests, List.forall_mem_append, List.forall_mem_cons]
  exact ⟨List.forall_mem_map.2 fun entry hentry =>
      comparison_comparesBy hd (List.mem_append_left _ hentry),
    membership_comparesBy hd (by decide), membership_comparesBy hd (by decide),
    between_comparesBy hd, nullTest_comparesBy, comparison_comparesBy hd (by decide), by simp⟩

/-- **Comparisons of a column**: each operand stands for its value. -/
theorem compares_of_invocation (hd : d ∈ library) (hoperator : operator ∈ testNames)
    {column : String}
    (h : d.invocation parent operator x node (some column) binder = (.ok text, values)) :
    ∃ left, d.quoting.name column = .ok left ∧ d.Compares parent left operator x text := by
  rw [invocation_eq hd, respond_eq hd] at h
  cases hfind : d.registry.find? operator with
  | none =>
    simp only [hfind] at h
    cases h
  | some handler =>
    simp only [hfind] at h
    have huse := columnUse_of_find? hd hfind
    cases huse with
    | tests htest => exact comparesBy_of_mem_tests hd _ htest x node column text binder values h
    | ignores htest _ | template htest _ => exact absurd hoperator htest

/-- One comparison of an expression has both of its operands in the text. -/
theorem compares_of_expressionPart (hd : d ∈ library) {left test : String × Value}
    (htest : isComparison test = true)
    (h : ((Operator.expressionPart (d.context parent) left test).run d.placeholder
      d.respond).run.run s = (.ok text, s')) :
    ∃ first, d.Stands parent (.object [left]) first ∧
      d.Compares parent first test.1 test.2 text := by
  obtain ⟨word, hword⟩ := Option.isSome_iff_exists.1 htest
  obtain ⟨before, after, hwords, -⟩ := List.lookup_eq_some_iff.1 hword
  rw [Operator.expressionPart_of_lookup _ left hword, Rendering.run_andThen] at h
  obtain ⟨first, s₁, hfirst, hrest⟩ := Rendering.bind_eq_ok_iff.1 h
  obtain ⟨second, hsecond, rfl⟩ := Rendering.run_map_eq_ok_iff.1 hrest
  have hmem : (test.1, word) ∈ rightWords := List.mem_append_left _ (by simp [hwords])
  exact ⟨first, stands_of_run hd hfirst, .operand hmem (stands_of_run hd hsecond)⟩

/-- **Comparisons of an expression**: it is written again for each of them. -/
theorem compares_of_expression (hd : d ∈ library) {column : Option String}
    (h : d.invocation parent "$expr" x node column binder = (.ok text, values)) :
    ∃ fields left parts, x = .object fields ∧
      fields.filter (fun entry => !isComparison entry) = [left] ∧
      List.Forall₂ (fun test part => ∃ first, d.Stands parent (.object [left]) first ∧
        d.Compares parent first test.1 test.2 part) (fields.filter isComparison) parts ∧
      text = Filter.conjunction parent parts := by
  have hfind : d.registry.find? "$expr" = some Operator.expressionTest :=
    find?_of_ansi hd rfl rfl rfl
  rw [invocation_eq hd, respond_eq hd] at h
  simp only [hfind, Operator.expressionTest] at h
  split at h
  · rename_i fields
    split at h
    · rename_i left test tests hleft htests
      rw [Rendering.run_andThen] at h
      obtain ⟨parts, s₁, hparts, hgroup⟩ := Rendering.bind_eq_ok_iff.1 h
      rw [group_and_eq] at hgroup
      cases hgroup
      refine ⟨fields, left, parts, rfl, hleft, ?_, rfl⟩
      have htest : ∀ test ∈ fields.filter isComparison, isComparison test = true :=
        fun test hmem => (List.mem_filter.1 hmem).2
      have hturn := Rendering.forall₂_of_run_each hparts
      rw [← htests] at hturn
      refine ((List.forall₂_and_left _ _).2 ⟨htest, hturn⟩).imp fun _ _ hpart => ?_
      obtain ⟨hcomparison, _, _, hrun⟩ := hpart
      exact compares_of_expressionPart hd hcomparison hrun
    · cases h
  · cases h

/-! ## Rows of an insertion -/

/-- A row with the values of a document.  Its cells stand for the values at the columns.  It has as
many items as there are columns exactly if no cell has a comma on its surface, so always if no value
is loose. -/
inductive IsRow (d : Dialect) (parent : Option Combinator) (columns : List String)
    (document : Fields) : String → Prop where
  | intro {cells : List String}
      (stand : List.Forall₂ (fun column cell => d.Stands parent (document.valueOf column) cell)
        columns cells)
      (count : (items d.quoting.mark (commaList cells)).length = columns.length ↔
        ∀ cell ∈ cells, ',' ∉ surface d.quoting.mark cell)
      (single : (∀ column ∈ columns, ¬ IsLoose (document.valueOf column)) →
        (items d.quoting.mark (commaList cells)).length = columns.length) :
      IsRow d parent columns document ("(" ++ commaList cells ++ ")")

/-- A table of documents: the keys of the first one, quoted, and a row for each document. -/
inductive IsTable (d : Dialect) (parent : Option Combinator) : List Fields → String → Prop where
  | intro {first : Fields} {rest : List Fields} {names rows : List String}
      (quoted : List.Forall₂ (fun key name => d.quoting.name key = .ok name) first.keys names)
      (count : (items d.quoting.mark (commaList names)).length = first.keys.length)
      (stand : List.Forall₂ (d.IsRow parent first.keys) (first :: rest) rows) :
      IsTable d parent (first :: rest) ("(" ++ commaList names ++ ") VALUES " ++ commaList rows)

/-- Closed texts for the members of a list are as many items as members exactly if none has a comma
on its surface. -/
theorem length_items_eq_iff (hd : d ∈ library) {α : Type} {R : α → String → Prop} {as : List α}
    {texts : List String} (hne : as ≠ []) (h : List.Forall₂ R as texts)
    (hclosed : ∀ text ∈ texts, Closed d.quoting.mark text) :
    (items d.quoting.mark (commaList texts)).length = as.length ↔
      ∀ text ∈ texts, ',' ∉ surface d.quoting.mark text := by
  have htexts : texts ≠ [] := by
    rintro rfl
    cases h
    exact hne rfl
  rw [h.length_eq]
  exact length_items_commaList_eq_iff (settled_of_mem hd).mark htexts hclosed

/-- Cells that stand for the values of a document are a row of it. -/
theorem isRow_of_stands (hd : d ∈ library) {columns cells : List String} (hne : columns ≠ [])
    {document : Fields}
    (h : List.Forall₂ (fun column cell => d.Stands parent (document.valueOf column) cell)
      columns cells) :
    d.IsRow parent columns document ("(" ++ commaList cells ++ ")") := by
  have hcount := length_items_eq_iff hd hne h (closed_of_forall₂ hd h)
  exact .intro h hcount fun hcolumns => hcount.2 <|
    forall_mem_of_forall₂ h fun column hcolumn _ hstands =>
      (hstands.single (hcolumns column hcolumn)).comma_not_mem

/-- A row that was rendered is a row of its document. -/
theorem isRow_of_run (hd : d ∈ library) {columns : List String} (hne : columns ≠ []) {index : Nat}
    (h : ((Operator.documentRow (d.context parent) columns index v).run d.placeholder
      d.respond).run.run s = (.ok text, s')) :
    ∃ document, v = .object document ∧ d.IsRow parent columns document text := by
  cases v with
  | object document =>
    rw [Operator.documentRow_object] at h
    split at h
    · obtain ⟨cells, hcells, rfl⟩ := Rendering.run_map_eq_ok_iff.1 h
      exact ⟨document, rfl, isRow_of_stands hd hne (stands_of_run_each hd hcells)⟩
    · cases h
  | null | bool flag | int number | float number | str text | list items => cases h

theorem isRow_of_run_rows (hd : d ∈ library) {columns : List String} (hne : columns ≠ [])
    {index : Nat} {vs : List Value} {rows : List String}
    (h : ((Operator.documentRows (d.context parent) columns index vs).run d.placeholder
      d.respond).run.run s = (.ok rows, s')) :
    ∃ documents, vs = documents.map .object ∧
      List.Forall₂ (d.IsRow parent columns) documents rows := by
  induction vs generalizing index rows s with
  | nil =>
    cases h
    exact ⟨[], rfl, .nil⟩
  | cons v rest ih =>
    rw [Operator.documentRows, Rendering.run_andThen] at h
    obtain ⟨row, s₁, hrow, hrest⟩ := Rendering.bind_eq_ok_iff.1 h
    obtain ⟨others, hothers, rfl⟩ := Rendering.run_map_eq_ok_iff.1 hrest
    obtain ⟨document, rfl, hdocument⟩ := isRow_of_run hd hne hrow
    obtain ⟨documents, rfl, hdocuments⟩ := ih hothers
    exact ⟨document :: documents, rfl, .cons hdocument hdocuments⟩

/-- A quoted name is one item of a list. -/
theorem name_isSingle (hd : d ∈ library) {key name : String} (h : d.quoting.name key = .ok name) :
    IsSingle d.quoting.mark name ∧ Closed d.quoting.mark name := by
  obtain ⟨S, hmark, -⟩ := exists_scheme hd (settled_of_mem hd).placeholder
  obtain ⟨-, -, rfl⟩ := QuoteStyle.name_eq_ok_iff.1 h
  rw [hmark]
  exact ⟨isSingle_segments hmark (List.splitOn_ne_nil _ _), (Spelling.segments hmark 0 _).closed⟩

/-- A list of names has as many items as names. -/
theorem length_items_names (hd : d ∈ library) {keys names : List String} (hne : keys ≠ [])
    (h : List.Forall₂ (fun key name => d.quoting.name key = .ok name) keys names) :
    (items d.quoting.mark (commaList names)).length = keys.length := by
  have hsingle : ∀ name ∈ names, IsSingle d.quoting.mark name ∧ Closed d.quoting.mark name :=
    forall_mem_of_forall₂ h fun _ _ _ hname => name_isSingle hd hname
  exact (length_items_eq_iff hd hne h fun name hname => (hsingle name hname).2).2
    fun name hname => (hsingle name hname).1.comma_not_mem

/-- Documents that were rendered are a table. -/
theorem isTable_of_run (hd : d ∈ library) {vs : List Value}
    (h : ((Operator.documentTable (d.context parent) vs).run d.placeholder d.respond).run.run s =
      (.ok text, s')) :
    ∃ documents, vs = documents.map .object ∧ d.IsTable parent documents text := by
  unfold Operator.documentTable at h
  split at h
  · cases h
  · split at h
    · rename_i rest key value fields
      simp only [Rendering.run_andThen] at h
      obtain ⟨names, s₁, hnames, h⟩ := Rendering.bind_eq_ok_iff.1 h
      obtain ⟨rows, s₂, hrows, hdone⟩ := Rendering.bind_eq_ok_iff.1 h
      cases hdone
      obtain ⟨documents, hdocuments, hstand⟩ := isRow_of_run_rows hd (List.cons_ne_nil _ _) hrows
      obtain _ | ⟨first, others⟩ := documents
      · cases hdocuments
      · cases hdocuments
        have hquoted : List.Forall₂ (fun key name => d.quoting.name key = .ok name)
            (Fields.keys ((key, value) :: fields)) names :=
          (Rendering.forall₂_of_run_each hnames).imp fun _ _ ⟨_, _, hrun⟩ => (name_run_iff.1 hrun).1
        have hcount := length_items_names hd (List.cons_ne_nil _ _) hquoted
        exact ⟨_ :: others, rfl, .intro hquoted hcount hstand⟩
    · cases h

/-- So are those that an insertion asks for, one document or several. -/
theorem isTable_of_invocation (hd : d ∈ library) {column : Option String}
    (h : d.invocation parent "$documents" x node column binder = (.ok text, values)) :
    ∃ documents, Lists x documents ∧ d.IsTable parent documents text := by
  have hfind : d.registry.find? "$documents" = some Operator.documents :=
    find?_of_ansi hd rfl rfl rfl
  rw [invocation_eq hd, respond_eq hd] at h
  simp only [hfind, Operator.documents] at h
  split at h
  · rename_i document
    obtain ⟨documents, hdocuments, htable⟩ := isTable_of_run hd h
    obtain rfl : documents = [document] := by
      rcases documents with _ | ⟨first, _ | ⟨second, rest⟩⟩ <;> cases hdocuments
      rfl
    exact ⟨[document], .one document, htable⟩
  · obtain ⟨documents, rfl, htable⟩ := isTable_of_run hd h
    exact ⟨documents, .several documents, htable⟩
  · cases h

theorem IsTable.ne_empty {documents : List Fields} (h : d.IsTable parent documents text) :
    text ≠ "" := by
  cases h with
  | intro => simp

/-- The template of an insertion is its table and its documents. -/
theorem insert_render (ctx : Context) (body : Fields) (column : Option String) :
    Ansi.insertTemplate.render ctx body column = do
      let target ← Template.renderNode ctx "$insert" body column (.required "$table" true)
      let table ← Template.renderNode ctx "$insert" body column (.required "$documents" true)
      return "INSERT INTO" ++ fragmentTail target ++ fragmentTail table := by
  have hjoin : ∀ target table, joinFragments (⟨"INSERT", false⟩ :: ⟨"INTO", true⟩ ::
      (target ++ table)) = "INSERT INTO" ++ fragmentTail target ++ fragmentTail table := by
    simp [joinFragments, fragmentTail, Strung.fragmentTail_append, ← String.toList_inj]
  simp only [Template.render, Ansi.insertTemplate, Template.renderNodes, Template.renderNode.eq_1,
    bind_assoc, pure_bind, List.cons_append, List.nil_append, List.append_nil, hjoin]

/-- **The rows of an insertion**: an insertion ends with the table of its documents. -/
theorem isTable_of_insertion (hd : d ∈ library) {column : Option String}
    (h : d.invocation parent "$insert" x node column binder = (.ok text, values)) :
    ∃ (body : Fields) (documents : List Fields) (target table : String), x = .object body ∧
      Lists (body.valueOf "$documents") documents ∧ d.IsTable parent documents table ∧
      text = "INSERT INTO" ++ target ++ " " ++ table := by
  have hfind : d.registry.find? "$insert" = some (Ansi.insertTemplate.handler []) :=
    find?_of_ansi hd rfl rfl rfl
  cases x with
  | object body =>
    obtain ⟨-, hrun⟩ := admits_of_invocation hd hfind h
    rw [insert_render] at hrun
    simp only [Rendering.run_andThen] at hrun
    obtain ⟨target, s₁, -, hrest⟩ := Rendering.bind_eq_ok_iff.1 hrun
    obtain ⟨fragments, s₂, htable, hdone⟩ := Rendering.bind_eq_ok_iff.1 hrest
    cases hdone
    rw [Template.renderNode] at htable
    split at htable
    · cases htable
    · obtain ⟨table, hreply, rfl⟩ := Rendering.run_map_eq_ok_iff.1 htable
      rw [Context.invoke, Rendering.run_invoke, ← invocation_eq hd] at hreply
      obtain ⟨documents, hlists, htable⟩ := isTable_of_invocation hd hreply
      refine ⟨body, documents, fragmentTail target, table, rfl, hlists, htable, ?_⟩
      have hempty : table.isEmpty = false := by simpa [String.isEmpty_iff] using htable.ne_empty
      simp [Fragment.ofText, hempty, fragmentTail, String.append_assoc]
  | null | bool flag | int number | float number | str name | list items =>
    rw [invocation_eq hd, respond_eq hd, hfind] at h
    cases h

/-! ## Operands in their places -/

/-- An operator divides the text of an operand exactly if it is a loose operator of the dialect. -/
theorem divides_iff (hd : d ∈ library) :
    (∃ parent label x binder text values,
        d.operand parent label (.object [(operator, x)]) binder = (.ok text, values) ∧
          ¬ IsSingle d.quoting.mark text) ↔
      operator ∈ looseOperators ∧ (d.registry.find? operator).isSome = true := by
  constructor
  · rintro ⟨parent, label, x, binder, text, values, hrun, hdivided⟩
    obtain ⟨t, hinvocation, -⟩ := (operand_object_iff hd).1 hrun
    obtain ⟨handler, hfind⟩ := exists_handler_of_invocation hd hinvocation
    refine ⟨?_, by rw [hfind, Option.isSome_some]⟩
    by_contra hloose
    refine hdivided (operand_isSingle hd (fun h => ?_) hrun)
    cases h with
    | intro hmem => exact hloose hmem
  · rintro ⟨hmem, hfind⟩
    obtain ⟨x, text, values, hrun, hdivided⟩ := exists_divided hd hmem hfind
    exact ⟨none, none, x, #[], text, values, hrun, hdivided⟩

/-- **An operand is one operand in the text, unless its operator is loose.**  It is a placeholder, a
function call, a statement in parentheses, or what another operator renders; a loose operator of the
dialect renders more or less than one operand for some value, and no other operator does.  Every
operand of a comparison and every cell of an insertion stands for its value this way. -/
theorem single_operands (hd : d ∈ library) :
    (∀ parent label v binder text values,
      d.operand parent label v binder = (.ok text, values) ↔
        IsOperand d parent binder v text values) ∧
    (∀ parent label v binder text values,
      d.operand parent label v binder = (.ok text, values) → ¬ IsLoose v →
        IsSingle d.quoting.mark text) ∧
    (∀ operator,
      (∃ parent label x binder text values,
        d.operand parent label (.object [(operator, x)]) binder = (.ok text, values) ∧
          ¬ IsSingle d.quoting.mark text) ↔
        operator ∈ looseOperators ∧ (d.registry.find? operator).isSome = true) ∧
    (∀ parent operator x node column binder text values, operator ∈ testNames →
      d.invocation parent operator x node (some column) binder = (.ok text, values) →
        ∃ left, d.quoting.name column = .ok left ∧ d.Compares parent left operator x text) ∧
    (∀ parent x node column binder text values,
      d.invocation parent "$expr" x node column binder = (.ok text, values) →
        ∃ fields left parts, x = .object fields ∧
          fields.filter (fun entry => !isComparison entry) = [left] ∧
          List.Forall₂ (fun test part => ∃ first, d.Stands parent (.object [left]) first ∧
            d.Compares parent first test.1 test.2 part) (fields.filter isComparison) parts ∧
          text = Filter.conjunction parent parts) ∧
    (∀ parent x node column binder text values,
      d.invocation parent "$insert" x node column binder = (.ok text, values) →
        ∃ (body : Fields) (documents : List Fields) (target table : String), x = .object body ∧
          Lists (body.valueOf "$documents") documents ∧ d.IsTable parent documents table ∧
          text = "INSERT INTO" ++ target ++ " " ++ table) := by
  exact ⟨fun parent label v binder text values => operand_eq_ok_iff hd,
    fun parent label v binder text values h hv => operand_isSingle hd hv h,
    fun operator => divides_iff hd,
    fun parent operator x node column binder text values htest h =>
      compares_of_invocation hd htest h,
    fun parent x node column binder text values => compares_of_expression hd,
    fun parent x node column binder text values => isTable_of_insertion hd⟩

/-- A function of a statement with several columns. -/
def latestRow : Value :=
  .object [("$max", .object [("$select",
    .object [("$columns", .list [.str "a", .str "b"]), ("$from", .str "t")])])]

/-- One column, and two where its value is expected. -/
def looseInsertion : Value :=
  .object [("$table", .str "t"),
    ("$documents", .object [("x", .object [("$columns", .list [.str "a", .str "b"])])])]

set_option maxRecDepth 4000 in
theorem operand_latestRow :
    postgres.operand none none latestRow #[] =
      (.ok "MAX((SELECT \"a\", \"b\" FROM \"t\"))", #[]) := by
  rw [postgres_eq]
  rfl

set_option maxRecDepth 4000 in
theorem invocation_looseInsertion :
    postgres.invocation none "$insert" looseInsertion [] none #[] =
      (.ok "INSERT INTO \"t\" (\"x\") VALUES (\"a\", \"b\")", #[]) := by
  rw [postgres_eq]
  rfl

/-- A statement in a function is one operand; two columns in a row of one are not. -/
theorem single_operands_looseInsertion :
    postgres ∈ library ∧
      IsSingle '"' "MAX((SELECT \"a\", \"b\" FROM \"t\"))" ∧
      (∃ parent label x binder text values,
        postgres.operand parent label (.object [("$columns", x)]) binder = (.ok text, values) ∧
          ¬ IsSingle '"' text) ∧
      ∃ documents target table, Lists (.object [("x", .object [("$columns",
          .list [.str "a", .str "b"])])]) documents ∧
        postgres.IsTable none documents table ∧
        "INSERT INTO \"t\" (\"x\") VALUES (\"a\", \"b\")" =
          "INSERT INTO" ++ target ++ " " ++ table ∧
        (items '"' "\"a\", \"b\"").length = 2 := by
  have hd : postgres ∈ library := by simp [library]
  have hmark : postgres.quoting.mark = '"' := by rw [postgres_eq]; rfl
  have hlatest : ¬ IsLoose latestRow := by
    rintro ⟨hmem, -⟩
    revert hmem
    decide
  have hfind : (postgres.registry.find? "$columns").isSome = true := by rw [postgres_eq]; rfl
  obtain ⟨-, hsingle, hdivides, -, -, hinsertion⟩ := single_operands hd
  obtain ⟨body, documents, target, table, hbody, hlists, htable, htext⟩ :=
    hinsertion _ _ _ _ _ _ _ invocation_looseInsertion
  cases hbody
  rw [hmark] at hsingle hdivides
  exact ⟨hd, hsingle _ _ _ _ _ _ operand_latestRow hlatest,
    (hdivides "$columns").2 ⟨by decide, hfind⟩, documents, target, table, hlists, htable, htext,
    by decide⟩

end Dialect

end QueryTree
