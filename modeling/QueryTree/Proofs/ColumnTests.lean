import QueryTree.Proofs.OperandPlaces

/-!
# Conditions on a column

An object of conditions on a column is rendered entry by entry, each by the operator of its key.
Operators that test a column render the column and the comparison.  Every other operator is rendered
as it is in any other place: it is not refused, and it knows nothing of the column.

* `Filter.tests?` : the entries that a condition on a column stands for.
* `Filter.IsTest` : a text that compares a column.  The comparisons with operands are such texts,
  `Dialect.Compares.isTest`.
* **`Dialect.columnPredicate_parts`** : a condition on a column is rendered exactly if each of its
  entries is, in turn; the entries that are tests compare the column, the others ignore it.
-/

namespace QueryTree

/-! ## Tests of a column -/

namespace Filter

/-- The tests for a missing value, with their words. -/
def nullWords : List (String × String) :=
  [("$eq", "IS NULL"), ("$ne", "IS NOT NULL"), ("$isNull", "IS NULL"), ("$isNull", "IS NOT NULL")]

/-- The tests that compare a column with operands, with their words. -/
def operandWords : List (String × String) :=
  comparisonWords ++
    [("$ilike", "ILIKE"), ("$in", "IN"), ("$nin", "NOT IN"), ("$between", "BETWEEN")]

/-- A text that compares what is written `left` the way that the operator does. -/
def IsTest (left operator text : String) : Prop :=
  (∃ word, (operator, word) ∈ nullWords ∧ text = left ++ " " ++ word) ∨
    ∃ word operands, (operator, word) ∈ operandWords ∧
      text = left ++ " " ++ word ++ " " ++ operands

/-- The entries that a condition on a column stands for, if it is one: the entries of an object, or
the one that a shorthand is short for. -/
def tests? : Value → Option Fields
  | .null => some [("$eq", .null)]
  | .list items => some [("$in", .list items)]
  | .object fields =>
    if !fields.isEmpty && fields.all (fun entry => isOperatorKey entry.1) then some fields else none
  | scalar => some [("$eq", scalar)]

/-- Written out as an object, the entries stand for themselves. -/
theorem tests?_object {spec : Value} {tests : Fields} (h : tests? spec = some tests) :
    tests? (.object tests) = some tests := by
  have heq : isOperatorKey "$eq" = true := by decide
  have hin : isOperatorKey "$in" = true := by decide
  cases spec with
  | null | bool flag | int number | float number | str text | list items =>
    cases h
    simp [tests?, heq, hin]
  | object fields =>
    have hfields := h
    rw [tests?] at h
    split at h
    · cases h
      exact hfields
    · cases h

end Filter

open QueryTree.Filter (IsTest nullWords operandWords)

namespace Dialect

variable {d : Dialect} {operator column : String} {combinator : Option Combinator}
  {s s' : Array Value}

/-- A text that compares with operands is a test, whatever the operands are. -/
theorem Compares.isTest {parent : Option Combinator} {left text : String} {x : Value}
    (h : d.Compares parent left operator x text) : IsTest left operator text := by
  have hright : ∀ entry ∈ rightWords, entry ∈ operandWords := by decide
  have hmember : ∀ entry ∈ Filter.membershipWords, entry ∈ operandWords := by decide
  cases h with
  | missing mem =>
    simp only [missingTests, List.mem_cons, Prod.mk.injEq, List.not_mem_nil, or_false] at mem
    rcases mem with ⟨rfl, -, rfl⟩ | ⟨rfl, -, rfl⟩ | ⟨rfl, -, rfl⟩ | ⟨rfl, -, rfl⟩
    · exact .inl ⟨"IS NULL", by decide, by simp [String.append_assoc]⟩
    · exact .inl ⟨"IS NOT NULL", by decide, by simp [String.append_assoc]⟩
    · exact .inl ⟨"IS NULL", by decide, by simp [String.append_assoc]⟩
    · exact .inl ⟨"IS NOT NULL", by decide, by simp [String.append_assoc]⟩
  | operand mem _ => exact .inr ⟨_, _, hright _ mem, rfl⟩
  | members mem _ _ _ => exact .inr ⟨_, _, hmember _ mem, rfl⟩
  | @between _ _ first last _ _ =>
    exact .inr ⟨"BETWEEN", first ++ " AND " ++ last, by decide, by simp [← String.toList_inj]⟩

/-! ## Conditions on a column -/

/-- The entries are rendered one after another, each by its operator at the column: their texts, and
the values that are bound before and after. -/
inductive InTurn (d : Dialect) (combinator : Option Combinator) (column : String) (node : Fields) :
    Fields → Array Value → List String → Array Value → Prop where
  | nil {s : Array Value} : InTurn d combinator column node [] s [] s
  | cons {key : String} {v : Value} {rest : Fields} {s s₁ s' : Array Value} {part : String}
      {parts : List String}
      (first : d.invocation combinator key v node (some column) s = (.ok part, s₁))
      (others : InTurn d combinator column node rest s₁ parts s') :
      InTurn d combinator column node ((key, v) :: rest) s (part :: parts) s'

/-- The tests of a column succeed exactly if each of them does, one after another. -/
theorem each_columnTest_eq_ok_iff (hd : d ∈ library) {node entries : Fields}
    {parts : List String} :
    ((Rendering.each (Filter.columnTest (d.context combinator) column node) entries).run
        d.placeholder d.respond).run.run s = (.ok parts, s') ↔
      entries.all (fun entry => isOperatorKey entry.1) = true ∧
        d.InTurn combinator column node entries s parts s' := by
  induction entries generalizing s parts with
  | nil =>
    rw [Rendering.each]
    constructor
    · intro hrun
      cases hrun
      exact ⟨rfl, .nil⟩
    · rintro ⟨-, h⟩
      cases h
      rfl
  | cons entry rest ih =>
    obtain ⟨key, v⟩ := entry
    simp only [Rendering.each, Rendering.run_andThen, Filter.columnTest, List.all_cons,
      Bool.and_eq_true]
    constructor
    · intro hrun
      obtain ⟨part, s₁, hpart, hrest⟩ := Rendering.bind_eq_ok_iff.1 hrun
      obtain ⟨others, s₂, hothers, hdone⟩ := Rendering.bind_eq_ok_iff.1 hrest
      cases hdone
      split at hpart
      · rename_i hkey
        rw [Context.invoke, Rendering.run_invoke] at hpart
        obtain ⟨hall, hturn⟩ := ih.1 hothers
        refine ⟨⟨hkey, hall⟩, .cons ?_ hturn⟩
        rw [invocation_eq hd]
        exact hpart
      · cases hpart
    · rintro ⟨⟨hkey, hall⟩, hturn⟩
      cases hturn with
      | @cons _ _ _ _ s₁ _ part others first hothers =>
        refine Rendering.bind_eq_ok_iff.2 ⟨part, s₁, ?_, ?_⟩
        · rw [invocation_eq hd] at first
          rw [if_pos hkey, Context.invoke, Rendering.run_invoke]
          exact first
        · exact Rendering.bind_eq_ok_iff.2 ⟨others, s', ih.2 ⟨hall, hothers⟩, rfl⟩

open QueryTree.Filter (columnPredicate tests? conjunction)

variable {parent : Option Combinator}

/-- A condition on a column is rendered as the entries that it stands for. -/
theorem same_columnPredicate_tests (hd : d ∈ library) {spec : Value} {tests : Fields}
    (h : tests? spec = some tests) :
    d.Same (columnPredicate (d.context combinator) column spec parent)
      (columnPredicate (d.context combinator) column (.object tests) parent) := by
  cases spec with
  | null =>
    cases h
    exact same_columnPredicate_null hd column
  | list items =>
    cases h
    rw [Filter.columnPredicate_singleton, Filter.columnTest_operator rfl]
    exact Same.refl _
  | bool flag | int number | float number | str text =>
    cases h
    rw [Filter.columnPredicate_singleton, Filter.columnTest_operator rfl]
    exact Same.refl _
  | object fields =>
    rw [tests?] at h
    split at h
    · cases h
      exact Same.refl _
    · cases h

/-- An object of conditions is rendered as the conjunction of its entries. -/
theorem columnPredicate_object_eq_ok_iff (hd : d ∈ library) {fields : Fields} {text : String} :
    ((columnPredicate (d.context combinator) column (.object fields) parent).run d.placeholder
        d.respond).run.run s = (.ok text, s') ↔
      tests? (.object fields) = some fields ∧ ∃ parts,
        d.InTurn combinator column fields fields s parts s' ∧ text = conjunction parent parts := by
  cases fields with
  | nil =>
    rw [columnPredicate, tests?]
    exact iff_of_false (fun h => by cases h) (fun h => by cases h.1)
  | cons entry rest =>
    rw [columnPredicate, if_neg (by simp), Rendering.run_andThen, Rendering.bind_eq_ok_iff, tests?]
    simp only [each_columnTest_eq_ok_iff hd, group_and_eq]
    constructor
    · rintro ⟨parts, s₁, ⟨hall, hturn⟩, hdone⟩
      cases hdone
      exact ⟨if_pos (by simpa using hall), parts, hturn, rfl⟩
    · rintro ⟨hall, parts, hturn, rfl⟩
      refine ⟨parts, s', ⟨?_, hturn⟩, rfl⟩
      split at hall
      · rename_i hkeys
        exact (Bool.and_eq_true_iff.1 hkeys).2
      · cases hall

/-- The calls of a condition on a column have all the room they need. -/
theorem runFor_columnPredicate (hd : d ∈ library) (spec : Value) :
    d.runFor spec (columnPredicate (d.context combinator) column spec parent) =
      (columnPredicate (d.context combinator) column spec parent).run d.placeholder d.respond := by
  refine (Filter.columnPredicate_orderly column spec parent).run_congr fun call hcall => ?_
  refine answer_eq_respond hd ?_
  have hreach := call.operand.reach_le
  have hsize : call.operand.size < spec.size + 1 := hcall
  rw [callBound]
  omega

/-- **What a condition on a column renders.**  It is rendered exactly if each of the entries that it
stands for is rendered by its operator, one after another, and its text is their texts joined by
AND.  An operator that tests a column renders the column and one of its comparisons.  Any other
operator is not refused, and renders the same at every column and at none. -/
theorem columnPredicate_parts (hd : d ∈ library) (combinator parent : Option Combinator)
    (column : String) (spec : Value) (binder : Array Value) :
    (∀ text values,
      (d.runFor spec (columnPredicate (d.context combinator) column spec parent)).run.run binder =
          (.ok text, values) ↔
        ∃ tests parts, tests? spec = some tests ∧
          d.InTurn combinator column tests tests binder parts values ∧
          text = conjunction parent parts) ∧
    (∀ operator operand node s part s',
      d.invocation combinator operator operand node (some column) s = (.ok part, s') →
        (operator ∈ testNames →
          ∃ left, d.quoting.name column = .ok left ∧ IsTest left operator part) ∧
        (operator ∉ testNames → ∀ other,
          d.invocation combinator operator operand node other s = (.ok part, s'))) := by
  refine ⟨fun text values => ?_, fun operator operand node s part s' hrun => ⟨fun htest => ?_,
    fun htest other => ?_⟩⟩
  · rw [runFor_columnPredicate hd]
    cases htests : tests? spec with
    | none =>
      refine iff_of_false (fun hrun => ?_) (by simp)
      obtain ⟨fields, rfl⟩ : ∃ fields, spec = .object fields := by
        cases spec with
        | object fields => exact ⟨fields, rfl⟩
        | null | bool flag | int number | float number | str text | list items => cases htests
      rw [columnPredicate_object_eq_ok_iff hd, htests] at hrun
      cases hrun.1
    | some tests =>
      rw [same_columnPredicate_tests hd htests, columnPredicate_object_eq_ok_iff hd]
      simp only [Filter.tests?_object htests, true_and, Option.some.injEq]
      constructor
      · rintro ⟨parts, h⟩
        exact ⟨tests, parts, rfl, h⟩
      · rintro ⟨_, parts, rfl, h⟩
        exact ⟨parts, h⟩
  · obtain ⟨left, hleft, hcompares⟩ := compares_of_invocation hd htest hrun
    exact ⟨left, hleft, hcompares.isTest⟩
  · rw [invocation_eq hd] at hrun ⊢
    rwa [columnFree_of_not_test hd htest operand node other (some column) combinator]

/-- Two entries for a column, one of which is no test. -/
def limitedSpec : Value := .object [("$gt", .int 1), ("$limit", .int 5)]

set_option maxRecDepth 4000 in
theorem runFor_limitedSpec :
    (ansi.runFor limitedSpec
        (columnPredicate (ansi.context none) "a" limitedSpec (some .or))).run.run #[] =
      (.ok "(`a` > ? AND ?)", #[.int 1, .int 5]) := by
  rw [ansi_eq]
  rfl

set_option maxRecDepth 4000 in
/-- The limit is rendered next to the comparison, at this column or another one. -/
theorem columnPredicate_parts_limitedSpec :
    ansi ∈ library ∧
      (∃ parts, ansi.InTurn none "a" [("$gt", .int 1), ("$limit", .int 5)]
          [("$gt", .int 1), ("$limit", .int 5)] #[] parts #[.int 1, .int 5] ∧
        "(`a` > ? AND ?)" = conjunction (some .or) parts) ∧
      IsTest "`a`" "$gt" "`a` > ?" ∧
      ansi.invocation none "$limit" (.int 5) [] (some "b") #[] = (.ok "?", #[.int 5]) := by
  have hd : ansi ∈ library := by simp [library]
  obtain ⟨hiff, hparts⟩ := columnPredicate_parts hd none (some .or) "a" limitedSpec #[]
  obtain ⟨tests, parts, htests, hturn, htext⟩ := (hiff _ _).1 runFor_limitedSpec
  cases htests
  have hgt : ansi.invocation none "$gt" (.int 1) [] (some "a") #[] =
      (.ok "`a` > ?", #[.int 1]) := by
    rw [ansi_eq]
    rfl
  have hlimit : ansi.invocation none "$limit" (.int 5) [] (some "a") #[] =
      (.ok "?", #[.int 5]) := by
    rw [ansi_eq]
    rfl
  obtain ⟨left, hleft, htest⟩ := (hparts _ _ _ _ _ _ hgt).1 (by decide)
  have hname : ansi.quoting.name "a" = .ok "`a`" := by
    rw [ansi_eq]
    rfl
  rw [hname] at hleft
  cases hleft
  exact ⟨hd, ⟨parts, hturn, htext⟩, htest, (hparts _ _ _ _ _ _ hlimit).2 (by decide) (some "b")⟩

end Dialect

end QueryTree
