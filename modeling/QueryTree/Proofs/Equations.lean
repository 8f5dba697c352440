import QueryTree.Expression.Names
import QueryTree.Operator.Comparison
import QueryTree.Operator.Rows
import QueryTree.Value.Lemmas

/-!
# Filters, names and lookups

The functions that render lists of names and filters recurse through the lists of the tree.  Each of
them runs one program for every item, and is written here as such.  Operators that look something up
do so after a check, which makes the lookup find it.

* `nameItems_eq_each` is the equation of a list of names.
* **`condition_object`**, **`combine_list`** are those of a filter, and
  `conditionEntry_eq_combine`, `conditionEntry_of_other` say what one entry of a filter is.
* `Operator.documentRow_object` and `Operator.expressionPart_of_lookup` : a row and a comparison of
  an expression, whose lookups do not fail.
-/

namespace QueryTree

/-- A list of names is rendered item by item. -/
theorem nameItems_eq_each (ctx : Context) (operator : Option String) (items : List Value) :
    nameItems ctx operator items = Rendering.each (nameList ctx operator) items := by
  induction items with
  | nil => rw [nameItems, Rendering.each]
  | cons v rest ih => rw [nameItems, Rendering.each, ih]

namespace Filter

theorem conditionEntries_eq_each (ctx : Context) (node entries : Fields)
    (parent : Option Combinator) :
    conditionEntries ctx node entries parent =
      Rendering.each (fun entry => conditionEntry ctx node entry.1 entry.2 parent) entries := by
  induction entries with
  | nil => rw [conditionEntries, Rendering.each]
  | cons entry rest ih =>
    obtain ⟨key, value⟩ := entry
    rw [conditionEntries, Rendering.each, ih]

/-- A filter is the conjunction of its entries; one entry alone leaves the connective around it in
force. -/
theorem condition_object (ctx : Context) (fields : Fields) (parent : Option Combinator) :
    condition ctx (.object fields) parent =
      if fields.isEmpty then .refuse (.notAFilter (.object fields))
      else
        Rendering.each
            (fun entry => conditionEntry ctx fields entry.1 entry.2
              (if 1 < fields.length then some .and else parent)) fields >>=
          fun parts => group .and parts parent := by
  rw [condition, ← conditionEntries_eq_each]

theorem conditionItems_eq_each (ctx : Context) (kind : Combinator) (items : List Value) :
    conditionItems ctx kind items =
      Rendering.each (fun v => condition ctx v (some kind)) items := by
  induction items with
  | nil => rw [conditionItems, Rendering.each]
  | cons v rest ih => rw [conditionItems, Rendering.each, ih]

/-- The items of a connective are filters inside of it. -/
theorem combine_list (ctx : Context) (kind : Combinator) (items : List Value)
    (parent : Option Combinator) :
    combine ctx kind (.list items) parent =
      if items.isEmpty then .refuse (.noOperands kind.key)
      else
        Rendering.each (fun v => condition ctx v (some kind)) items >>=
          fun parts => group kind parts parent := by
  rw [combine, ← conditionItems_eq_each]

/-- An entry under a connective is the combination of its operands. -/
theorem conditionEntry_eq_combine (ctx : Context) (node : Fields) {key : String}
    (value : Value) (parent : Option Combinator)
    (hkey : ∀ label, Combinator.ofKey key ≠ .other label) :
    conditionEntry ctx node key value parent =
      combine ctx (Combinator.ofKey key) value parent := by
  rw [conditionEntry.eq_def, combine.eq_def]
  split
  · rename_i label heq
    exact absurd heq (hkey label)
  · rfl

/-- Any other entry is a filter operator or a condition on a column. -/
theorem conditionEntry_of_other {ctx : Context} {node : Fields} {key label : String}
    {value : Value} {parent : Option Combinator} (hkey : Combinator.ofKey key = .other label) :
    conditionEntry ctx node key value parent =
      if isOperatorKey key then
        if ctx.isPredicate key then (ctx.within parent).invoke key value node none
        else .refuse (.unknownOperator key ctx.dialect .notAFilter)
      else columnPredicate ctx key value parent := by
  rw [conditionEntry.eq_def, hkey]

end Filter

/-! ## Lookups that find something -/

/-- Programs that are equal for each item are equal for the list. -/
theorem Rendering.each_congr {α β : Type} {f g : α → Rendering β} {items : List α}
    (h : ∀ a ∈ items, f a = g a) : each f items = each g items := by
  induction items with
  | nil => rfl
  | cons a rest ih =>
    obtain ⟨ha, hrest⟩ := List.forall_mem_cons.1 h
    rw [each, each, ha, ih hrest]

namespace Operator

/-- The columns of a document are compared as sets. -/
theorem hasColumns_iff {columns : List String} {document : Fields} :
    hasColumns columns document = true ↔ ∀ key, key ∈ document.keys ↔ key ∈ columns := by
  simp only [hasColumns, Bool.and_eq_true, List.all_eq_true, List.contains_iff_mem]
  exact ⟨fun h key => ⟨h.1 key, h.2 key⟩, fun h => ⟨fun key => (h key).1, fun key => (h key).2⟩⟩

/-- A document that passes the check has a value in every column. -/
theorem mem_keys_of_hasColumns {columns : List String} {document : Fields}
    (h : hasColumns columns document = true) {column : String} (hcolumn : column ∈ columns) :
    column ∈ document.keys :=
  (hasColumns_iff.1 h column).2 hcolumn

/-- A key that is there is found. -/
theorem documentValue_of_mem (ctx : Context) {document : Fields} {column : String}
    (h : column ∈ document.keys) :
    documentValue ctx document column =
      valueExpression ctx "$documents" (document.valueOf column) := by
  obtain ⟨v, hv⟩ := Option.isSome_iff_exists.1 ((Fields.get?_isSome_iff document column).2 h)
  rw [documentValue, Fields.valueOf_eq, hv, Option.getD_some]

/-- No lookup of a row fails, because the columns are checked before. -/
theorem documentRow_object (ctx : Context) (columns : List String) (index : Nat)
    (document : Fields) :
    documentRow ctx columns index (.object document) =
      if hasColumns columns document then do
        let values ← Rendering.each
          (fun column => valueExpression ctx "$documents" (document.valueOf column)) columns
        return "(" ++ commaList values ++ ")"
      else .refuse (.raggedDocument index columns) := by
  rw [documentRow]
  split
  · rename_i hcolumns
    rw [Rendering.each_congr fun column hcolumn =>
      documentValue_of_mem ctx (mem_keys_of_hasColumns hcolumns hcolumn)]
  · rfl

/-- Nor does that of the word of a comparison, because only comparisons get there. -/
theorem expressionPart_of_lookup (ctx : Context) (left : String × Value) {test : String × Value}
    {word : String} (h : comparisonWords.lookup test.1 = some word) :
    expressionPart ctx left test = do
      let first ← valueExpression ctx "$expr" (.object [left])
      let second ← valueExpression ctx "$expr" test.2
      return first ++ " " ++ word ++ " " ++ second := by
  rw [expressionPart, comparisonWord, h]
  rfl

end Operator

end QueryTree
