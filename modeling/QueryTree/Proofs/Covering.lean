import QueryTree.Proofs.Dialects
import QueryTree.Proofs.Equations
import QueryTree.Proofs.Leaves
import QueryTree.Proofs.Outcome

/-!
# Operators in another dialect

An operator sees the name of its dialect and the operators that are registered there, but only to
word its refusals.  It asks which operators are statements or filter operators, but only of those
that it calls.  Moved to another dialect with the same settings, where the operators that are called
have the same roles, it renders what it rendered before.

* `Rendering.CoveredBy` relates two programs if the second one yields whatever the first one does,
  as long as only known operators are answered.  They may refuse with different words, and the
  second one may refuse less.
* `Context.moved` is the same place in another dialect, and `Context.Agrees` says that the dialects
  have the same statements and filter operators among the known ones.
* **`coveredBy_self_of_mem`** : every operator of the base dialect that no template renders is
  covered by itself in another dialect.
-/

namespace QueryTree

namespace Rendering

variable {α β : Type} {known : String → Prop}

/-- Whatever `x` yields, `y` yields too, if only `known` operators are answered. -/
def CoveredBy (known : String → Prop) (x y : Rendering α) : Prop :=
  ∀ ⦃token : Nat → String⦄ ⦃replies : ReplyRel⦄ ⦃n : Nat⦄ ⦃a : α⦄ ⦃vs : List Value⦄,
    (∀ c n t us, replies c n t us → known c.operator) →
      x.Yields token replies n a vs → y.Yields token replies n a vs

namespace CoveredBy

/-- Equal programs cover each other. -/
theorem of_eq {x y : Rendering α} (h : x = y) : x.CoveredBy known y := by
  intro token replies n a vs _ hx
  rwa [h] at hx

theorem refl (x : Rendering α) : x.CoveredBy known x :=
  .of_eq rfl

/-- A program that refuses is covered by every other one. -/
theorem refuse (fault : Fault) (y : Rendering α) : (Rendering.refuse fault).CoveredBy known y := by
  intro token replies n a vs _ h
  exact h.elim

/-- A program that goes on with a call only has to be covered if the operator is known. -/
theorem call {request : Call} {next : String → Rendering α} {y : Rendering α}
    (h : known request.operator → (Rendering.call request next).CoveredBy known y) :
    (Rendering.call request next).CoveredBy known y := by
  intro token replies n a vs hknown hx
  obtain ⟨text, us, ws, hreply, -, -⟩ := id hx
  exact h (hknown _ _ _ _ hreply) hknown hx

/-- One program after another is covered step by step. -/
theorem bind {x y : Rendering α} {f g : α → Rendering β} (hx : x.CoveredBy known y)
    (hf : ∀ a, (f a).CoveredBy known (g a)) : (x >>= f).CoveredBy known (y >>= g) := by
  intro token replies n b vs hknown h
  obtain ⟨a, us, ws, hfirst, hrest, rfl⟩ := yields_bind.1 h
  exact yields_bind.2 ⟨a, us, ws, hx hknown hfirst, hf a hknown hrest, rfl⟩

/-- A program for every item is covered if it is for each of them. -/
theorem each {f g : α → Rendering β} {items : List α}
    (h : ∀ a ∈ items, (f a).CoveredBy known (g a)) :
    (Rendering.each f items).CoveredBy known (Rendering.each g items) := by
  induction items with
  | nil => exact .refl _
  | cons a rest ih =>
    have hrest := ih fun b hb => h b (List.mem_cons_of_mem _ hb)
    exact (h a List.mem_cons_self).bind fun _ => hrest.bind fun _ => .refl _

end CoveredBy

end Rendering

open Rendering (CoveredBy)

/-! ## The same place in another dialect -/

/-- The same place in the dialect of another context, with the settings kept. -/
def Context.moved (ctx other : Context) : Context :=
  { other with quoting := ctx.quoting, maxLimit := ctx.maxLimit, combinator := ctx.combinator }

/-- Among the `known` operators, the other dialect has the same statements and filter operators. -/
structure Context.Agrees (known : String → Prop) (ctx other : Context) : Prop where
  statements : ∀ name, known name → other.isStatement name = ctx.isStatement name
  predicates : ∀ name, known name → other.isPredicate name = ctx.isPredicate name

variable {known : String → Prop} {ctx other : Context}

/-- A call does not tell in which context it was made. -/
@[simp] theorem Context.moved_invoke (operator : String) (operand : Value) (node : Fields)
    (column : Option String) :
    (ctx.moved other).invoke operator operand node column =
      ctx.invoke operator operand node column := rfl

/-! ### Names -/

@[simp] theorem aliasedName_moved (operator : Option String) :
    aliasedName (ctx.moved other) operator = aliasedName ctx operator := rfl

/-- Lists of names are the same in both contexts, since quoting is. -/
@[simp] theorem nameList_moved (operator : Option String) (v : Value) :
    nameList (ctx.moved other) operator v = nameList ctx operator v := by
  induction v using Value.induct with
  | scalar v hv =>
    cases v with
    | null | bool flag | int number | float number | str text => rfl
    | list items | object fields => cases hv
  | list items ih =>
    have hitems : Rendering.each (nameList (ctx.moved other) operator) items =
        Rendering.each (nameList ctx operator) items := by
      induction items with
      | nil => rfl
      | cons v rest ihrest =>
        rw [Rendering.each, Rendering.each, ih v List.mem_cons_self,
          ihrest fun w hw => ih w (List.mem_cons_of_mem _ hw)]
    rw [nameList, nameList, nameItems_eq_each, nameItems_eq_each, hitems]
  | object fields ih => rw [nameList, nameList, aliasedName_moved]

/-! ### Operands and columns -/

section

variable (h : ctx.Agrees known other)

include h

/-- Whether the operator of an operand is a statement is asked once it is rendered. -/
theorem valueExpression_coveredBy (operator : Option String) (v : Value) :
    (valueExpression ctx operator v).CoveredBy known
      (valueExpression (ctx.moved other) operator v) := by
  unfold valueExpression
  split
  · split
    · rename_i key operand _
      refine .call fun hknown => .of_eq ?_
      rw [show (ctx.moved other).isStatement key = ctx.isStatement key from
        h.statements key hknown]
      rfl
    · exact .refl _
  · exact .refl _
  · exact .refl _
  · exact .refl _

/-- A column of a result may hold an operator, which has to be known. -/
theorem columnEntry_coveredBy (name : String) (spec : Value) :
    (columnEntry ctx name spec).CoveredBy known (columnEntry (ctx.moved other) name spec) := by
  unfold columnEntry
  split
  · exact .refl _
  · split
    · exact .refl _
    · split
      · exact .refl _
      · split
        · dsimp only
          split
          · exact .refl _
          · exact (valueExpression_coveredBy h _ _).bind fun _ => .refl _
        · exact (valueExpression_coveredBy h _ _).bind fun _ => .refl _
      · exact .refl _

/-- The columns of an object, entry by entry. -/
theorem columnEntries_coveredBy (fields : Fields) :
    (columnEntries ctx fields).CoveredBy known (columnEntries (ctx.moved other) fields) := by
  induction fields with
  | nil => exact .refl _
  | cons entry rest ih =>
    obtain ⟨name, spec⟩ := entry
    rw [columnEntries, columnEntries]
    split
    · exact .refl _
    · exact (columnEntry_coveredBy h name spec).bind fun _ => ih.bind fun _ => .refl _

/-- A column in a list of columns, by the form that it has. -/
theorem columnItem_coveredBy (v : Value) :
    (columnItem ctx v).CoveredBy known (columnItem (ctx.moved other) v) := by
  cases v with
  | object fields => exact columnEntries_coveredBy h fields
  | null | bool flag | int number | float number | str text | list items => exact .refl _

/-- The columns of a result in any of their forms. -/
theorem projection_coveredBy (v : Value) :
    (projection ctx v).CoveredBy known (projection (ctx.moved other) v) := by
  cases v with
  | list items =>
    exact (CoveredBy.each fun v _ => columnItem_coveredBy h v).bind fun _ => .refl _
  | object fields => exact (columnEntries_coveredBy h fields).bind fun _ => .refl _
  | null | bool flag | int number | float number | str text => exact .refl _

/-! ### Filters -/

/-- A filter, and the same value as the operand of a connective. -/
theorem condition_and_combine_coveredBy (v : Value) :
    (∀ parent, (Filter.condition ctx v parent).CoveredBy known
        (Filter.condition (ctx.moved other) v parent)) ∧
      ∀ kind parent, (Filter.combine ctx kind v parent).CoveredBy known
        (Filter.combine (ctx.moved other) kind v parent) := by
  induction v using Value.induct with
  | scalar v hv =>
    cases v with
    | null | bool flag | int number | float number | str text =>
      exact ⟨fun _ => .refl _, fun _ _ => .refl _⟩
    | list items | object fields => cases hv
  | list items ih =>
    refine ⟨fun _ => .refl _, fun kind parent => ?_⟩
    rw [Filter.combine_list, Filter.combine_list]
    split
    · exact .refl _
    · exact (CoveredBy.each fun v hv => (ih v hv).1 (some kind)).bind fun _ => .refl _
  | object fields ih =>
    refine ⟨fun parent => ?_, fun _ _ => .refl _⟩
    rw [Filter.condition_object, Filter.condition_object]
    split
    · exact .refl _
    · refine (CoveredBy.each fun entry hentry => ?_).bind fun _ => .refl _
      cases hkey : Combinator.ofKey entry.1 with
      | and | or =>
        rw [Filter.conditionEntry_eq_combine _ _ _ _ (by simp [hkey]),
          Filter.conditionEntry_eq_combine _ _ _ _ (by simp [hkey])]
        exact (ih entry hentry).2 _ _
      | other label =>
        rw [Filter.conditionEntry_of_other hkey, Filter.conditionEntry_of_other hkey]
        split
        -- a filter operator that is called is one of the other dialect as well
        · split
          · rename_i hpredicate
            refine .call fun hknown => ?_
            rw [show (ctx.moved other).isPredicate entry.1 = true from
              (h.predicates entry.1 hknown).trans hpredicate]
            exact .refl _
          · exact .refuse _ _
        · exact .refl _

/-- A filter is covered at any depth: whatever operator it accepts is a known one. -/
theorem condition_coveredBy (v : Value) (parent : Option Combinator) :
    (Filter.condition ctx v parent).CoveredBy known
      (Filter.condition (ctx.moved other) v parent) :=
  (condition_and_combine_coveredBy h v).1 parent

end

/-! ### Rows and definitions -/

namespace Operator

section

variable (h : ctx.Agrees known other)

include h

/-- A row of an insertion, value by value. -/
theorem documentRow_coveredBy (columns : List String) (index : Nat) (v : Value) :
    (documentRow ctx columns index v).CoveredBy known
      (documentRow (ctx.moved other) columns index v) := by
  cases v with
  | object fields =>
    rw [documentRow_object, documentRow_object]
    split
    · exact (CoveredBy.each fun _ _ => valueExpression_coveredBy h _ _).bind fun _ => .refl _
    · exact .refl _
  | null | bool flag | int number | float number | str text | list items => exact .refl _

theorem documentRows_coveredBy (columns : List String) (index : Nat) (items : List Value) :
    (documentRows ctx columns index items).CoveredBy known
      (documentRows (ctx.moved other) columns index items) := by
  induction items generalizing index with
  | nil => exact .refl _
  | cons v rest ih =>
    exact (documentRow_coveredBy h columns index v).bind fun _ => (ih _).bind fun _ => .refl _

/-- The columns of an insertion are the same names, its rows are covered one by one. -/
theorem documentTable_coveredBy (items : List Value) :
    (documentTable ctx items).CoveredBy known (documentTable (ctx.moved other) items) := by
  unfold documentTable
  split
  · exact .refl _
  · split
    · exact (CoveredBy.refl _).bind fun _ =>
        (documentRows_coveredBy h _ _ _).bind fun _ => .refl _
    · exact .refl _

/-- Both sides of a comparison are operands, the word between them is the same. -/
theorem expressionPart_coveredBy (left test : String × Value) :
    (expressionPart ctx left test).CoveredBy known
      (expressionPart (ctx.moved other) left test) :=
  (valueExpression_coveredBy h _ _).bind fun _ =>
    (valueExpression_coveredBy h _ _).bind fun _ => .refl _

end

@[simp] theorem foreignKey_moved (operand : Value) :
    foreignKey (ctx.moved other) operand = foreignKey ctx operand := by
  unfold foreignKey
  simp only [nameList_moved]
  rfl

/-- A definition is a column or the constraints of the table; other operators are refused. -/
theorem definition_coveredBy (node : Fields) (entry : String × Value) :
    (definition ctx node entry).CoveredBy known
      (definition (ctx.moved other) node entry) := by
  unfold definition
  split
  · exact .refl _
  · split
    · exact .refuse _ _
    · exact .refl _

/-- A constraint of a known kind is made of the same names in both contexts. -/
theorem constraintBody_coveredBy (kind : String) (operand : Value) :
    (constraintBody ctx kind operand).CoveredBy known
      (constraintBody (ctx.moved other) kind operand) := by
  unfold constraintBody
  simp only [nameList_moved, foreignKey_moved]
  split
  · exact .refl _
  · split
    · exact .refl _
    · split
      · exact .refl _
      · exact .refuse _ _

theorem constraint_coveredBy (entry : String × Value) :
    (constraint ctx entry).CoveredBy known (constraint (ctx.moved other) entry) := by
  unfold constraint
  split
  · exact (constraintBody_coveredBy _ _).bind fun _ => .refl _
  · exact .refl _

end Operator

/-! ## Operators -/

/-- In every other dialect with the same settings, `h'` yields whatever `h` does. -/
def Handler.CoveredBy (known : String → Prop) (h h' : Handler) : Prop :=
  ∀ (ctx other : Context) (call : Call), ctx.Agrees known other →
    (h.render ctx call).CoveredBy known (h'.render (ctx.moved other) call)

/-- An operator that renders the same in every dialect. -/
theorem Handler.CoveredBy.of_moved {handler : Handler}
    (h : ∀ ctx other call, handler.render (ctx.moved other) call = handler.render ctx call) :
    handler.CoveredBy known handler :=
  fun ctx other call _ => .of_eq (h ctx other call).symm

namespace Operator

/-- The operators follow from what they are made of, beginning with the columns of a result. -/
theorem resultColumns_coveredBy : resultColumns.CoveredBy known resultColumns :=
  fun _ _ call h => projection_coveredBy h call.operand

theorem tables_coveredBy : tables.CoveredBy known tables :=
  Handler.CoveredBy.of_moved fun ctx other call => by simp only [tables, nameList_moved]

/-- The filter of a statement. -/
theorem filter_coveredBy : filter.CoveredBy known filter :=
  fun _ _ call h => condition_coveredBy h call.operand none

theorem grouping_coveredBy : grouping.CoveredBy known grouping :=
  Handler.CoveredBy.of_moved fun _ _ call => nameList_moved _ call.operand

/-- The new values of an update, entry by entry. -/
theorem assignments_coveredBy : assignments.CoveredBy known assignments := by
  intro ctx other call h
  simp only [assignments]
  split
  · split
    · exact .refl _
    · refine (CoveredBy.each fun entry _ => ?_).bind fun _ => .refl _
      exact (CoveredBy.refl _).bind fun _ => (valueExpression_coveredBy h _ _).bind fun _ => .refl _
  · exact .refl _

/-- The rows of an insertion, in either of the forms that they can have. -/
theorem documents_coveredBy : documents.CoveredBy known documents := by
  intro ctx other call h
  simp only [documents]
  split
  · exact documentTable_coveredBy h _
  · exact documentTable_coveredBy h _
  · exact .refl _

theorem aggregate_coveredBy (function operator : String) :
    (aggregate function operator).CoveredBy known (aggregate function operator) := by
  intro ctx other call h
  simp only [aggregate]
  split
  · exact .refl _
  · exact (valueExpression_coveredBy h _ _).bind fun _ => .refl _
  · exact .refl _

/-- A comparison is covered through its operand. -/
theorem comparison_coveredBy (operator word : String) :
    (comparison operator word).CoveredBy known (comparison operator word) := by
  intro ctx other call h
  refine (CoveredBy.refl _).bind fun _ => ?_
  split
  · exact .refl _
  · split
    · exact .refl _
    · exact (valueExpression_coveredBy h _ _).bind fun _ => .refl _

/-- Membership is covered through each of its members. -/
theorem membership_coveredBy (operator word : String) :
    (membership operator word).CoveredBy known (membership operator word) := by
  intro ctx other call h
  refine (CoveredBy.refl _).bind fun _ => ?_
  split
  · exact (valueExpression_coveredBy h _ _).bind fun _ => .refl _
  · split
    · exact .refl _
    · exact (CoveredBy.each fun _ _ => valueExpression_coveredBy h _ _).bind fun _ => .refl _
  · exact .refl _

theorem between_coveredBy : between.CoveredBy known between := by
  intro ctx other call h
  refine (CoveredBy.refl _).bind fun _ => ?_
  split
  · exact (valueExpression_coveredBy h _ _).bind fun _ =>
      (valueExpression_coveredBy h _ _).bind fun _ => .refl _
  · exact .refl _

/-- The definitions of a table. -/
theorem definitions_coveredBy : definitions.CoveredBy known definitions := by
  intro ctx other call h
  simp only [definitions]
  split
  · split
    · exact .refl _
    · exact (CoveredBy.each fun entry _ => definition_coveredBy _ entry).bind fun _ => .refl _
  · exact .refl _

theorem constraints_coveredBy : constraints.CoveredBy known constraints := by
  intro ctx other call h
  simp only [constraints]
  split
  · split
    · exact .refl _
    · exact (CoveredBy.each fun entry _ => constraint_coveredBy entry).bind fun _ => .refl _
  · exact .refl _

theorem columnDefault_coveredBy : columnDefault.CoveredBy known columnDefault :=
  fun _ _ call h => valueExpression_coveredBy h _ call.operand

/-- A negation is covered through its filter. -/
theorem negation_coveredBy : negation.CoveredBy known negation :=
  fun _ _ call h => (condition_coveredBy h call.operand none).bind fun _ => .refl _

/-- The entries are sorted in the same way in both contexts, then compared one by one. -/
theorem expressionTest_coveredBy : expressionTest.CoveredBy known expressionTest := by
  intro ctx other call h
  simp only [expressionTest]
  split
  · split
    · exact (CoveredBy.each fun test _ => expressionPart_coveredBy h _ test).bind fun _ => .refl _
    · exact .refl _
  · exact .refl _

end Operator

open Operator in
/-- Every operator of the base dialect that no template renders is covered by itself. -/
theorem coveredBy_self_of_mem : ∀ entry ∈ Ansi.operators ++
    [("$expr", expressionTest), ("$not", negation)], entry.2.CoveredBy known entry.2 := by
  simp only [Ansi.operators, List.forall_mem_append]
  refine ⟨⟨⟨⟨⟨⟨?_, ?_⟩, ?_⟩, ?_⟩, ?_⟩, ?_⟩, ?_⟩
  · simp only [List.forall_mem_cons]
    refine ⟨resultColumns_coveredBy, tables_coveredBy, tables_coveredBy, filter_coveredBy,
      filter_coveredBy, grouping_coveredBy, ?_⟩
    refine ⟨.of_moved fun _ _ _ => rfl, .of_moved fun _ _ _ => rfl,
      .of_moved fun _ _ _ => rfl, assignments_coveredBy, documents_coveredBy, by simp⟩
  · exact List.forall_mem_map.2 fun name _ => .of_moved fun _ _ _ => rfl
  · exact List.forall_mem_singleton.2 (.of_moved fun _ _ _ => rfl)
  · exact List.forall_mem_map.2 fun entry _ => aggregate_coveredBy _ _
  · exact List.forall_mem_map.2 fun entry _ => comparison_coveredBy _ _
  · simp only [List.forall_mem_cons]
    refine ⟨membership_coveredBy _ _, membership_coveredBy _ _, between_coveredBy,
      .of_moved fun _ _ _ => rfl, definitions_coveredBy, constraints_coveredBy, ?_⟩
    exact ⟨.of_moved fun _ _ _ => rfl, .of_moved fun _ _ _ => rfl,
      columnDefault_coveredBy, by simp⟩
  · simp only [List.forall_mem_cons]
    exact ⟨expressionTest_coveredBy, negation_coveredBy, by simp⟩

end QueryTree
