import QueryTree.Operator.Clause
import QueryTree.Operator.Definition
import QueryTree.Operator.Rows
import QueryTree.Operator.Target
import QueryTree.Proofs.LikeExpressions

/-!
# Operators at operands that are alike

Every operator that is not a template keeps in step at operands that are alike, in contexts that are
alike.  There is one lemma for each operator, named for it; it says at which position the operator
takes its operand.

* `Handler.Like` is what is shown of an operator.
* **`expressionTest_like`** is the operator that looks at the connective around it.
-/

namespace QueryTree

open Rendering (InStep)
open Likeness (Renders RendersAll)

variable {L : Likeness} {vary : Value → Value → Prop}

/-- An operator that takes its operand at the position `p` keeps in step. -/
def Handler.Like (L : Likeness) (vary : Value → Value → Prop) (p : Position)
    (handler : Handler) : Prop :=
  ∀ (ctx ctx' : Context) (c c' : Call), ctx.Like L ctx' → Alike vary p c.operand c'.operand →
    (∀ key, (c.node.valueOf key).isNull = (c'.node.valueOf key).isNull) → c.column = c'.column →
      L.Renders vary (Combinator.Enters ctx.combinator ctx'.combinator ∧ Exposed p c.operand)
        (handler.render ctx c) (handler.render ctx' c')

/-- An operator whose operand shapes the text has the same operand twice. -/
theorem Handler.Like.of_fixed {handler : Handler}
    (h : ∀ (ctx ctx' : Context) (c c' : Call), ctx.Like L ctx' → c'.operand = c.operand →
      (∀ key, (c.node.valueOf key).isNull = (c'.node.valueOf key).isNull) → c'.column = c.column →
        L.Renders vary False (handler.render ctx c) (handler.render ctx' c')) :
    handler.Like L vary .fixed :=
  fun ctx ctx' c c' hctx hoperand hnulls hcolumn =>
    (h ctx ctx' c c' hctx hoperand.eq_of_fixed.symm hnulls hcolumn.symm).of_not
      fun hexposed => Exposed.not_fixed _ hexposed.2

/-! ## Clauses of a statement -/

/-- Flags render to nothing on both sides. -/
theorem flag_like (operator : String) : (Operator.flag operator).Like L vary .fixed := by
  refine .of_fixed fun _ _ c c' _ hoperand _ _ => ?_
  unfold Operator.flag
  dsimp only
  rw [hoperand]
  split
  · exact .text ""
  · exact .refuse

/-- A value that is bound may vary, since only its placeholder is written. -/
theorem boundValue_like : Operator.boundValue.Like L vary .literal := by
  intro ctx ctx' c c' h hoperand _ _
  unfold Operator.boundValue
  dsimp only
  split
  · rename_i hscalar
    refine Renders.of_not ?_ fun hexposed => Exposed.not_scalar hscalar hexposed.2
    rcases hoperand.scalar_inv hscalar with heq | ⟨-, hscalar', -, -, hvary⟩
    · rw [heq, if_pos hscalar]
      exact .bound (.inl rfl)
    · rw [if_pos hscalar']
      exact .bound (.inr hvary)
  · rename_i hscalar
    rw [if_neg (hoperand.isScalar_eq ▸ hscalar)]
    exact .refuse

/-- The argument of an aggregate keeps in step if what is nested in it does. -/
theorem aggregate_like (function operator : String) :
    (Operator.aggregate function operator).Like L vary .nested := by
  rintro ctx ctx' ⟨name, operand, node, column, combinator⟩
    ⟨name', operand', node', column', combinator'⟩ h hoperand - -
  dsimp only at hoperand ⊢
  cases operand with
  | str text =>
    obtain rfl := hoperand.eq_of_scalar rfl rfl
    refine Renders.of_not ?_ fun hexposed => Exposed.not_scalar rfl hexposed.2
    exact (h.name text).map fun _ _ _ ht => L.after ")" (L.before (function ++ "(") ht)
  | object fields =>
    obtain ⟨fields', rfl, -⟩ := hoperand.object_inv
    exact (valueExpression_like h rfl hoperand _).map
      fun _ _ _ ht => L.after ")" (L.before (function ++ "(") ht)
  | list items =>
    obtain ⟨items', rfl, -⟩ := hoperand.list_inv
    exact .refuse
  | null | bool flag | int number | float number =>
    obtain rfl := hoperand.eq_of_scalar rfl rfl
    exact .refuse

/-- Columns of a result may hold operators, which keep in step. -/
theorem resultColumns_like : Operator.resultColumns.Like L vary .columns :=
  fun _ _ _ _ h hoperand _ _ => projection_like h hoperand

theorem tables_like : Operator.tables.Like L vary .fixed := by
  refine .of_fixed fun _ _ c c' h hoperand hnulls _ => ?_
  unfold Operator.tables
  dsimp only
  rw [hoperand, hnulls "$from", hnulls "$table"]
  split
  · exact .refuse
  · exact nameList_like h _ _

/-- The filter of a statement keeps in step as a whole. -/
theorem filter_like : Operator.filter.Like L vary .filter :=
  fun _ _ _ _ h hoperand _ _ => condition_like h hoperand none

theorem grouping_like : Operator.grouping.Like L vary .fixed := by
  refine .of_fixed fun _ _ c c' h hoperand _ _ => ?_
  unfold Operator.grouping
  dsimp only
  rw [hoperand]
  exact nameList_like h _ _

/-- A sorting column is the same name and the same direction. -/
theorem sortEntry_like {ctx ctx' : Context} (h : ctx.Like L ctx') (entry : String × Value) :
    L.Renders vary False (Operator.sortEntry ctx entry) (Operator.sortEntry ctx' entry) := by
  refine InStep.andThen (h.name entry.1) fun k column column' hcolumn => ?_
  cases SortDirection.ofValue entry.2 with
  | error fault => exact .refuse
  | ok direction => exact .done (L.after direction.keyword (L.after " " hcolumn))

theorem sortItem_like {ctx ctx' : Context} (h : ctx.Like L ctx') (v : Value) :
    L.RendersAll vary False (Operator.sortItem ctx v) (Operator.sortItem ctx' v) := by
  cases v with
  | str text => exact (h.name text).map fun _ _ _ ht => .singleton ht
  | object fields => exact .each_same fun entry _ => sortEntry_like h entry
  | null | bool flag | int number | float number | list items => exact .refuse

/-- What is sorted by is not data, so that it stays the same. -/
theorem sorting_like : Operator.sorting.Like L vary .fixed := by
  refine .of_fixed fun ctx ctx' c c' h hoperand _ _ => ?_
  change L.Renders vary False (Operator.sortColumns ctx c.operand)
    (Operator.sortColumns ctx' c'.operand)
  rw [hoperand]
  cases c.operand with
  | str text => exact h.name text
  | object fields =>
    exact (RendersAll.each_same fun entry _ => sortEntry_like h entry).map
      fun _ _ _ ht => ht.commaList
  | list items =>
    unfold Operator.sortColumns
    dsimp only
    split
    · exact .refuse
    · refine InStep.map (RendersAll.each_flatten (E := fun _ => False)
        (List.forall₂_same.2 fun v _ => sortItem_like h v)) fun _ _ _ ht => ?_
      exact L.congr ht.commaList (by simp) rfl
  | null | bool flag | int number | float number => exact .refuse

/-- A limit shapes the text, because one of its values is written as a word. -/
theorem limit_like : Operator.limit.Like L vary .fixed := by
  refine .of_fixed fun _ _ c c' h hoperand _ _ => ?_
  unfold Operator.limit
  dsimp only
  rw [hoperand]
  split
  · exact .pure h.maxLimit
  · split
    · exact .bound (.inl rfl)
    · exact .refuse

/-- An offset looks at its statement only to see that there is a limit. -/
theorem offset_like : Operator.offset.Like L vary .fixed := by
  refine .of_fixed fun _ _ c c' h hoperand hnulls _ => ?_
  unfold Operator.offset
  dsimp only
  rw [hoperand, hnulls "$limit"]
  split
  · exact .refuse
  · split
    · exact .bound (.inl rfl)
    · exact .refuse

/-! ## Comparisons -/

section Comparisons

variable {ctx ctx' : Context}

/-- The column of a test is quoted in the same way. -/
theorem testedColumn_like (vary : Value → Value → Prop) (h : ctx.Like L ctx') (operator : String)
    (column : Option String) :
    L.Renders vary False (Operator.testedColumn ctx operator column)
      (Operator.testedColumn ctx' operator column) := by
  cases column with
  | some column => exact h.name column
  | none => exact .refuse

/-- A comparison keeps in step with its operand. -/
theorem comparison_like (operator word : String) :
    (Operator.comparison operator word).Like L vary .operand := by
  intro ctx ctx' c c' h hoperand _ hcolumn
  have hleft := testedColumn_like vary h operator c.column
  have hnull : c.operand.isNull = true → ∀ text,
      L.Renders vary (Combinator.Enters ctx.combinator ctx'.combinator ∧ Exposed .operand c.operand)
        (do let left ← Operator.testedColumn ctx operator c.column; return left ++ text)
        (do let left ← Operator.testedColumn ctx' operator c.column; return left ++ text) :=
    fun hnull text => Renders.of_not (hleft.map fun _ _ _ ht => L.after text ht)
      fun hexposed => Exposed.not_null hnull hexposed.2
  unfold Operator.comparison
  dsimp only
  rw [← hoperand.isNull_eq, ← hcolumn]
  by_cases heq : (c.operand.isNull && operator == "$eq") = true
  · simp only [heq, if_true]
    exact hnull (Bool.and_eq_true_iff.1 heq).1 _
  · by_cases hne : (c.operand.isNull && operator == "$ne") = true
    · simp only [heq, hne, if_true]
      exact hnull (Bool.and_eq_true_iff.1 hne).1 _
    · simp only [heq, hne]
      refine hleft.map₂ (valueExpression_like h rfl hoperand _) fun _ _ _ _ _ _ ha hb => ?_
      exact L.congr (L.append (L.after " " (L.after word (L.after " " ha))) hb) (by simp) rfl

/-- Members may vary one by one, their number stays. -/
theorem membership_like (operator word : String) :
    (Operator.membership operator word).Like L vary .members := by
  rintro ctx ctx' ⟨name, operand, node, column, combinator⟩
    ⟨name', operand', node', column', combinator'⟩ h hoperand - hcolumn
  dsimp only at hoperand hcolumn ⊢
  subst hcolumn
  have hleft := testedColumn_like vary h operator column
  unfold Operator.membership
  dsimp only
  cases operand with
  | object fields =>
    obtain ⟨fields', rfl, -⟩ := hoperand.object_inv
    refine hleft.map₂ (valueExpression_like h rfl hoperand _) fun _ _ _ _ _ _ ha hb => ?_
    exact L.congr (L.append (L.after " " (L.after word (L.after " " ha))) hb) (by simp) rfl
  | list items =>
    obtain ⟨items', rfl, hitems⟩ := hoperand.list_inv
    dsimp only
    rw [hitems.isEmpty_eq]
    by_cases hempty : items'.isEmpty = true
    · simp only [hempty, if_true]
      exact hleft.andRefuse
    · simp only [hempty]
      have hmembers := RendersAll.each (hitems.forall₂.imp fun _ _ hv =>
        valueExpression_like h (p := .operand) rfl hv (some operator))
      refine hleft.map₂ hmembers fun _ _ _ _ _ _ ha hb => ?_
      refine L.congr (L.after ")" (L.append (L.after " (" (L.after word (L.after " " ha)))
        hb.commaList)) ?_ rfl
      rw [false_or, ← Likeness.and_exists_mem, Exposed.list_iff]
      rfl
  | null | bool flag | int number | float number | str text =>
    obtain rfl := hoperand.eq_of_scalar rfl rfl
    exact hleft.andRefuse

/-- Each end may vary by itself. -/
theorem between_like : Operator.between.Like L vary .members := by
  rintro ctx ctx' ⟨name, operand, node, column, combinator⟩
    ⟨name', operand', node', column', combinator'⟩ h hoperand - hcolumn
  dsimp only at hoperand hcolumn ⊢
  subst hcolumn
  have hleft := testedColumn_like vary h "$between" column
  unfold Operator.between
  dsimp only
  cases operand with
  | list items =>
    obtain ⟨items', rfl, hitems⟩ := hoperand.list_inv
    rcases hitems with _ | ⟨hlow, _ | ⟨hhigh, _ | ⟨_, _⟩⟩⟩
    · exact hleft.andRefuse
    · exact hleft.andRefuse
    · refine hleft.map₃ (valueExpression_like h (p := .operand) rfl hlow _)
        (valueExpression_like h (p := .operand) rfl hhigh _) fun _ _ _ _ _ _ _ _ _ ha hb hc => ?_
      refine L.congr (L.join " AND " (L.join " BETWEEN " ha hb) hc) ?_ rfl
      rw [false_or, ← and_or_left, Exposed.list_iff]
      simp [Position.item]
    · exact hleft.andRefuse
  | object fields =>
    obtain ⟨fields', rfl, -⟩ := hoperand.object_inv
    exact hleft.andRefuse
  | null | bool flag | int number | float number | str text =>
    obtain rfl := hoperand.eq_of_scalar rfl rfl
    exact hleft.andRefuse

/-- A test for a missing value depends on the switch, which stays the same. -/
theorem nullTest_like : Operator.nullTest.Like L vary .fixed := by
  refine .of_fixed fun _ _ c c' h hoperand _ hcolumn => ?_
  have hleft := testedColumn_like vary h "$isNull" c.column
  unfold Operator.nullTest
  dsimp only
  rw [hoperand, hcolumn]
  cases c.operand with
  | bool flag =>
    cases flag with
    | true => exact hleft.map fun _ _ _ ht => L.after _ ht
    | false => exact hleft.map fun _ _ _ ht => L.after _ ht
  | null | int number | float number | str text | list items | object fields =>
    exact hleft.andRefuse

/-- A negation puts its filter in parentheses of its own. -/
theorem negation_like : Operator.negation.Like L vary .filter :=
  fun _ _ _ _ h hoperand _ _ => (condition_like h hoperand none).map
    fun _ _ _ ht => L.after ")" (L.before "NOT (" ht)

/-- A conjunction in a connective where it stands in parentheses, or not. -/
theorem group_and (parts : List String) (parent : Option Combinator) :
    Filter.group .and parts parent =
      if 1 < parts.length ∧ Combinator.encloses parent = true then
        pure ("(" ++ " AND ".intercalate parts ++ ")")
      else pure (" AND ".intercalate parts) := by
  unfold Filter.group Combinator.encloses
  simp only [Combinator.joiner?, Bool.and_eq_true, decide_eq_true_eq, and_assoc]

/-- Several texts joined by AND are not empty, even if each of them is. -/
theorem isEmpty_intercalate {parts : List String} (h : 1 < parts.length) :
    (" AND ".intercalate parts).isEmpty = false := by
  match parts, h with
  | first :: second :: rest, _ =>
    rw [String.intercalate_cons_cons]
    simp [String.isEmpty_eq_false_iff]

/-- Several texts joined by AND, inside connectives that may differ. -/
theorem conjunction_like {e : Prop} {m : Nat} {parts parts' : List String}
    {parent parent' : Option Combinator}
    (hparent : Combinator.encloses parent = true → Combinator.encloses parent' = true)
    (h : L.Texts e m parts parts') :
    InStep (L.pairing vary) (L.rel (e ∨ Combinator.Enters parent parent' ∧ 1 < parts.length)) m
      (Filter.group .and parts parent) (Filter.group .and parts' parent') := by
  have htext := h.intercalate " AND "
  rw [group_and, group_and, ← h.length_eq]
  by_cases hlength : 1 < parts.length
  · cases hparent₀ : Combinator.encloses parent with
    | true =>
      simp only [hlength, hparent hparent₀, and_self, if_true]
      refine .pure (L.congr (L.after ")" (L.before "(" htext)) ?_ rfl)
      simp [Combinator.Enters, hparent₀]
    | false =>
      cases hparent₁ : Combinator.encloses parent' with
      | true =>
        simp only [hlength, Bool.false_eq_true, and_false, and_self, if_true, if_false]
        refine .pure (L.congr (L.enclose htext (isEmpty_intercalate hlength)) ?_ rfl)
        simp [Combinator.Enters, hparent₀, hparent₁]
      | false =>
        simp only [Bool.false_eq_true, and_false, if_false]
        refine .pure (L.congr htext ?_ rfl)
        simp [Combinator.Enters, hparent₁]
  · simp only [hlength, false_and, if_false]
    exact .pure (L.congr htext (by simp) rfl)

/-- One comparison of an expression. -/
theorem expressionPart_like (h : ctx.Like L ctx') {key : String} {left left' : Value}
    (hleft : Alike vary (.ofOperator key) left left') {test test' : String × Value}
    (hword : isComparison test = true) (hkey : test.1 = test'.1)
    (htest : Alike vary .operand test.2 test'.2) :
    L.Renders vary
      (Combinator.Enters ctx.combinator ctx'.combinator ∧
        (Exposed (.ofOperator key) left ∨ Exposed .operand test.2))
      (Operator.expressionPart ctx (key, left) test)
      (Operator.expressionPart ctx' (key, left') test') := by
  have hobject : Alike vary .nested (.object [(key, left)]) (.object [(key, left')]) :=
    .object (by decide) (.cons hleft .nil)
  obtain ⟨word, hword⟩ := Option.isSome_iff_exists.1 hword
  rw [Operator.expressionPart_of_lookup ctx _ hword,
    Operator.expressionPart_of_lookup ctx' _ (hkey ▸ hword)]
  refine InStep.map₂ (valueExpression_like h rfl hobject _) (valueExpression_like h rfl htest _)
    fun _ _ _ _ _ _ ha hb => ?_
  refine L.congr (L.append (L.after " " (L.after _ (L.after " " ha))) hb) ?_ rfl
  rw [Exposed.single_iff rfl, and_or_left]

/-- The comparisons of an expression. -/
theorem expressionParts_like (h : ctx.Like L ctx') {key : String} {left left' : Value}
    (hleft : Alike vary (.ofOperator key) left left') {tests tests' : Fields}
    (htests : EntriesAlike vary .comparisons tests tests') (hne : tests ≠ [])
    (hwords : ∀ test ∈ tests, isComparison test = true) :
    L.Renders vary
      (Combinator.Enters ctx.combinator ctx'.combinator ∧ (1 < tests.length ∨
        ∃ entry ∈ (key, left) :: tests, Exposed (.ofOperator entry.1) entry.2))
      (do
        let parts ← Rendering.each (Operator.expressionPart ctx (key, left)) tests
        Filter.group .and parts ctx.combinator)
      (do
        let parts ← Rendering.each (Operator.expressionPart ctx' (key, left')) tests'
        Filter.group .and parts ctx'.combinator) := by
  have hparts := RendersAll.each_length (((List.forall₂_and_left _ _).2
    ⟨hwords, htests.forall₂⟩).imp fun test test' ⟨hword, hkey, htest⟩ =>
      expressionPart_like h hleft hword hkey (Position.ofOperator_of_comparison hword ▸ htest))
  refine hparts.andThen fun k parts parts' ⟨htexts, hlength⟩ => ?_
  refine (conjunction_like h.encloses htexts).mono fun _ _ _ ht => L.congr ht ?_ rfl
  rw [hlength, ← Likeness.and_exists_mem, ← and_or_left]
  refine and_congr_right fun _ => ?_
  constructor
  · rintro (⟨test, htest, hexposed | hexposed⟩ | hseveral)
    · exact .inr ⟨_, List.mem_cons_self, hexposed⟩
    · refine .inr ⟨test, List.mem_cons_of_mem _ htest, ?_⟩
      rwa [Position.ofOperator_of_comparison (hwords test htest)]
    · exact .inl hseveral
  · rintro (hseveral | ⟨entry, hentry, hexposed⟩)
    · exact .inr hseveral
    · rcases List.mem_cons.1 hentry with rfl | htest
      · obtain ⟨test, htest⟩ := List.exists_mem_of_ne_nil tests hne
        exact .inl ⟨test, htest, .inl hexposed⟩
      · rw [Position.ofOperator_of_comparison (hwords entry htest)] at hexposed
        exact .inl ⟨entry, htest, .inr hexposed⟩

/-- An expression is what is left of its entries without the comparisons. -/
theorem expressionTest_object (ctx : Context) (name : String) (fields node : Fields)
    (column : Option String) (combinator : Option Combinator) :
    Operator.expressionTest.render ctx ⟨name, .object fields, node, column, combinator⟩ =
      match fields.filter (fun entry => !isComparison entry), fields.filter isComparison with
      | [left], test :: tests => do
        let parts ← Rendering.each (Operator.expressionPart ctx left) (test :: tests)
        Filter.group .and parts ctx.combinator
      | _, _ => .refuse (.badExpression (Fields.keys fields)) := rfl

/-- Which entries are comparisons is settled by their keys, which stay the same.  Several of them
are what a connective around them encloses. -/
theorem expressionTest_like : Operator.expressionTest.Like L vary .comparisons := by
  rintro ctx ctx' ⟨name, operand, node, column, combinator⟩
    ⟨name', operand', node', column', combinator'⟩ h hoperand - -
  dsimp only at hoperand ⊢
  cases operand with
  | object fields =>
    obtain ⟨fields', rfl, hfields⟩ := hoperand.object_inv
    have hlefts : EntriesAlike vary _ (fields.filter fun entry => !isComparison entry)
        (fields'.filter fun entry => !isComparison entry) :=
      hfields.filter fun key => !(comparisonWords.lookup key).isSome
    have htests : EntriesAlike vary _ (fields.filter isComparison) (fields'.filter isComparison) :=
      hfields.filter fun key => (comparisonWords.lookup key).isSome
    have hwords : ∀ test ∈ fields.filter isComparison, isComparison test = true :=
      fun test htest => (List.mem_filter.1 htest).2
    have hmem : ∀ entry, entry ∈ fields ↔
        entry ∈ fields.filter (fun entry => !isComparison entry) ∨
          entry ∈ fields.filter isComparison := by
      intro entry
      cases hentry : isComparison entry <;> simp [hentry]
    rw [expressionTest_object, expressionTest_object]
    simp only [Exposed.comparisons_iff, hmem]
    generalize fields.filter (fun entry => !isComparison entry) = lefts at hlefts ⊢
    generalize fields'.filter (fun entry => !isComparison entry) = lefts' at hlefts ⊢
    generalize fields.filter isComparison = tests at htests hwords ⊢
    generalize fields'.filter isComparison = tests' at htests ⊢
    rcases hlefts with _ | ⟨hleft, _ | ⟨_, _⟩⟩
    · exact .refuse
    · rcases htests with _ | ⟨htest, hrest⟩
      · exact .refuse
      · refine (expressionParts_like h hleft (.cons htest hrest) (by simp) hwords).congr ?_
        simp only [List.mem_cons, List.not_mem_nil, or_false]
    · exact .refuse
  | list items =>
    obtain ⟨items', rfl, -⟩ := hoperand.list_inv
    exact .refuse
  | null | bool flag | int number | float number | str text =>
    obtain rfl := hoperand.eq_of_scalar rfl rfl
    exact .refuse

end Comparisons

/-! ## Rows -/

section Rows

variable {ctx ctx' : Context}

/-- The new values of an update may vary one by one. -/
theorem assignments_like : Operator.assignments.Like L vary .assignments := by
  rintro ctx ctx' ⟨name, operand, node, column, combinator⟩
    ⟨name', operand', node', column', combinator'⟩ h hoperand - -
  dsimp only at hoperand ⊢
  unfold Operator.assignments
  cases operand with
  | object fields =>
    obtain ⟨fields', rfl, hfields⟩ := hoperand.object_inv
    dsimp only
    rw [hfields.isEmpty_eq, Exposed.entries_iff (by decide) rfl, Likeness.and_exists_mem]
    split
    · exact .refuse
    · refine InStep.map (RendersAll.each (hfields.forall₂.imp ?_)) fun _ _ _ ht => ht.commaList
      rintro ⟨key, v⟩ ⟨key', v'⟩ ⟨rfl : key = key', hv⟩
      exact (h.name key).map₂ (valueExpression_like h (p := .operand) rfl hv _)
        fun _ _ _ _ _ _ ha hb => L.congr (L.join " = " ha hb)
          (by simp [Position.passesOn, Position.under]) rfl
  | list items =>
    obtain ⟨items', rfl, -⟩ := hoperand.list_inv
    exact .refuse
  | null | bool flag | int number | float number | str text =>
    obtain rfl := hoperand.eq_of_scalar rfl rfl
    exact .refuse

/-- A row is checked by its keys alone, and its values may vary. -/
theorem documentRow_like (h : ctx.Like L ctx') (columns : List String) (index : Nat) {v v' : Value}
    (hv : Alike vary .records v v') :
    L.Renders vary (Combinator.Enters ctx.combinator ctx'.combinator ∧ Exposed .records v)
      (Operator.documentRow ctx columns index v) (Operator.documentRow ctx' columns index v') := by
  cases v with
  | object fields =>
    obtain ⟨fields', rfl, hfields⟩ := hv.object_inv
    rw [Operator.documentRow_object, Operator.documentRow_object]
    unfold Operator.hasColumns
    rw [← hfields.keys_eq]
    split
    · rename_i hcolumns
      simp only [Bool.and_eq_true, List.all_eq_true, List.contains_iff_mem] at hcolumns
      have hvalues := RendersAll.each (List.forall₂_same.2 fun column (_ : column ∈ columns) =>
        valueExpression_like h (p := .operand) rfl (hfields.valueOf column) (some "$documents"))
      refine hvalues.map fun _ _ _ ht => L.congr (L.after ")" (L.before "(" ht.commaList)) ?_ rfl
      rw [← Likeness.and_exists_mem, Exposed.lookup_iff (by decide) rfl]
      refine and_congr_right fun _ => ⟨?_, ?_⟩
      · rintro ⟨column, -, hexposed⟩
        exact ⟨column, rfl, hexposed⟩
      · rintro ⟨column, -, hexposed⟩
        exact ⟨column, hcolumns.1 column hexposed.mem_keys, hexposed⟩
    · exact .refuse
  | list items =>
    obtain ⟨items', rfl, -⟩ := hv.list_inv
    exact .refuse
  | null | bool flag | int number | float number | str text =>
    obtain rfl := hv.eq_of_scalar rfl rfl
    exact .refuse

/-- Rows keep in step one by one. -/
theorem documentRows_like (h : ctx.Like L ctx') (columns : List String) :
    ∀ {items items' : List Value} (index : Nat), ItemsAlike vary .records items items' →
      L.RendersAll vary
        (∃ v ∈ items, Combinator.Enters ctx.combinator ctx'.combinator ∧ Exposed .records v)
        (Operator.documentRows ctx columns index items)
        (Operator.documentRows ctx' columns index items')
  | _, _, _, .nil => .pure (Likeness.Texts.nil.congr (by simp) rfl)
  | _, _, index, .cons first rest =>
    InStep.map₂ (documentRow_like h columns index first)
      (documentRows_like h columns (index + 1) rest)
      fun _ _ _ _ _ _ hrow hrows => (Likeness.Texts.cons hrow hrows).congr
        (Likeness.or_exists_mem
          (E := fun v => Combinator.Enters ctx.combinator ctx'.combinator ∧ Exposed .records v)) rfl

/-- The columns come from the keys of the first document, which stay the same. -/
theorem documentTable_like (h : ctx.Like L ctx') {items items' : List Value}
    (hitems : ItemsAlike vary .records items items') :
    L.Renders vary
      (Combinator.Enters ctx.combinator ctx'.combinator ∧ ∃ v ∈ items, Exposed .records v)
      (Operator.documentTable ctx items) (Operator.documentTable ctx' items') := by
  have hrows := fun columns => documentRows_like h columns 0 hitems
  rw [Likeness.and_exists_mem]
  rcases hitems with _ | @⟨_, first, first', _, _, hfirst, _⟩
  · exact .refuse
  · cases first with
    | object fields =>
      obtain ⟨fields', rfl, hfields⟩ := hfirst.object_inv
      have hkeys := hfields.keys_eq
      rcases hfields with _ | ⟨_, _⟩
      · exact .refuse
      · unfold Operator.documentTable
        dsimp only
        rw [← hkeys]
        refine InStep.map₂ (RendersAll.each_same fun column _ => h.name column) (hrows _)
          fun _ _ _ _ _ _ ha hb => ?_
        exact L.congr (L.append (L.after ") VALUES " (L.before "(" ha.commaList)) hb.commaList)
          (by simp) rfl
    | list items =>
      obtain ⟨items', rfl, -⟩ := hfirst.list_inv
      exact .refuse
    | null | bool flag | int number | float number | str text =>
      obtain rfl := hfirst.eq_of_scalar rfl rfl
      exact .refuse

theorem documents_like : Operator.documents.Like L vary .records := by
  rintro ctx ctx' ⟨name, operand, node, column, combinator⟩
    ⟨name', operand', node', column', combinator'⟩ h hoperand - -
  dsimp only at hoperand ⊢
  cases operand with
  | object fields =>
    obtain ⟨fields', rfl, -⟩ := hoperand.object_inv
    exact (documentTable_like h (.cons hoperand .nil)).congr (by simp)
  | list items =>
    obtain ⟨items', rfl, hitems⟩ := hoperand.list_inv
    rw [Exposed.list_iff]
    exact documentTable_like h hitems
  | null | bool flag | int number | float number | str text =>
    obtain rfl := hoperand.eq_of_scalar rfl rfl
    exact .refuse

end Rows

/-! ## Table definitions -/

section Definitions

variable {ctx ctx' : Context}

/-- What the column template is applied to: the description, or the one entry that holds it. -/
theorem columnDefinition_object (ctx : Context) (name : String) (fields : Fields) :
    Operator.columnDefinition ctx name (.object fields) = do
      let column ← ctx.name name
      let text ← ctx.invoke "$column"
        (if fields.keys = ["$column"] then fields.valueOf "$column" else .object fields) fields
        (some name)
      return column ++ " " ++ text := by
  unfold Operator.columnDefinition
  dsimp only
  split
  · rfl
  · rename_i hbody
    have hkeys : ¬ Fields.keys fields = ["$column"] := by
      intro hkeys
      obtain ⟨⟨key, v⟩, hentry, hkey⟩ := List.map_eq_singleton_iff.1 hkeys
      exact hbody v (by rw [hentry, ← hkey])
    rw [if_neg hkeys]

/-- A definition is one call at a part of it, and the part is found by its keys. -/
theorem columnDefinition_like (h : ctx.Like L ctx') (name : String) {v v' : Value}
    (hv : Alike vary .nested v v') :
    L.Renders vary (Combinator.Enters ctx.combinator ctx'.combinator ∧ Exposed .nested v)
      (Operator.columnDefinition ctx name v) (Operator.columnDefinition ctx' name v') := by
  cases v with
  | object fields =>
    obtain ⟨fields', rfl, hfields⟩ := hv.object_inv
    rw [columnDefinition_object, columnDefinition_object, ← hfields.keys_eq]
    have hcolumn : L.Renders vary
        (Combinator.Enters ctx.combinator ctx'.combinator ∧ Exposed .nested (.object fields))
        (ctx.invoke "$column"
          (if Fields.keys fields = ["$column"] then Fields.valueOf fields "$column"
            else .object fields) fields (some name))
        (ctx'.invoke "$column"
          (if Fields.keys fields = ["$column"] then Fields.valueOf fields' "$column"
            else .object fields') fields' (some name)) := by
      split
      · rename_i hkeys
        refine (h.invoke (hfields.valueOf "$column") hfields (some name)).congr ?_
        rw [Exposed.value_iff rfl]
        refine and_congr_right fun _ => ⟨fun hexposed => ⟨_, hexposed⟩, ?_⟩
        rintro ⟨key, hexposed⟩
        have hkey : key = "$column" := by simpa [hkeys] using hexposed.mem_keys
        rwa [hkey] at hexposed
      · have hclauses : Alike vary (.ofOperator "$column") (.object fields) (.object fields') :=
          .object (by decide) (hfields.of_under_eq (p := .nested) (q := .clauses) rfl)
        refine (h.invoke hclauses hfields (some name)).congr ?_
        change _ ∧ Exposed .clauses _ ↔ _
        rw [Exposed.lookup_iff (by decide) rfl, Exposed.value_iff rfl]
        simp only [Position.passesOn, Position.under, true_and]
    exact (h.name name).map₂ hcolumn fun _ _ _ _ _ _ ha hb => L.congr (L.join " " ha hb)
      (by simp) rfl
  | list items =>
    obtain ⟨items', rfl, -⟩ := hv.list_inv
    exact .refuse
  | null | bool flag | int number | float number | str text =>
    obtain rfl := hv.eq_of_scalar rfl rfl
    exact .refuse

/-- Definitions of columns may hold data, constraints do not. -/
theorem definitions_like : Operator.definitions.Like L vary .definitions := by
  rintro ctx ctx' ⟨name, operand, node, column, combinator⟩
    ⟨name', operand', node', column', combinator'⟩ h hoperand - -
  dsimp only at hoperand ⊢
  unfold Operator.definitions
  cases operand with
  | object fields =>
    obtain ⟨fields', rfl, hfields⟩ := hoperand.object_inv
    dsimp only
    rw [hfields.isEmpty_eq, Exposed.entries_iff (by decide) rfl, Likeness.and_exists_mem]
    split
    · exact .refuse
    · refine InStep.map (RendersAll.each (hfields.forall₂.imp ?_)) fun _ _ _ ht => ht.commaList
      rintro ⟨key, v⟩ ⟨key', v'⟩ ⟨rfl : key = key', hv⟩
      unfold Operator.definition
      dsimp only at hv ⊢
      simp only [Position.passesOn, true_and]
      split
      · rename_i hkey
        subst hkey
        have hconstraint : Alike vary (.ofOperator "$constraint") v v' := hv
        exact h.invoke hconstraint hfields none
      · split
        · exact .refuse
        · rename_i hkey
          simp only [Position.under, hkey] at hv ⊢
          exact columnDefinition_like h key hv
  | list items =>
    obtain ⟨items', rfl, -⟩ := hoperand.list_inv
    exact .refuse
  | null | bool flag | int number | float number | str text =>
    obtain rfl := hoperand.eq_of_scalar rfl rfl
    exact .refuse

/-- A foreign key is made of names, which stay the same. -/
theorem foreignKey_like (h : ctx.Like L ctx') (v : Value) :
    L.Renders vary False (Operator.foreignKey ctx v) (Operator.foreignKey ctx' v) := by
  unfold Operator.foreignKey
  split
  · split
    · split
      · refine InStep.map₃ (nameList_like h _ _) (h.identifier _) (nameList_like h _ _)
          fun _ _ _ _ _ _ _ _ _ ha hb hc => ?_
        have hsource := L.after ") REFERENCES " (L.before "FOREIGN KEY (" ha)
        exact L.congr (L.after ")" (L.append (L.after " (" (L.append hsource hb)) hc)) (by simp) rfl
      · exact .refuse
    · exact .refuse
  · exact .refuse

theorem constraintBody_like (h : ctx.Like L ctx') (kind : String) (v : Value) :
    L.Renders vary False (Operator.constraintBody ctx kind v)
      (Operator.constraintBody ctx' kind v) := by
  unfold Operator.constraintBody
  split
  · exact (nameList_like h _ v).map fun _ _ _ ht => L.after ")" (L.before "PRIMARY KEY (" ht)
  · split
    · exact (nameList_like h _ v).map fun _ _ _ ht => L.after ")" (L.before "UNIQUE (" ht)
    · split
      · exact foreignKey_like h v
      · exact .refuse

/-- The name of a constraint is rendered after its body and stands before it. -/
theorem constraint_like (h : ctx.Like L ctx') (entry : String × Value) :
    L.Renders vary False (Operator.constraint ctx entry) (Operator.constraint ctx' entry) := by
  unfold Operator.constraint
  split
  · refine InStep.map₂ (constraintBody_like h _ _) (h.name _) fun _ _ _ _ _ _ hbody hname => ?_
    exact L.congr (L.join " " (L.before "CONSTRAINT " hname) hbody) (by simp) (Nat.add_comm _ _)
  · exact .refuse

/-- So are all constraints. -/
theorem constraints_like : Operator.constraints.Like L vary .fixed := by
  refine .of_fixed fun _ _ c c' h hoperand _ _ => ?_
  unfold Operator.constraints
  dsimp only
  rw [hoperand]
  split
  · split
    · exact .refuse
    · exact (RendersAll.each_same fun entry _ => constraint_like h entry).map
        fun _ _ _ ht => ht.commaList
  · exact .refuse

theorem columnType_like : Operator.columnType.Like L vary .fixed := by
  refine .of_fixed fun _ _ c c' _ hoperand _ _ => ?_
  unfold Operator.columnType
  dsimp only
  rw [hoperand]
  split
  · split
    · exact .text _
    · exact .refuse
  · exact .refuse

theorem columnLength_like : Operator.columnLength.Like L vary .fixed := by
  refine .of_fixed fun _ _ c c' _ hoperand _ _ => ?_
  unfold Operator.columnLength
  dsimp only
  rw [hoperand]
  split
  · exact .text _
  · exact .refuse

/-- A default may vary inside an operator, but not as a plain value. -/
theorem columnDefault_like : Operator.columnDefault.Like L vary .nested :=
  fun _ _ _ _ h hoperand _ _ => valueExpression_like h rfl hoperand _

theorem columnComment_like : Operator.columnComment.Like L vary .fixed := by
  refine .of_fixed fun _ _ c c' _ hoperand _ _ => ?_
  unfold Operator.columnComment
  dsimp only
  rw [hoperand]
  split
  · exact .bound (.inl rfl)
  · exact .refuse

theorem identityColumn_like : Operator.identityColumn.Like L vary .fixed := by
  refine .of_fixed fun _ _ c c' _ hoperand _ _ => ?_
  unfold Operator.identityColumn
  dsimp only
  rw [hoperand]
  split
  · exact .text _
  · exact .text _
  · exact .refuse

theorem collation_like : Operator.collation.Like L vary .fixed := by
  refine .of_fixed fun _ _ c c' h hoperand _ _ => ?_
  unfold Operator.collation
  dsimp only
  rw [hoperand]
  split
  · split
    · exact .refuse
    · exact .pure (h.segment _)
  · exact .refuse

/-- A check is a filter. -/
theorem check_like : Operator.check.Like L vary .filter :=
  fun _ _ _ _ h hoperand _ _ => condition_like h hoperand none

theorem reference_like : Operator.reference.Like L vary .fixed := by
  refine .of_fixed fun _ _ c c' h hoperand _ _ => ?_
  unfold Operator.reference
  dsimp only
  rw [hoperand]
  split
  · exact h.name _
  · rename_i fields _
    split
    · rename_i table _
      split
      · by_cases hcolumns : (Fields.valueOf fields "$columns").isNull = true
        · simp only [hcolumns, if_true]
          exact (h.identifier table).map fun _ _ _ ht => ht
        · simp only [hcolumns]
          refine (h.identifier table).map₂ (nameList_like h _ _) fun _ _ _ _ _ _ ha hb => ?_
          exact L.congr (L.after ")" (L.join " (" ha hb)) (by simp) rfl
      · exact .refuse
    · exact .refuse
  · exact .refuse

theorem objectIds_like : Operator.objectIds.Like L vary .fixed := by
  refine .of_fixed fun _ _ c c' _ hoperand _ _ => ?_
  unfold Operator.objectIds
  dsimp only
  rw [hoperand]
  split
  · exact .text _
  · exact .refuse

theorem tablespace_like : Operator.tablespace.Like L vary .fixed := by
  refine .of_fixed fun _ _ c c' h hoperand _ _ => ?_
  unfold Operator.tablespace
  dsimp only
  rw [hoperand]
  split
  · exact h.name _
  · exact .refuse

end Definitions

/-! ## Targets of a result -/

/-- Options have the same keywords and bind the same texts. -/
theorem optionClauses_like (options : List (String × Option String)) :
    L.RendersAll vary False (Operator.optionClauses options) (Operator.optionClauses options) := by
  induction options with
  | nil => exact .pure .nil
  | cons entry rest ih =>
    obtain ⟨keyword, _ | text⟩ := entry
    · exact ih
    · exact (Renders.bound (.inl rfl)).map₂ ih fun _ _ _ _ _ _ htoken hclauses =>
        (Likeness.Texts.cons (L.before (keyword ++ " ") htoken) hclauses).congr (by simp) rfl

theorem optionGroup_like (keyword : String) (options : List (String × Option String)) :
    L.RendersAll vary False (Operator.optionGroup keyword options)
      (Operator.optionGroup keyword options) := by
  refine (optionClauses_like options).map fun k clauses clauses' hclauses => ?_
  have hisEmpty := hclauses.isEmpty_eq
  rw [hisEmpty]
  split
  · rename_i hempty
    rwa [List.isEmpty_iff.1 (hisEmpty.trans hempty), List.isEmpty_iff.1 hempty] at hclauses
  · exact (Likeness.Texts.cons (L.refl keyword) hclauses).congr (by simp) (by simp)

/-- What is written about a file comes from a block that stays the same. -/
theorem outfileClause_like (v : Value) :
    L.Renders vary False (Operator.outfileClause v) (Operator.outfileClause v) := by
  unfold Operator.outfileClause
  split
  · exact .refuse
  · rename_i options _
    have hfields : L.RendersAll vary False (Operator.fieldClauses options.fields)
        (Operator.fieldClauses options.fields) := by
      cases options.fields with
      | none => exact .pure .nil
      | some fields => exact optionGroup_like _ _
    have hlines : L.RendersAll vary False (Operator.lineClauses options.lines)
        (Operator.lineClauses options.lines) := by
      cases options.lines with
      | none => exact .pure .nil
      | some lines => exact optionGroup_like _ _
    refine (Renders.bound (.inl rfl)).map₃ hfields hlines fun _ _ _ _ _ _ _ _ _ ha hb hc => ?_
    have htexts := Likeness.Texts.cons (L.refl "OUTFILE") (.cons ha (hb.append hc))
    exact L.congr (htexts.intercalate " ") (by simp) (by omega)

theorem variableName_like (v : Value) :
    L.Renders vary False (Operator.variableName v) (Operator.variableName v) := by
  unfold Operator.variableName
  split
  · split
    · exact .text _
    · exact .refuse
  · exact .refuse

/-- What a result is written to stays the same. -/
theorem target_like : Operator.target.Like L vary .fixed := by
  refine .of_fixed fun ctx ctx' c c' _ hoperand _ _ => ?_
  unfold Operator.target
  dsimp only
  rw [hoperand]
  split
  · split
    · exact .refuse
    · exact (RendersAll.each_same fun v _ => variableName_like v).map fun _ _ _ ht => ht.commaList
  · split
    · exact outfileClause_like _
    · split
      · split
        · split
          · exact .refuse
          · exact (Renders.bound (.inl rfl)).map fun _ _ _ ht => L.before "DUMPFILE " ht
        · exact .refuse
      · exact .refuse
  · exact .refuse

theorem outfile_like : Operator.outfile.Like L vary .fixed := by
  refine .of_fixed fun ctx ctx' c c' _ hoperand _ _ => ?_
  unfold Operator.outfile
  dsimp only
  rw [hoperand]
  exact (outfileClause_like _).map fun _ _ _ ht => L.before "INTO " ht

end QueryTree
