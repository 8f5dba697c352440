import QueryTree.Proofs.Bodies
import QueryTree.Proofs.LikeOperators

/-!
# What operators do with a column

An operator in a condition on a column is told the column.  Those that test a column make use of it.
Every other operator is rendered as it is in any other place: it knows nothing of the column.

* `ColumnUse` : an operator by what it does with the column, and `Dialect.columnUse_of_find?` that
  every operator of the library is one of these.
* `Dialect.ColumnFree` : an operator that does not depend on the column it is applied to, and
  **`Dialect.columnFree_of_not_test`** that these are all operators but the tests.
* `Filter.conjunction` : the texts of several conditions in one.
-/

namespace QueryTree

/-! ## Operators that ignore the column -/

/-- The operator does not depend on the column that it is applied to. -/
def Handler.IgnoresColumn (handler : Handler) : Prop :=
  ∀ ctx call column, handler.render ctx { call with column } = handler.render ctx call

/-- The operators that test a column, with their handlers. -/
def Operator.tests : List (String × Handler) :=
  comparisonWords.map (fun entry => (entry.1, comparison entry.1 entry.2)) ++
    [("$in", membership "$in" "IN"), ("$nin", membership "$nin" "NOT IN"), ("$between", between),
      ("$isNull", nullTest), ("$ilike", comparison "$ilike" "ILIKE")]

/-- An operator by what it does with the column that it is applied to. -/
inductive ColumnUse : String × Handler → Prop where
  | tests {entry : String × Handler} (h : entry ∈ Operator.tests) : ColumnUse entry
  | ignores {name : String} {handler : Handler} (test : name ∉ testNames)
      (h : handler.IgnoresColumn) : ColumnUse (name, handler)
  | template {entry : Template × Fields} (test : entry.1.name ∉ testNames)
      (h : entry ∈ templatedOperators) : ColumnUse (entry.1.name, entry.1.handler entry.2)

theorem ColumnUse.of_names {names : List String} {handler : String → Handler}
    (hnames : ∀ name ∈ names, name ∉ testNames) (h : ∀ name, (handler name).IgnoresColumn) :
    ∀ entry ∈ names.map fun name => (name, handler name), ColumnUse entry :=
  List.forall_mem_map.2 fun name hname => .ignores (hnames name hname) (h name)

/-- No operator with a template is a test. -/
theorem name_not_mem_testNames {entry : Template × Fields} (h : entry ∈ templatedOperators) :
    entry.1.name ∉ testNames := by
  revert entry
  decide

/-- The operators of the base dialect by what they do with the column. -/
theorem Ansi.columnUse : ∀ entry ∈ table, ColumnUse entry := by
  have ignores : ∀ {name : String} {handler : Handler}, handler.IgnoresColumn →
      name ∉ testNames → ColumnUse (name, handler) := fun h htest => .ignores htest h
  simp only [table, operators, List.forall_mem_append]
  refine ⟨⟨?_, ⟨⟨⟨⟨⟨?_, ?_⟩, ?_⟩, ?_⟩, ?_⟩, ?_⟩⟩, ?_⟩
  · refine List.forall_mem_map.2 fun entry hentry => ?_
    have hmem : entry ∈ templatedOperators := List.mem_append_left _ hentry
    exact .template (name_not_mem_testNames hmem) hmem
  · simp only [List.forall_mem_cons]
    exact ⟨ignores (fun _ _ _ => rfl) (by decide), ignores (fun _ _ _ => rfl) (by decide),
      ignores (fun _ _ _ => rfl) (by decide), ignores (fun _ _ _ => rfl) (by decide),
      ignores (fun _ _ _ => rfl) (by decide), ignores (fun _ _ _ => rfl) (by decide),
      ignores (fun _ _ _ => rfl) (by decide), ignores (fun _ _ _ => rfl) (by decide),
      ignores (fun _ _ _ => rfl) (by decide), ignores (fun _ _ _ => rfl) (by decide),
      ignores (fun _ _ _ => rfl) (by decide), by simp⟩
  · exact ColumnUse.of_names (by decide) fun _ _ _ _ => rfl
  · exact List.forall_mem_singleton.2 (ignores (fun _ _ _ => rfl) (by decide))
  · have hnames : ∀ entry ∈ aggregates, entry.1 ∉ testNames := by decide
    exact List.forall_mem_map.2 fun entry hentry =>
      ignores (fun _ _ _ => rfl) (hnames entry hentry)
  · exact fun entry hentry => .tests (List.mem_append_left _ hentry)
  · simp only [List.forall_mem_cons]
    exact ⟨.tests (by simp [Operator.tests]), .tests (by simp [Operator.tests]),
      .tests (by simp [Operator.tests]), .tests (by simp [Operator.tests]),
      ignores (fun _ _ _ => rfl) (by decide), ignores (fun _ _ _ => rfl) (by decide),
      ignores (fun _ _ _ => rfl) (by decide), ignores (fun _ _ _ => rfl) (by decide),
      ignores (fun _ _ _ => rfl) (by decide), by simp⟩
  · simp only [List.forall_mem_cons]
    exact ⟨ignores (fun _ _ _ => rfl) (by decide), ignores (fun _ _ _ => rfl) (by decide), by simp⟩

theorem Mysql.columnUse : ∀ entry ∈ table, ColumnUse entry := by
  have ignores : ∀ {name : String} {handler : Handler}, handler.IgnoresColumn →
      name ∉ testNames → ColumnUse (name, handler) := fun h htest => .ignores htest h
  have hselect : (selectTemplate, Ansi.selectDefaults) ∈ templatedOperators := by
    simp [templatedOperators]
  have hcolumn : (columnTemplate, ([] : Fields)) ∈ templatedOperators := by
    simp [templatedOperators]
  simp only [table, operators, List.forall_mem_append, List.forall_mem_cons]
  exact ⟨⟨.template (name_not_mem_testNames hselect) hselect,
      .template (name_not_mem_testNames hcolumn) hcolumn, by simp⟩,
    ignores (fun _ _ _ => rfl) (by decide), ignores (fun _ _ _ => rfl) (by decide),
    ignores (fun _ _ _ => rfl) (by decide), ignores (fun _ _ _ => rfl) (by decide),
    ignores (fun _ _ _ => rfl) (by decide), ignores (fun _ _ _ => rfl) (by decide), by simp⟩

theorem Postgres.columnUse : ∀ entry ∈ table, ColumnUse entry := by
  have ignores : ∀ {name : String} {handler : Handler}, handler.IgnoresColumn →
      name ∉ testNames → ColumnUse (name, handler) := fun h htest => .ignores htest h
  have hcreate : (createTableTemplate, ([] : Fields)) ∈ templatedOperators := by
    simp [templatedOperators]
  have hcolumn : (columnTemplate, ([] : Fields)) ∈ templatedOperators := by
    simp [templatedOperators]
  have hstorage : (storageTemplate, ([] : Fields)) ∈ templatedOperators := by
    simp [templatedOperators]
  simp only [table, operators, List.forall_mem_append, List.forall_mem_cons]
  exact ⟨⟨.template (name_not_mem_testNames hcreate) hcreate,
      .template (name_not_mem_testNames hcolumn) hcolumn,
      .template (name_not_mem_testNames hstorage) hstorage, by simp⟩,
    .tests (by simp [Operator.tests]), ignores (fun _ _ _ => rfl) (by decide),
    ignores (fun _ _ _ => rfl) (by decide), ignores (fun _ _ _ => rfl) (by decide),
    ignores (fun _ _ _ => rfl) (by decide), ignores (fun _ _ _ => rfl) (by decide),
    ignores (fun _ _ _ => rfl) (by decide), ignores (fun _ _ _ => rfl) (by decide), by simp⟩

namespace Dialect

variable {d : Dialect} {operator : String}

/-- The answers for an operator do not depend on the column that it is applied to. -/
def ColumnFree (d : Dialect) (operator : String) : Prop :=
  ∀ operand node column column' combinator,
    d.respond ⟨operator, operand, node, column, combinator⟩ =
      d.respond ⟨operator, operand, node, column', combinator⟩

/-- **Every operator of the library tests the column, ignores it or has a template.** -/
theorem columnUse_of_find? (hd : d ∈ library) {handler : Handler}
    (hfind : d.registry.find? operator = some handler) : ColumnUse (operator, handler) := by
  rcases List.mem_append.1 (find?_mem hd hfind) with hmem | hmem
  · rcases List.mem_append.1 hmem with hmem | hmem
    · exact Ansi.columnUse _ hmem
    · exact Mysql.columnUse _ hmem
  · exact Postgres.columnUse _ hmem

/-- A template does not depend on the column, if its references do not. -/
theorem columnFree_of_template (hd : d ∈ library) {t : Template} {defaults : Fields}
    (hfind : d.registry.find? operator = some (t.handler defaults))
    (h : ∀ r ∈ t.references, d.ColumnFree r.key) : d.ColumnFree operator := by
  intro operand node column column' combinator
  rw [respond_eq hd, respond_eq hd]
  simp only [hfind, Template.handler]
  split
  · rename_i fields
    have hagree : Template.Agree d (d.context combinator) column column'
        (Fields.withDefaults fields defaults) (Fields.withDefaults fields defaults)
        (Template.lookupsOf t.nodes) t.references := by
      refine ⟨fun _ _ => rfl, fun _ _ _ => rfl, fun r hr _ operand => ?_⟩
      rw [Same, Context.invoke, Context.invoke, Rendering.run_invoke, Rendering.run_invoke]
      exact h r hr operand _ column column' _
    exact (Same.refl _).bind fun _ => Template.same_render hagree
  · rfl

/-- Only tests depend on the column, if templates do not. -/
theorem columnFree_of_templates (hd : d ∈ library) (hoperator : operator ∉ testNames)
    (h : ∀ templated ∈ templatedOperators, templated.1.name = operator →
      ∀ r ∈ templated.1.references, d.ColumnFree r.key) : d.ColumnFree operator := by
  cases hfind : d.registry.find? operator with
  | none =>
    intro operand node column column' combinator
    rw [respond_eq hd, respond_eq hd]
    simp only [hfind]
  | some handler =>
    have huse := columnUse_of_find? hd hfind
    cases huse with
    | tests htest =>
      exact absurd (List.mem_map_of_mem htest : operator ∈ Operator.tests.map Prod.fst) hoperator
    | ignores _ hignores =>
      intro operand node column column' combinator
      rw [respond_eq hd, respond_eq hd]
      simp only [hfind]
      exact congrArg (fun x => x.run d.placeholder d.respond)
        (hignores (d.context combinator) ⟨operator, operand, node, column', combinator⟩ column)
    | template _ hmem => exact columnFree_of_template hd hfind (h _ hmem rfl)

/-- The templates refer to no test, and to no template but one that refers to none. -/
theorem templated_references :
    ∀ templated ∈ templatedOperators, ∀ r ∈ templated.1.references, r.key ∉ testNames ∧
      ∀ inner ∈ templatedOperators, inner.1.name = r.key →
        ∀ r' ∈ inner.1.references, r'.key ∉ testNames ∧
          ∀ innermost ∈ templatedOperators, innermost.1.name ≠ r'.key := by
  decide

/-- **All operators but the tests ignore the column that they are applied to.** -/
theorem columnFree_of_not_test (hd : d ∈ library) (hoperator : operator ∉ testNames) :
    d.ColumnFree operator := by
  refine columnFree_of_templates hd hoperator fun templated hmem _ r hr => ?_
  obtain ⟨hr, hinner⟩ := templated_references templated hmem r hr
  refine columnFree_of_templates hd hr fun inner hmem hname r' hr' => ?_
  obtain ⟨hr', hinnermost⟩ := hinner inner hmem hname r' hr'
  exact columnFree_of_templates hd hr' fun innermost hmem hname =>
    absurd hname (hinnermost innermost hmem)

end Dialect

/-! ## Several conditions -/

/-- Several texts joined by AND, in parentheses inside another connective. -/
def Filter.conjunction (parent : Option Combinator) (parts : List String) : String :=
  if 1 < parts.length ∧ Combinator.encloses parent = true then
    "(" ++ " AND ".intercalate parts ++ ")"
  else " AND ".intercalate parts

/-- The conjunction of conditions is a text, and not a refusal. -/
theorem Dialect.group_and_eq (parent : Option Combinator) (parts : List String) :
    Filter.group .and parts parent = pure (Filter.conjunction parent parts) := by
  rw [group_and, Filter.conjunction]
  split <;> rfl

end QueryTree
