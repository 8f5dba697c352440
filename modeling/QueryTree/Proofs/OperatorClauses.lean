import QueryTree.Operator.Clause
import QueryTree.Operator.Comparison
import QueryTree.Operator.Rows
import QueryTree.Proofs.ExpressionClauses
import QueryTree.Proofs.OptionLeaves
import QueryTree.Proofs.Verbatim

/-!
# Operators render clauses

Every operator that is not a template renders a clause whose values are leaves of its operand, given
that the calls it makes are answered so.

There is one lemma for each operator, named for it.  The lemma of a family of operators asks that
their words can stand where the family puts them.
-/

namespace QueryTree.Sql

variable {S : Scheme} {ctx : Context} {replies : ReplyRel} {F : List Value}

/-! ## Clauses of a statement -/

/-- A flag renders to nothing, and so binds no leaf. -/
theorem flag_renders (operator : String) (call : Call) :
    Renders S replies F ((Operator.flag operator).render ctx call) := by
  unfold Operator.flag
  dsimp only
  split
  · exact .keyword (by decide)
  · exact .refuse _

/-- A value that is bound is a leaf of the operand, which is that very value. -/
theorem boundValue_renders (call : Call) :
    Renders S replies call.operand.leaves (Operator.boundValue.render ctx call) := by
  unfold Operator.boundValue
  dsimp only
  split
  · rename_i hscalar
    exact .bound (Value.mem_leaves_self hscalar)
  · exact .refuse _

/-- The argument of an aggregate stands in its parentheses. -/
theorem aggregate_renders (h : Setting S ctx replies) {function : String}
    (hfunction : Encloses (function ++ "(") ")") (operator : String) (call : Call) :
    Renders S replies call.operand.leaves
      ((Operator.aggregate function operator).render ctx call) := by
  obtain ⟨name, operand, node, column, combinator⟩ := call
  cases operand with
  | str text => exact (h.name text).map fun ht => .enclose hfunction ht
  | object fields =>
    exact (valueExpression_renders h operator (.object fields)).map fun ht => .enclose hfunction ht
  | null | bool flag | int number | float number | list items => exact Ensures.refuse _

/-- Tables are a list of names. -/
theorem tables_renders (h : Setting S ctx replies) (call : Call) :
    Renders S replies F (Operator.tables.render ctx call) := by
  unfold Operator.tables
  dsimp only
  split
  · exact .refuse _
  · exact nameList_renders h _ call.operand

/-- A sorting column is a name and a keyword. -/
theorem sortEntry_renders (h : Setting S ctx replies) (entry : String × Value) :
    Renders S replies F (Operator.sortEntry ctx entry) := by
  intro n t vs hyields
  obtain ⟨column, us, _, hcolumn, hrest, rfl⟩ := Rendering.yields_bind.1 hyields
  obtain ⟨direction, _, _, hdirection, hpure, rfl⟩ := Rendering.yields_bind.1 hrest
  obtain ⟨-, rfl⟩ := Rendering.yields_ofExcept.1 hdirection
  obtain ⟨rfl, rfl⟩ := Rendering.yields_pure.1 hpure
  have hkeyword : IsKeyword direction.keyword := by
    cases direction <;> decide
  exact .sep (by decide) (h.name entry.1 n column us hcolumn) (.keyword hkeyword)

theorem sortItem_renders (h : Setting S ctx replies) (v : Value) :
    RendersAll S replies F (Operator.sortItem ctx v) := by
  cases v with
  | str text => exact (h.name text).map fun ht => .singleton ht
  | object fields => exact .each fun entry _ => sortEntry_renders h entry
  | null | bool flag | int number | float number | list items => exact .refuse _

/-- Sorting columns in any of their forms are such entries with commas between them. -/
theorem sortColumns_renders (h : Setting S ctx replies) (v : Value) :
    Renders S replies F (Operator.sortColumns ctx v) := by
  cases v with
  | str text => exact h.name text
  | object fields =>
    exact (RendersAll.each fun entry _ => sortEntry_renders h entry).map fun ht => ht.commaList
  | list items =>
    unfold Operator.sortColumns
    dsimp only
    split
    · exact .refuse _
    · exact (RendersAll.each_flatten fun v _ => sortItem_renders h v).map fun ht => ht.commaList
  | null | bool flag | int number | float number => exact .refuse _

/-- A number of rows is bound as it is. -/
theorem isScalar_of_isCount {v : Value} (h : v.isCount = true) : v.isScalar = true := by
  cases v with
  | int number => rfl
  | null | bool flag | float number | str text | list items | object fields => cases h

/-- A limit is a placeholder or the word of the dialect that stands for none. -/
theorem limit_renders (h : Setting S ctx replies) (call : Call) :
    Renders S replies call.operand.leaves (Operator.limit.render ctx call) := by
  unfold Operator.limit
  dsimp only
  split
  · exact .keyword h.maxLimit
  · split
    · rename_i hcount
      exact .bound (Value.mem_leaves_self (isScalar_of_isCount hcount))
    · exact .refuse _

/-- An offset binds the number that it is given. -/
theorem offset_renders (call : Call) :
    Renders S replies call.operand.leaves (Operator.offset.render ctx call) := by
  unfold Operator.offset
  dsimp only
  split
  · exact .refuse _
  · split
    · rename_i hcount
      exact .bound (Value.mem_leaves_self (isScalar_of_isCount hcount))
    · exact .refuse _

/-! ## Comparisons -/

/-- A test begins with the name of its column. -/
theorem testedColumn_renders (h : Setting S ctx replies) (operator : String)
    (column : Option String) : Renders S replies F (Operator.testedColumn ctx operator column) := by
  cases column with
  | some column => exact h.name column
  | none => exact .refuse _

/-- A comparison is a name, a word that separates, and an operand. -/
theorem comparison_renders (h : Setting S ctx replies) {word : String}
    (hword : Separates (" " ++ word ++ " ")) (operator : String) (call : Call) :
    Renders S replies call.operand.leaves
      ((Operator.comparison operator word).render ctx call) := by
  have hcolumn := testedColumn_renders h operator call.column (F := call.operand.leaves)
  unfold Operator.comparison
  dsimp only
  by_cases heq : (call.operand.isNull && operator == "$eq") = true
  · simp only [heq, if_true]
    exact hcolumn.map fun ht => ht.trail (by decide)
  · by_cases hne : (call.operand.isNull && operator == "$ne") = true
    · simp only [heq, hne, if_true]
      exact hcolumn.map fun ht => ht.trail (by decide)
    · simp only [heq, hne]
      refine hcolumn.map₂ (valueExpression_renders h _ _) fun ha hb => ?_
      simpa only [String.append_assoc] using ha.sep hword hb

/-- Members stand in parentheses with commas between them. -/
theorem membership_renders (h : Setting S ctx replies) {word : String}
    (hword : Separates (" " ++ word ++ " ")) (operator : String) (call : Call) :
    Renders S replies call.operand.leaves
      ((Operator.membership operator word).render ctx call) := by
  obtain ⟨name, operand, node, column, combinator⟩ := call
  have hcolumn := testedColumn_renders h operator column (F := operand.leaves)
  unfold Operator.membership
  dsimp only
  cases operand with
  | object fields =>
    refine hcolumn.map₂ (valueExpression_renders h _ _) fun ha hb => ?_
    simpa only [String.append_assoc] using ha.sep hword hb
  | list items =>
    cases items with
    | nil => exact .andRefuse
    | cons first rest =>
      have hmembers : RendersAll S replies (Value.list (first :: rest)).leaves
          (Rendering.each (valueExpression ctx operator) (first :: rest)) :=
        .each fun v hv => (valueExpression_renders h _ v).mono (Value.leaves_subset_of_mem_items hv)
      refine hcolumn.map₂ hmembers fun {n left us members ws} ha hb => ?_
      have htext : left ++ " " ++ word ++ " (" ++ commaList members ++ ")" =
          left ++ (" " ++ word ++ " ") ++ ("(" ++ commaList members ++ ")") := by
        simp [← String.toList_inj]
      rw [htext]
      exact ha.sep hword (.enclose (by decide) hb.commaList)
  | null | bool flag | int number | float number | str text => exact .andRefuse

/-- The two ends are operands with a keyword between them. -/
theorem between_renders (h : Setting S ctx replies) (call : Call) :
    Renders S replies call.operand.leaves (Operator.between.render ctx call) := by
  obtain ⟨name, operand, node, column, combinator⟩ := call
  have hcolumn := testedColumn_renders h "$between" column (F := operand.leaves)
  unfold Operator.between
  dsimp only
  cases operand with
  | list items =>
    rcases items with _ | ⟨low, _ | ⟨high, _ | ⟨third, rest⟩⟩⟩
    · exact .andRefuse
    · exact .andRefuse
    · have hbound : ∀ v ∈ [low, high], Renders S replies (Value.list [low, high]).leaves
          (valueExpression ctx "$between" v) := fun v hv =>
        (valueExpression_renders h _ v).mono (Value.leaves_subset_of_mem_items hv)
      refine hcolumn.map₃ (hbound low (by simp)) (hbound high (by simp))
        fun {n left us a ws b vs} hleft ha hb => ?_
      have htext : left ++ " BETWEEN " ++ a ++ " AND " ++ b =
          left ++ " BETWEEN " ++ (a ++ " AND " ++ b) := by simp only [String.append_assoc]
      rw [htext]
      exact hleft.sep (by decide) (ha.sep (by decide) hb)
    · exact .andRefuse
  | null | bool flag | int number | float number | str text | object fields => exact .andRefuse

/-- A test for a missing value binds nothing. -/
theorem nullTest_renders (h : Setting S ctx replies) (call : Call) :
    Renders S replies F (Operator.nullTest.render ctx call) := by
  obtain ⟨name, operand, node, column, combinator⟩ := call
  have hcolumn := testedColumn_renders h "$isNull" column (F := F)
  unfold Operator.nullTest
  dsimp only
  cases operand with
  | bool flag =>
    cases flag with
    | true => exact hcolumn.map fun ht => ht.trail (by decide)
    | false => exact hcolumn.map fun ht => ht.trail (by decide)
  | null | int number | float number | str text | list items | object fields => exact .andRefuse

/-- A negation puts its filter in parentheses. -/
theorem negation_renders (h : Setting S ctx replies) (call : Call) :
    Renders S replies call.operand.leaves (Operator.negation.render ctx call) :=
  (condition_renders h call.operand none).map fun ht => .enclose (by decide) ht

/-- The words of the comparisons separate what is on both sides of them. -/
theorem separates_comparisonWord {operator word : String}
    (h : comparisonWords.lookup operator = some word) : Separates (" " ++ word ++ " ") := by
  have hwords : ∀ entry ∈ comparisonWords, Separates (" " ++ entry.2 ++ " ") := by decide
  obtain ⟨before, after, hentries, -⟩ := List.lookup_eq_some_iff.1 h
  exact hwords (operator, word) (by simp [hentries])

/-- Each comparison of an expression has the leaves of the expression and those of its operand. -/
theorem expressionTest_renders (h : Setting S ctx replies) (call : Call) :
    Renders S replies call.operand.leaves (Operator.expressionTest.render ctx call) := by
  obtain ⟨name, operand, node, column, combinator⟩ := call
  unfold Operator.expressionTest
  dsimp only
  cases operand with
  | object fields =>
    dsimp only
    split
    · rename_i left test tests hleft htests
      have hleft_mem : [left] ⊆ fields := hleft ▸ List.filter_subset_self _
      refine (RendersAll.each fun entry hentry => ?_).group .and _
      obtain ⟨hentry_mem, hword⟩ := List.mem_filter.1 (htests ▸ hentry)
      obtain ⟨word, hword⟩ := Option.isSome_iff_exists.1 hword
      rw [Operator.expressionPart_of_lookup ctx left hword]
      refine ((valueExpression_renders h _ (.object [left])).mono
        (Value.leaves_subset_of_subset hleft_mem)).map₂
        ((valueExpression_renders h _ entry.2).mono (Value.leaves_subset_of_mem_fields hentry_mem))
        fun ha hb => ?_
      simpa only [String.append_assoc] using ha.sep (separates_comparisonWord hword) hb
    · exact .refuse _
  | null | bool flag | int number | float number | str text | list items => exact .refuse _

/-! ## Rows -/

/-- The new values of an update are leaves of its object. -/
theorem assignments_renders (h : Setting S ctx replies) (call : Call) :
    Renders S replies call.operand.leaves (Operator.assignments.render ctx call) := by
  obtain ⟨name, operand, node, column, combinator⟩ := call
  unfold Operator.assignments
  dsimp only
  cases operand with
  | object fields =>
    dsimp only
    split
    · exact .refuse _
    · refine (RendersAll.each fun entry hentry => ?_).map fun ht => ht.commaList
      exact (h.name entry.1).map₂ ((valueExpression_renders h _ entry.2).mono
        (Value.leaves_subset_of_mem_fields hentry)) fun ha hb => .sep (by decide) ha hb
  | null | bool flag | int number | float number | str text | list items => exact .refuse _

/-- The values of a row are leaves of its document, since it has all the columns. -/
theorem documentRow_renders (h : Setting S ctx replies) (columns : List String) (index : Nat)
    (v : Value) : Renders S replies v.leaves (Operator.documentRow ctx columns index v) := by
  cases v with
  | object fields =>
    rw [Operator.documentRow_object]
    split
    · rename_i hcolumns
      refine (RendersAll.each fun column hcolumn => ?_).map
        fun ht => .enclose (by decide) ht.commaList
      exact (valueExpression_renders h _ _).mono
        (Value.leaves_valueOf_subset (Operator.mem_keys_of_hasColumns hcolumns hcolumn))
    · exact .refuse _
  | null | bool flag | int number | float number | str text | list items => exact .refuse _

/-- Rows keep to the leaves of the list of documents. -/
theorem documentRows_renders (h : Setting S ctx replies) (columns : List String) (index : Nat)
    (items : List Value) :
    RendersAll S replies (Value.list items).leaves
      (Operator.documentRows ctx columns index items) := by
  induction items generalizing index with
  | nil => exact .pure fun _ => .nil
  | cons v rest ih =>
    have hfirst := Value.leaves_subset_of_mem_items (List.mem_cons_self (a := v) (l := rest))
    have hrest : (Value.list rest).leaves ⊆ (Value.list (v :: rest)).leaves := by
      rw [Value.leaves_list, Value.leaves_list, List.flatMap_cons]
      exact List.subset_append_right _ _
    exact (documentRow_renders h columns index v).map₂ (ih (index + 1))
      fun row rows => .cons (row.mono hfirst) (rows.mono hrest)

/-- A table of documents is a list of names and a list of rows. -/
theorem documentTable_renders (h : Setting S ctx replies) (items : List Value) :
    Renders S replies (Value.list items).leaves (Operator.documentTable ctx items) := by
  cases items with
  | nil => exact .refuse _
  | cons first rest =>
    cases first with
    | object fields =>
      rcases fields with _ | ⟨⟨key, value⟩, fields⟩
      · exact .refuse _
      · have hnames : RendersAll S replies
            (Value.list (.object ((key, value) :: fields) :: rest)).leaves
            (Rendering.each ctx.name (Fields.keys ((key, value) :: fields))) :=
          .each fun column _ => h.name column
        refine hnames.map₂ (documentRows_renders h _ 0 _) fun {n names us rows ws} ha hb => ?_
        have htext : "(" ++ commaList names ++ ") VALUES " ++ commaList rows =
            ("(" ++ commaList names ++ ")") ++ " VALUES " ++ commaList rows := by
          simp [← String.toList_inj]
        rw [htext]
        exact .sep (by decide) (.enclose (by decide) ha.commaList) hb.commaList
    | null | bool flag | int number | float number | str text | list items => exact .refuse _

theorem documents_renders (h : Setting S ctx replies) (call : Call) :
    Renders S replies call.operand.leaves (Operator.documents.render ctx call) := by
  obtain ⟨name, operand, node, column, combinator⟩ := call
  unfold Operator.documents
  dsimp only
  cases operand with
  | object fields =>
    have hleaves : (Value.list [.object fields]).leaves = (Value.object fields).leaves := by
      simp [Value.leaves_list]
    have := documentTable_renders h [.object fields]
    rwa [hleaves] at this
  | list items => exact documentTable_renders h items
  | null | bool flag | int number | float number | str text => exact .refuse _

/-! ## Table definitions -/

theorem columnDefinition_renders (h : Setting S ctx replies) (name : String) (v : Value) :
    Renders S replies v.leaves (Operator.columnDefinition ctx name v) := by
  cases v with
  | object fields =>
    refine (h.name name).map₂ ?_ fun ha hb => .sep (by decide) ha hb
    split
    · rename_i body
      exact (h.invoke "$column" body _ (some name)).mono
        (Value.leaves_subset_of_mem_fields (List.mem_singleton_self ("$column", body)))
    · exact h.invoke "$column" (.object fields) fields (some name)
  | null | bool flag | int number | float number | str text | list items => exact .refuse _

/-- Definitions of columns have commas between them. -/
theorem definitions_renders (h : Setting S ctx replies) (call : Call) :
    Renders S replies call.operand.leaves (Operator.definitions.render ctx call) := by
  obtain ⟨name, operand, node, column, combinator⟩ := call
  unfold Operator.definitions
  dsimp only
  cases operand with
  | object fields =>
    dsimp only
    split
    · exact .refuse _
    · refine (RendersAll.each fun entry hentry => ?_).map fun ht => ht.commaList
      refine Renders.mono (Value.leaves_subset_of_mem_fields hentry) ?_
      unfold Operator.definition
      split
      · exact h.invoke "$constraint" entry.2 fields none
      · split
        · exact .refuse _
        · exact columnDefinition_renders h entry.1 entry.2
  | null | bool flag | int number | float number | str text | list items => exact .refuse _

/-- A foreign key is made of names and keywords. -/
theorem foreignKey_renders (h : Setting S ctx replies) (v : Value) :
    Renders S replies F (Operator.foreignKey ctx v) := by
  unfold Operator.foreignKey
  split
  · split
    · split
      · refine Ensures.map₃ (nameList_renders h (F := F) _ _) (h.identifier (F := F) _)
          (nameList_renders h (F := F) _ _) fun {n source us table ws keys vs} ha hb hc => ?_
        have htext : "FOREIGN KEY (" ++ source ++ ") REFERENCES " ++ table ++ " (" ++ keys ++ ")" =
            ("FOREIGN KEY (" ++ source ++ ")") ++ " REFERENCES " ++
              (table ++ " " ++ ("(" ++ keys ++ ")")) := by
          simp [← String.toList_inj]
        rw [htext]
        exact (ha.enclose (by decide)).sep (by decide) (hb.sep (by decide) (hc.enclose (by decide)))
      · exact .refuse _
    · exact .refuse _
  · exact .refuse _

/-- So are the other kinds of constraints. -/
theorem constraintBody_renders (h : Setting S ctx replies) (kind : String) (v : Value) :
    Renders S replies F (Operator.constraintBody ctx kind v) := by
  unfold Operator.constraintBody
  split
  · exact (nameList_renders h _ v).map fun ht => .enclose (by decide) ht
  · split
    · exact (nameList_renders h _ v).map fun ht => .enclose (by decide) ht
    · split
      · exact foreignKey_renders h v
      · exact .refuse _

/-- The name of a constraint is rendered after its body and stands before it; neither of them binds
a value. -/
theorem constraint_renders (h : Setting S ctx replies) (entry : String × Value) :
    Renders S replies F (Operator.constraint ctx entry) := by
  unfold Operator.constraint
  split
  · refine Ensures.map₂ (constraintBody_renders h (F := []) _ _) (h.name (F := []) _)
      fun {n body us name ws} hbody hname => ?_
    obtain rfl := List.subset_nil.1 hbody.values_subset
    obtain rfl := List.subset_nil.1 hname.values_subset
    refine Clause.mono (List.nil_subset F) ?_
    exact .sep (by decide) (.lead (by decide) hname) hbody
  · exact .refuse _

theorem constraints_renders (h : Setting S ctx replies) (call : Call) :
    Renders S replies F (Operator.constraints.render ctx call) := by
  unfold Operator.constraints
  dsimp only
  split
  · split
    · exact .refuse _
    · exact (RendersAll.each fun entry _ => constraint_renders h entry).map fun ht => ht.commaList
  · exact .refuse _

/-- A type is checked to be words before it is written. -/
theorem columnType_renders (call : Call) :
    Renders S replies F (Operator.columnType.render ctx call) := by
  unfold Operator.columnType
  dsimp only
  split
  · split
    · rename_i htype
      exact .pure fun _ => clause_upper htype
    · exact .refuse _
  · exact .refuse _

/-- A length begins with its parenthesis, so that it can follow the type without a space. -/
theorem columnLength_renders (call : Call) :
    Ensures S replies (fun n t vs => Clause S F n t vs ∧ t.toList.head? = some '(')
      (Operator.columnLength.render ctx call) := by
  unfold Operator.columnLength
  dsimp only
  split
  · rename_i htext
    exact .pure fun _ => clause_lengthText htext
  · exact .refuse _

/-- A comment is bound. -/
theorem columnComment_renders (call : Call) :
    Renders S replies call.operand.leaves (Operator.columnComment.render ctx call) := by
  obtain ⟨name, operand, node, column, combinator⟩ := call
  unfold Operator.columnComment
  dsimp only
  cases operand with
  | str text => exact .bound (Value.mem_leaves_self rfl)
  | null | bool flag | int number | float number | list items | object fields => exact .refuse _

theorem identityColumn_renders (call : Call) :
    Renders S replies F (Operator.identityColumn.render ctx call) := by
  unfold Operator.identityColumn
  dsimp only
  split
  · rename_i flag _
    cases flag <;> exact .keyword (by decide)
  · exact .keyword (by decide)
  · exact .refuse _

theorem collation_renders (h : Setting S ctx replies) (call : Call) :
    Renders S replies F (Operator.collation.render ctx call) := by
  unfold Operator.collation
  dsimp only
  split
  · split
    · exact .refuse _
    · rw [segment_eq]
      exact .pure fun _ => .segments h.mark _
  · exact .refuse _

/-- A reference is a table with its columns, all of them names. -/
theorem reference_renders (h : Setting S ctx replies) (call : Call) :
    Renders S replies F (Operator.reference.render ctx call) := by
  unfold Operator.reference
  dsimp only
  split
  · exact h.name _
  · rename_i fields _
    split
    · rename_i table _
      split
      · by_cases hcolumns : (Fields.valueOf fields "$columns").isNull = true
        · simp only [hcolumns, if_true]
          exact (h.identifier table).map fun ht => ht
        · simp only [hcolumns]
          refine (h.identifier (F := F) table).map₂ (nameList_renders h (F := F) _ _)
            fun {n target us columns ws} ha hb => ?_
          have htext : target ++ " (" ++ columns ++ ")" =
              target ++ " " ++ ("(" ++ columns ++ ")") := by
            simp [← String.toList_inj]
          rw [htext]
          exact ha.sep (by decide) (hb.enclose (by decide))
      · exact .refuse _
    · exact .refuse _
  · exact .refuse _

theorem objectIds_renders (call : Call) :
    Renders S replies F (Operator.objectIds.render ctx call) := by
  unfold Operator.objectIds
  dsimp only
  split
  · rename_i flag _
    cases flag <;> exact .keyword (by decide)
  · exact .refuse _

/-- A tablespace is a name. -/
theorem tablespace_renders (h : Setting S ctx replies) (call : Call) :
    Renders S replies F (Operator.tablespace.render ctx call) := by
  unfold Operator.tablespace
  dsimp only
  split
  · exact h.name _
  · exact .refuse _

/-! ## Targets of a result -/

/-- Every option that is given is a keyword and the text that is bound for it. -/
theorem optionClauses_renders {options : List (String × Option String)}
    (hkeyword : ∀ entry ∈ options, IsKeyword entry.1)
    (hleaves : ∀ keyword text, (keyword, some text) ∈ options → Value.str text ∈ F) :
    RendersAll S replies F (Operator.optionClauses options) := by
  induction options with
  | nil => exact .pure fun _ => .nil
  | cons entry rest ih =>
    have hrest := ih (fun e he => hkeyword e (List.mem_cons_of_mem _ he))
      fun keyword text he => hleaves keyword text (List.mem_cons_of_mem _ he)
    obtain ⟨keyword, _ | text⟩ := entry
    · exact hrest
    · have hword : IsKeyword keyword := hkeyword _ List.mem_cons_self
      exact (Renders.bound (hleaves keyword text List.mem_cons_self)).map₂ hrest
        fun token clauses => .cons (.sep (by decide) (.keyword hword) token) clauses

/-- A group of options has a keyword of its own, and renders to nothing without options. -/
theorem optionGroup_renders {keyword : String} (hkeyword : IsKeyword keyword)
    {options : List (String × Option String)} (hoptions : ∀ entry ∈ options, IsKeyword entry.1)
    (hleaves : ∀ keyword text, (keyword, some text) ∈ options → Value.str text ∈ F) :
    RendersAll S replies F (Operator.optionGroup keyword options) := by
  refine (optionClauses_renders hoptions hleaves).map fun ht => ?_
  split
  · rename_i hempty
    rwa [List.isEmpty_iff.1 hempty] at ht
  · exact .cons (.keyword hkeyword) ht

/-- A file that rows are written to has its name and its options bound. -/
theorem outfileClause_renders (v : Value) :
    Renders S replies v.leaves (Operator.outfileClause v) := by
  unfold Operator.outfileClause
  split
  · exact .refuse _
  · rename_i options hcheck
    obtain ⟨hfile, hfields, hlines⟩ := leaves_of_check hcheck
    have hfieldClauses : RendersAll S replies v.leaves (Operator.fieldClauses options.fields) := by
      cases hoptions : options.fields with
      | none => exact .pure fun _ => .nil
      | some fields =>
        have hkeywords : ∀ entry ∈ fields.clauses, IsKeyword entry.1 := by
          simp only [FieldOptions.clauses, List.forall_mem_cons]
          decide
        exact optionGroup_renders (by decide) hkeywords (hfields fields hoptions)
    have hlineClauses : RendersAll S replies v.leaves (Operator.lineClauses options.lines) := by
      cases hoptions : options.lines with
      | none => exact .pure fun _ => .nil
      | some lines =>
        have hkeywords : ∀ entry ∈ lines.clauses, IsKeyword entry.1 := by
          simp only [LineOptions.clauses, List.forall_mem_cons]
          decide
        exact optionGroup_renders (by decide) hkeywords (hlines lines hoptions)
    refine (Renders.bound hfile).map₃ hfieldClauses hlineClauses
      fun {n file us fields ws lines vs} hfile hfields hlines => ?_
    have hkeyword : Clause S v.leaves n "OUTFILE" [] := .keyword (by decide)
    exact (Clauses.cons hkeyword (.cons hfile (hfields.append hlines))).join (by decide)

theorem variableName_renders (v : Value) : Renders S replies F (Operator.variableName v) := by
  cases v with
  | str text =>
    unfold Operator.variableName
    dsimp only
    split
    · rename_i hvariable
      exact .pure fun _ => clause_variable hvariable
    · exact .refuse _
  | null | bool flag | int number | float number | list items | object fields => exact .refuse _

/-- What a result is written to binds leaves of the operand at most. -/
theorem target_renders (call : Call) :
    Renders S replies call.operand.leaves (Operator.target.render ctx call) := by
  obtain ⟨name, operand, node, column, combinator⟩ := call
  unfold Operator.target
  dsimp only
  cases operand with
  | list items =>
    dsimp only
    split
    · exact .refuse _
    · exact (RendersAll.each fun v _ => variableName_renders v).map fun ht => ht.commaList
  | object fields =>
    rcases fields with _ | ⟨⟨key, operand⟩, _ | ⟨second, rest⟩⟩
    · exact .refuse _
    · have hleaves := Value.leaves_subset_of_mem_fields (List.mem_singleton_self (key, operand))
      refine Renders.mono hleaves ?_
      dsimp only
      split
      · exact outfileClause_renders operand
      · split
        · cases operand with
          | str path =>
            dsimp only
            split
            · exact .refuse _
            · exact (Renders.bound (Value.mem_leaves_self rfl)).map fun ht => .lead (by decide) ht
          | null | bool flag | int number | float number | list items | object fields =>
            exact .refuse _
        · exact .refuse _
    · exact .refuse _
  | null | bool flag | int number | float number | str text => exact .refuse _

theorem outfile_renders (call : Call) :
    Renders S replies call.operand.leaves (Operator.outfile.render ctx call) :=
  (outfileClause_renders call.operand).map fun ht => .lead (by decide) ht

end QueryTree.Sql
