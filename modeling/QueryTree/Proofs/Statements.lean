import QueryTree.Proofs.Dialects
import QueryTree.Proofs.OperatorClauses
import QueryTree.Proofs.TemplateClauses

/-!
# Every statement is a clause

The operators of the three dialects render clauses one by one, the templates because their parts
fit; by induction over nested calls, so does every statement.

* `Sql.Handles` : the operator of a name does what is asked of answers to calls.
* `Sql.Fits.clause` and its sisters : the parts that templates are made of fit, and so do the
  templates of the library, one by one.
* **`handles_of_mem`** : every operator of the library.
* **`Dialect.clause_of_compile`** : a compiled query is a clause whose values are leaves of the
  query, whatever style of placeholders the dialect is given.
-/

namespace QueryTree

namespace Sql

open Template (clauseNode)

/-! ## Templates -/

/-- An optional clause: keywords and a reference in a group of their own. -/
theorem Fits.clause {first : Bool} {words : List String} {key : String}
    {rest : List Template.Node} (hwords : ∀ word ∈ words, IsKeyword word)
    (others : Fits false rest) : Fits first (clauseNode words key :: rest) := by
  have hinner : ∀ first, Fits first (words.map (.word · true) ++ [.inline key true]) := by
    induction words with
    | nil => exact fun first => .reference (.inline key true) (by simp) .nil
    | cons word words ih =>
      intro first
      exact .word (hwords word List.mem_cons_self) (by simp)
        (ih (fun w hw => hwords w (List.mem_cons_of_mem _ hw)) false)
  exact .group (hinner true) others

/-- A keyword with a space before it. -/
theorem Fits.words {first : Bool} {text : String} {rest : List Template.Node}
    (htext : IsKeyword text) (others : Fits false rest) :
    Fits first (.word text true :: rest) :=
  .word htext (by simp) others

/-- A reference with a space before it. -/
theorem Fits.inline {first : Bool} {key : String} {rest : List Template.Node}
    (others : Fits false rest) : Fits first (.inline key true :: rest) :=
  .reference (.inline key true) (by simp) others

theorem Fits.required {first : Bool} {key : String} {rest : List Template.Node}
    (others : Fits false rest) : Fits first (.required key true :: rest) :=
  .reference (.required key true) (by simp) others

/-- The type of a column, with its sizes. -/
theorem Fits.typed {rest : List Template.Node} (others : Fits false rest) :
    Fits true (.required "$type" true :: .inline "$length" false :: rest) :=
  .required (.reference (.inline _ _) (.inr rfl) others)

end Sql

open Sql

namespace Ansi

/-- The templates of the base dialect fit, beginning with that of a selection. -/
theorem fits_select : Fits true selectTemplate.nodes := by
  refine .words (by decide) (.clause (by decide) (.inline ?_))
  refine .clause (by decide) (.clause (by decide) (.clause (by decide) (.clause (by decide) ?_)))
  exact .clause (by decide) (.clause (by decide) (.clause (by decide) (.clause (by decide) .nil)))

theorem fits_insert : Fits true insertTemplate.nodes :=
  .word (by decide) rfl (.words (by decide) (.required (.required .nil)))

theorem fits_update : Fits true updateTemplate.nodes :=
  .word (by decide) rfl (.required (.words (by decide) (.required (.clause (by decide) .nil))))

theorem fits_delete : Fits true deleteTemplate.nodes :=
  .word (by decide) rfl (.words (by decide) (.required (.clause (by decide) .nil)))

theorem fits_createTable : Fits true createTableTemplate.nodes := by
  refine .words (by decide) (.clause (by decide) (.words (by decide) (.clause (by decide) ?_)))
  exact .required (.enclosed (.series true false (by decide) (by decide)) .nil)

theorem fits_dropTable : Fits true dropTableTemplate.nodes :=
  .word (by decide) rfl (.words (by decide) (.clause (by decide) (.required .nil)))

theorem fits_column : Fits true columnTemplate.nodes :=
  .typed (.clause (by decide) (.clause (by decide) (.clause (by decide)
    (.clause (by decide) .nil))))

end Ansi

namespace Mysql

/-- The templates of MySQL fit in the same way. -/
theorem fits_select : Fits true selectTemplate.nodes := by
  refine .words (by decide) (.clause (by decide) (.clause (by decide) (.inline ?_)))
  refine .clause (by decide) (.clause (by decide) (.clause (by decide) (.clause (by decide) ?_)))
  refine .group (.words (by decide) (.words (by decide) (.inline (.clause (by decide) .nil)))) ?_
  refine .clause (by decide) (.clause (by decide) (.clause (by decide) (.clause (by decide) ?_)))
  exact .inline .nil

theorem fits_column : Fits true columnTemplate.nodes := by
  refine .typed (.clause (by decide) (.clause (by decide) (.clause (by decide) ?_)))
  exact .clause (by decide) (.clause (by decide) (.clause (by decide) .nil))

end Mysql

namespace Postgres

/-- So do the templates of PostgreSQL. -/
theorem fits_createTable : Fits true createTableTemplate.nodes := by
  refine .words (by decide) (.clause (by decide) (.clause (by decide) (.words (by decide) ?_)))
  refine .clause (by decide) (.required (.enclosed (.series true false (by decide) (by decide)) ?_))
  refine .group (.words (by decide) (.enclosed (.inline _ _) .nil)) ?_
  exact .clause (by decide) .nil

theorem fits_column : Fits true columnTemplate.nodes := by
  refine .typed (.clause (by decide) (.clause (by decide) (.inline (.clause (by decide) ?_))))
  refine .clause (by decide) (.clause (by decide) ?_)
  refine .group (.words (by decide) (.enclosed (.inline _ _) .nil)) ?_
  exact .clause (by decide) .nil

theorem fits_storage : Fits true storageTemplate.nodes :=
  .reference (.inline _ _) (.inl rfl) .nil

end Postgres

/-! ## Operators -/

namespace Sql

/-- Whatever the operator answers is what is asked of answers. -/
def Handles (S : Scheme) (operator : String) (handler : Handler) : Prop :=
  ∀ ctx replies call, Setting S ctx replies → call.operator = operator →
    Ensures S replies (Answered S call) (handler.render ctx call)

variable {S : Scheme}

/-- For most operators it is enough that they render clauses. -/
theorem Handles.of_renders {operator : String} {handler : Handler}
    (hname : operator ≠ "$length" ∧ operator ≠ "$columns")
    (h : ∀ ctx replies call, Setting S ctx replies →
      Renders S replies call.operand.leaves (handler.render ctx call)) :
    Handles S operator handler := by
  intro ctx replies call hsetting hcall n t vs hyields
  refine ⟨h ctx replies call hsetting n t vs hyields, ?_, ?_⟩
  · exact fun hlength => absurd (hcall ▸ hlength) hname.1
  · exact fun hcolumns => absurd (hcall ▸ hcolumns) hname.2

/-- An operator with a template that fits renders clauses, if its defaults are supplied values. -/
theorem handles_template {t : Template} (hname : t.name ≠ "$length" ∧ t.name ≠ "$columns")
    (hfits : Fits true t.nodes) {defaults : Fields}
    (hdefaults : ∀ entry ∈ defaults, ∀ F, Supplied F entry.1 entry.2) :
    Handles S t.name (t.handler defaults) :=
  .of_renders hname fun _ _ call h => template_renders h hfits hdefaults call

/-- The columns of a result; a single name among them is only quoted. -/
theorem handles_resultColumns : Handles S "$columns" Operator.resultColumns := by
  intro ctx replies call h hcall n t vs hyields
  refine ⟨projection_renders h call.operand n t vs hyields, ?_, ?_⟩
  · intro hlength
    rw [hcall] at hlength
    exact absurd hlength (by decide)
  · intro _ name hname
    have hyields' : (ctx.name name).Yields S.text replies n t vs := by
      simpa only [Operator.resultColumns, hname, projection] using hyields
    exact (Rendering.yields_ofExcept.1 hyields').2

/-- A length begins with its parenthesis, because it follows the type without a space. -/
theorem handles_columnLength : Handles S "$length" Operator.columnLength := by
  intro ctx replies call h hcall n t vs hyields
  have hlength := columnLength_renders (F := call.operand.leaves) call n t vs hyields
  refine ⟨hlength.1, fun _ => hlength.2, fun hcolumns => ?_⟩
  rw [hcall] at hcolumns
  exact absurd hcolumns (by decide)

/-- The operators with a template in the base dialect. -/
theorem handles_ansi_templates :
    ∀ entry ∈ Ansi.templated, Handles S entry.1.name (entry.1.handler entry.2) := by
  have hselect : ∀ entry ∈ Ansi.selectDefaults, ∀ F, Supplied F entry.1 entry.2 := by
    simp only [Ansi.selectDefaults, List.forall_mem_singleton]
    exact fun F => .inr ⟨rfl, _, rfl⟩
  simp only [Ansi.templated, List.forall_mem_cons]
  refine ⟨handles_template (by decide) Ansi.fits_select hselect, ?_⟩
  refine ⟨handles_template (by decide) Ansi.fits_insert (by simp), ?_⟩
  refine ⟨handles_template (by decide) Ansi.fits_update (by simp), ?_⟩
  refine ⟨handles_template (by decide) Ansi.fits_delete (by simp), ?_⟩
  refine ⟨handles_template (by decide) Ansi.fits_createTable (by simp), ?_⟩
  refine ⟨handles_template (by decide) Ansi.fits_dropTable (by simp), ?_⟩
  exact ⟨handles_template (by decide) Ansi.fits_column (by simp), by simp⟩

/-- Flags render to nothing. -/
theorem handles_flags {names : List String}
    (hnames : ∀ name ∈ names, name ≠ "$length" ∧ name ≠ "$columns") :
    ∀ entry ∈ names.map (fun name => (name, Operator.flag name)), Handles S entry.1 entry.2 := by
  rw [List.forall_mem_map]
  exact fun name hname => .of_renders (hnames name hname) fun _ _ call _ => flag_renders name call

/-- An aggregate opens its parenthesis right after its name. -/
theorem handles_aggregates :
    ∀ entry ∈ Ansi.aggregates.map (fun entry => (entry.1, Operator.aggregate entry.2 entry.1)),
      Handles S entry.1 entry.2 := by
  have hnames : ∀ entry ∈ Ansi.aggregates, (entry.1 ≠ "$length" ∧ entry.1 ≠ "$columns") ∧
      Encloses (entry.2 ++ "(") ")" := by decide
  rw [List.forall_mem_map]
  exact fun entry hentry => .of_renders (hnames entry hentry).1
    fun _ _ call h => aggregate_renders h (hnames entry hentry).2 entry.1 call

/-- The words of the comparisons have spaces around them. -/
theorem handles_comparisons :
    ∀ entry ∈ comparisonWords.map (fun entry => (entry.1, Operator.comparison entry.1 entry.2)),
      Handles S entry.1 entry.2 := by
  have hnames : ∀ entry ∈ comparisonWords, (entry.1 ≠ "$length" ∧ entry.1 ≠ "$columns") ∧
      Separates (" " ++ entry.2 ++ " ") := by decide
  rw [List.forall_mem_map]
  exact fun entry hentry => .of_renders (hnames entry hentry).1
    fun _ _ call h => comparison_renders h (hnames entry hentry).2 entry.1 call

/-- The operators of the base dialect without a template. -/
theorem handles_ansi_operators : ∀ entry ∈ Ansi.operators, Handles S entry.1 entry.2 := by
  simp only [Ansi.operators, List.forall_mem_append]
  refine ⟨⟨⟨⟨⟨?_, handles_flags (by decide)⟩, ?_⟩, handles_aggregates⟩, handles_comparisons⟩, ?_⟩
  · simp only [List.forall_mem_cons]
    refine ⟨handles_resultColumns, ?_⟩
    refine ⟨.of_renders (by decide) fun _ _ call h => tables_renders h call, ?_⟩
    refine ⟨.of_renders (by decide) fun _ _ call h => tables_renders h call, ?_⟩
    refine ⟨.of_renders (by decide) fun _ _ call h => condition_renders h call.operand none, ?_⟩
    refine ⟨.of_renders (by decide) fun _ _ call h => condition_renders h call.operand none, ?_⟩
    refine ⟨.of_renders (by decide) fun _ _ call h => nameList_renders h _ call.operand, ?_⟩
    refine ⟨.of_renders (by decide) fun _ _ call h => sortColumns_renders h call.operand, ?_⟩
    refine ⟨.of_renders (by decide) fun _ _ call h => limit_renders h call, ?_⟩
    refine ⟨.of_renders (by decide) fun _ _ call _ => offset_renders call, ?_⟩
    refine ⟨.of_renders (by decide) fun _ _ call h => assignments_renders h call, ?_⟩
    exact ⟨.of_renders (by decide) fun _ _ call h => documents_renders h call, by simp⟩
  · simp only [List.forall_mem_singleton]
    exact .of_renders (by decide) fun _ _ call _ => boundValue_renders call
  · simp only [List.forall_mem_cons]
    refine ⟨.of_renders (by decide) fun _ _ call h => membership_renders h (by decide) _ call, ?_⟩
    refine ⟨.of_renders (by decide) fun _ _ call h => membership_renders h (by decide) _ call, ?_⟩
    refine ⟨.of_renders (by decide) fun _ _ call h => between_renders h call, ?_⟩
    refine ⟨.of_renders (by decide) fun _ _ call h => nullTest_renders h call, ?_⟩
    refine ⟨.of_renders (by decide) fun _ _ call h => definitions_renders h call, ?_⟩
    refine ⟨.of_renders (by decide) fun _ _ call h => constraints_renders h call, ?_⟩
    refine ⟨.of_renders (by decide) fun _ _ call _ => columnType_renders call, ?_⟩
    refine ⟨handles_columnLength, ?_⟩
    exact ⟨.of_renders (by decide) fun _ _ call h => valueExpression_renders h _ call.operand,
      by simp⟩

/-- The operators that MySQL adds or replaces. -/
theorem handles_mysql : ∀ entry ∈ Mysql.table, Handles S entry.1 entry.2 := by
  have hselect : ∀ entry ∈ Ansi.selectDefaults, ∀ F, Supplied F entry.1 entry.2 := by
    simp only [Ansi.selectDefaults, List.forall_mem_singleton]
    exact fun F => .inr ⟨rfl, _, rfl⟩
  simp only [Mysql.table, Mysql.operators, List.forall_mem_append, List.forall_mem_cons]
  refine ⟨⟨?_, ?_, by simp⟩, ?_, ?_, ?_, ?_, ?_, ?_, by simp⟩
  · exact handles_template (t := Mysql.selectTemplate) (by decide) Mysql.fits_select hselect
  · exact handles_template (t := Mysql.columnTemplate) (by decide) Mysql.fits_column (by simp)
  · exact .of_renders (by decide) fun _ _ call _ => target_renders call
  · exact .of_renders (by decide) fun _ _ call _ => outfile_renders call
  · exact .of_renders (by decide) fun _ _ call _ => columnComment_renders call
  · exact .of_renders (by decide) fun _ _ call _ => flag_renders _ call
  · exact .of_renders (by decide) fun _ _ call _ => flag_renders _ call
  · exact .of_renders (by decide) fun _ _ call _ => flag_renders _ call

/-- The operators that PostgreSQL adds or replaces. -/
theorem handles_postgres : ∀ entry ∈ Postgres.table, Handles S entry.1 entry.2 := by
  simp only [Postgres.table, Postgres.operators, List.forall_mem_append, List.forall_mem_cons]
  refine ⟨⟨?_, ?_, ?_, by simp⟩, ?_, ?_, ?_, ?_, ?_, ?_, ?_, ?_, by simp⟩
  · exact handles_template (t := Postgres.createTableTemplate) (by decide)
      Postgres.fits_createTable (by simp)
  · exact handles_template (t := Postgres.columnTemplate) (by decide) Postgres.fits_column (by simp)
  · exact handles_template (t := Postgres.storageTemplate) (by decide) Postgres.fits_storage
      (by simp)
  · exact .of_renders (by decide) fun _ _ call h => comparison_renders h (by decide) _ call
  · exact .of_renders (by decide) fun _ _ call _ => flag_renders _ call
  · exact .of_renders (by decide) fun _ _ call _ => identityColumn_renders call
  · exact .of_renders (by decide) fun _ _ call h => collation_renders h call
  · exact .of_renders (by decide) fun _ _ call h => condition_renders h call.operand none
  · exact .of_renders (by decide) fun _ _ call h => reference_renders h call
  · exact .of_renders (by decide) fun _ _ call _ => objectIds_renders call
  · exact .of_renders (by decide) fun _ _ call h => tablespace_renders h call

/-- Every operator of the library. -/
theorem handles_of_mem {entry : String × Handler}
    (h : entry ∈ Ansi.table ++ Mysql.table ++ Postgres.table) : Handles S entry.1 entry.2 := by
  simp only [List.mem_append, Ansi.table] at h
  rcases h with (((h | h) | h) | h) | h
  · obtain ⟨templated, hmem, rfl⟩ := List.mem_map.1 h
    exact handles_ansi_templates templated hmem
  · exact handles_ansi_operators entry h
  · revert entry
    simp only [List.forall_mem_cons]
    refine ⟨.of_renders (by decide) fun _ _ call h => expressionTest_renders h call, ?_⟩
    exact ⟨.of_renders (by decide) fun _ _ call h => negation_renders h call, by simp⟩
  · exact handles_mysql entry h
  · exact handles_postgres entry h

end Sql

/-! ## Statements -/

namespace Dialect

/-- What the settings of the dialects of the library have in common. -/
structure Settled (d : Dialect) : Prop where
  mark : IsMark d.quoting.mark
  maxLimit : IsKeyword d.maxLimit
  placeholder : d.placeholder = .question ∨ d.placeholder = .numbered
  predicates : d.predicates = Ansi.predicates

/-- The dialects of the library have what is said of their settings. -/
theorem settled_of_mem {d : Dialect} (hd : d ∈ library) : d.Settled := by
  simp only [library, List.mem_cons, List.not_mem_nil, or_false] at hd
  rcases hd with rfl | rfl | rfl
  · rw [ansi_eq]
    exact ⟨.inl rfl, by decide, .inl rfl, rfl⟩
  · rw [mysql_eq]
    exact ⟨.inl rfl, by decide, .inl rfl, rfl⟩
  · rw [postgres_eq]
    exact ⟨.inr rfl, by decide, .inr rfl, rfl⟩

/-- The scheme of a dialect of the library under either style of placeholders. -/
theorem exists_scheme {d : Dialect} (hd : d ∈ library) {style : Placeholder}
    (hstyle : style = .question ∨ style = .numbered) :
    ∃ S : Scheme, d.quoting.mark = S.mark ∧ style = S.text := by
  rcases hstyle with rfl | rfl
  · exact ⟨.question _ (settled_of_mem hd).mark, rfl, rfl⟩
  · exact ⟨.numbered _ (settled_of_mem hd).mark, rfl, rfl⟩

/-- Every reply of a dialect of the library is what is asked of answers. -/
theorem answered_of_replies {d : Dialect} (hd : d ∈ library) {S : Scheme}
    (hmark : d.quoting.mark = S.mark) {depth : Nat} {call : Call} {n : Nat} {t : String}
    {vs : List Value} (h : Dialect.replies { d with placeholder := S.text } depth call n t vs) :
    Answered S call n t vs := by
  refine replies_induction _ ?_ h
  intro replies hreplies call handler hfind n t vs hyields
  have hsetting : Setting S (Dialect.context { d with placeholder := S.text } call.combinator)
      replies := ⟨hmark, (settled_of_mem hd).maxLimit, hreplies⟩
  exact handles_of_mem (find?_mem hd hfind) _ _ call hsetting rfl n t vs hyields

/-- A compiled query is a clause whose values are leaves of the query. -/
theorem clause_of_compile {d : Dialect} (hd : d ∈ library) {S : Scheme}
    (hmark : d.quoting.mark = S.mark) {query : Value} {statement : Statement}
    (h : Dialect.compile { d with placeholder := S.text } query = .ok statement) :
    Clause S query.leaves 0 statement.sql statement.values := by
  obtain ⟨-, hroot⟩ := (compile_eq_ok_iff _ query statement).1 h
  unfold rootStatement at hroot
  split at hroot
  · rename_i name body
    split at hroot
    · have hanswer := answered_of_replies hd hmark (Rendering.yields_invoke.1 hroot)
      exact hanswer.clause.mono
        (Value.leaves_subset_of_mem_fields (List.mem_singleton_self (name, body)))
    · exact (Rendering.yields_refuse.1 hroot).elim
  · exact (Rendering.yields_refuse.1 hroot).elim
  · exact (Rendering.yields_refuse.1 hroot).elim

end Dialect

end QueryTree
