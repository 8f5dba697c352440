import Mathlib.Logic.Relation
import QueryTree.Proofs.BareCalls
import QueryTree.Proofs.FilledTemplates

/-!
# Clauses without gaps

A statement has no gap if nothing is missing in the query.  Two things can be: the names of a list,
of which there are none in an empty object, and the text of a value, of which there is none if a
switch stands in its place.

* `Rendering.Makes` : the calls that a program can make.
* `Dialect.Asks` : the calls that are made to answer a call.
* `Call.IsSilent` : a switch, or the identity of a column that has none.
* `Dialect.Complete` : no call that is made to answer this one is bare, and no value is silent.
* `Sql.Handled` : an operator answers calls that are not bare as it has to.
* **`Dialect.answers_of_replies`** : complete calls are answered without a gap.
* **`Dialect.gapless_of_complete`** : so are all calls that they lead to, and so are queries
  compiled; some clauses have a gap exactly if they are bare.
-/

namespace QueryTree

open Rendering (Yields)

/-! ## Calls -/

namespace Rendering

variable {α : Type}

/-- The program can make the call. -/
def Makes (c : Call) : Rendering α → Prop
  | .done _ => False
  | .refuse _ => False
  | .bind _ next => ∃ token, (next token).Makes c
  | .call request next => c = request ∨ ∃ text, (next text).Makes c
  | .count next => ∃ n, (next n).Makes c

/-- Only the replies to calls that a program can make count. -/
theorem Yields.made {token : Nat → String} {replies : ReplyRel} {x : Rendering α} {n : Nat} {a : α}
    {vs : List Value} (h : x.Yields token replies n a vs) :
    x.Yields token (fun c n t vs => x.Makes c ∧ replies c n t vs) n a vs := by
  induction x generalizing n vs with
  | done result => exact h
  | refuse fault => exact h
  | bind value next ih =>
    obtain ⟨ws, hnext, rfl⟩ := h
    exact ⟨ws, (ih _ hnext).mono fun c _ _ _ hc => ⟨⟨_, hc.1⟩, hc.2⟩, rfl⟩
  | call request next ih =>
    obtain ⟨text, us, ws, hreply, hnext, rfl⟩ := h
    refine ⟨text, us, ws, ⟨.inl rfl, hreply⟩, ?_, rfl⟩
    exact (ih _ hnext).mono fun c _ _ _ hc => ⟨.inr ⟨_, hc.1⟩, hc.2⟩
  | count next ih => exact (ih _ h).mono fun c _ _ _ hc => ⟨⟨_, hc.1⟩, hc.2⟩

end Rendering

/-- The names of the operators that templates render. -/
def templatedNames : List String :=
  templatedOperators.map fun entry => entry.1.name

namespace Call

/-- A call that renders to nothing: a switch, or the identity of a column that has none. -/
def IsSilent (call : Call) : Prop :=
  call.operator ∈ switches ∨ call.operator = "$identity" ∧ call.operand = .bool false

end Call

namespace Dialect

/-- The dialect can make the call `next` to answer `call`. -/
def Asks (d : Dialect) (call next : Call) : Prop :=
  ∃ handler, d.registry.find? call.operator = some handler ∧
    (handler.render (d.context call.combinator) call).Makes next

/-- Neither the call nor any that is made to answer it is bare, and none of them is silent where
another operator than a template needs its text. -/
inductive Complete (d : Dialect) : Call → Prop where
  | intro {call : Call} (filled : ¬ call.IsBare)
      (values : call.operator ∉ templatedNames → ∀ next, d.Asks call next → ¬ next.IsSilent)
      (nested : ∀ next, d.Asks call next → Complete d next) : Complete d call

/-- Nothing is missing in the calls that a complete call leads to. -/
theorem Complete.of_asks {d : Dialect} {call next : Call} (h : d.Complete call)
    (hasks : Relation.ReflTransGen d.Asks call next) : d.Complete next := by
  induction hasks with
  | refl => exact h
  | tail _ hlast ih =>
    obtain ⟨-, -, hnested⟩ := ih
    exact hnested _ hlast

/-- Completeness by looking at the program of an operator. -/
theorem Complete.of_find {d : Dialect} {call : Call} {handler : Handler}
    (hfind : d.registry.find? call.operator = some handler) (hfilled : ¬ call.IsBare)
    (h : ∀ next, (handler.render (d.context call.combinator) call).Makes next →
      d.Complete next ∧ ¬ next.IsSilent) : d.Complete call := by
  have hasks : ∀ next, d.Asks call next → d.Complete next ∧ ¬ next.IsSilent := by
    rintro next ⟨handler', hfind', hmakes⟩
    rw [hfind, Option.some.injEq] at hfind'
    exact h next (hfind' ▸ hmakes)
  exact ⟨hfilled, fun _ next hnext => (hasks next hnext).2, fun next hnext => (hasks next hnext).1⟩

end Dialect

/-! ## Operators -/

namespace Sql

variable {S : Scheme} {ctx : Context} {replies : ReplyRel}

/-- What a call has to be answered with. -/
def Answers (S : Scheme) (call : Call) (text : String) : Prop :=
  (call.IsSilent → text = "") ∧ (¬ call.IsSilent → Filled S.mark text)

/-- A context whose fixed texts are filled, and the answers to the calls of an operator. -/
structure Prepared (S : Scheme) (ctx : Context) (replies : ReplyRel) (operator : String) : Prop
    extends Styled S ctx where
  answers : ∀ call n t vs, replies call n t vs → Answers S call t
  values : operator ∉ templatedNames → ∀ call n t vs, replies call n t vs → ¬ call.IsSilent

/-- An operator without a template only gets answers that fill their place. -/
theorem Prepared.furnished {operator : String} (h : Prepared S ctx replies operator)
    (hoperator : operator ∉ templatedNames) : Furnished S ctx replies where
  toStyled := h.toStyled
  answered call n t vs hreply :=
    (h.answers call n t vs hreply).2 (h.values hoperator call n t vs hreply)

/-- Only a few operators can be silent. -/
theorem not_isSilent {call : Call} (h : call.operator ∉ quietKeys) : ¬ call.IsSilent := by
  rintro (hswitch | ⟨hidentity, -⟩)
  · exact h (List.mem_cons_of_mem _ hswitch)
  · exact h (hidentity ▸ List.mem_cons_self)

/-- The answers to the references of a template are what the template was checked with. -/
theorem Prepared.attended {operator : String} (h : Prepared S ctx replies operator) :
    Attended S replies where
  answered call n t vs hreply := by
    by_cases hsilent : call.IsSilent
    · exact .inl ((h.answers call n t vs hreply).1 hsilent)
    · exact .inr ((h.answers call n t vs hreply).2 hsilent)
  filled call n t vs hreply hkey := (h.answers call n t vs hreply).2 (not_isSilent hkey)

/-- The operator of a name answers calls that are not bare as it has to. -/
def Handled (S : Scheme) (operator : String) (handler : Handler) : Prop :=
  ∀ ctx replies call, call.operator = operator → ¬ call.IsBare → Prepared S ctx replies operator →
    Ensures S replies (fun _ t _ => Answers S call t) (handler.render ctx call)

/-- An operator that always has a text. -/
theorem Handled.of_fills {operator : String} {handler : Handler}
    (hname : operator ∉ templatedNames ∧ operator ∉ quietKeys)
    (h : ∀ ctx replies call, call.operator = operator → ¬ call.IsBare → Furnished S ctx replies →
      Fills S replies (handler.render ctx call)) : Handled S operator handler := by
  intro ctx replies call hcall hbare hprepared n t vs hyields
  have hsilent : ¬ call.IsSilent := not_isSilent (hcall ▸ hname.2)
  refine ⟨fun h => absurd h hsilent, fun _ => ?_⟩
  exact h ctx replies call hcall hbare (hprepared.furnished hname.1) n t vs hyields

/-- An operator that always has a text, whatever its operand is. -/
theorem Handled.always {operator : String} {handler : Handler}
    (hname : operator ∉ templatedNames ∧ operator ∉ quietKeys)
    (h : ∀ ctx replies call, Furnished S ctx replies →
      Fills S replies (handler.render ctx call)) : Handled S operator handler :=
  .of_fills hname fun ctx replies call _ _ hfurnished => h ctx replies call hfurnished

/-- A flag renders to nothing, and is expected to. -/
theorem handled_flag {operator : String} (hname : operator ∈ switches) :
    Handled S operator (Operator.flag operator) := by
  intro ctx replies call hcall _ _
  have hsilent : call.IsSilent := .inl (hcall ▸ hname)
  unfold Operator.flag
  dsimp only
  split
  · exact .pure fun _ => ⟨fun _ => rfl, fun h => absurd hsilent h⟩
  · exact .refuse _

theorem handled_identity : Handled S "$identity" Operator.identityColumn := by
  have halways : Stands "GENERATED ALWAYS AS IDENTITY" := by decide
  have hdefault : Stands "GENERATED BY DEFAULT AS IDENTITY" := by decide
  intro ctx replies call hcall _ _
  have hsilent : call.IsSilent ↔ call.operand = .bool false := by
    simp [Call.IsSilent, hcall, switches, Ansi.flags]
  unfold Operator.identityColumn
  dsimp only
  split
  · rename_i flag hoperand
    refine .pure fun _ => ?_
    rw [Answers, hsilent, hoperand]
    cases flag with
    | true => simpa using halways.filled
    | false => simp
  · rename_i hoperand
    refine .pure fun _ => ?_
    rw [Answers, hsilent, hoperand]
    simpa using hdefault.filled
  · exact .refuse _

/-- The storage of a table has an option unless the call is bare, and the other templates need
nothing. -/
theorem handled_template (entry : Template × Fields) (hentry : entry ∈ templatedOperators) :
    Handled S entry.1.name (entry.1.handler entry.2) := by
  have htemplates : ∀ entry ∈ templatedOperators, entry.1.name ∉ quietKeys ∧
      (entry.1.name = "$with" → entry.2.isEmpty = true) := by decide +kernel
  obtain ⟨hname, hdefaults⟩ := htemplates entry hentry
  intro ctx replies call hcall hbare hprepared n t vs hyields
  have hsilent : ¬ call.IsSilent := not_isSilent (hcall ▸ hname)
  refine ⟨fun h => absurd h hsilent, fun _ => ?_⟩
  refine template_fills hprepared.attended (nodesEnd_templated entry hentry) ?_ n t vs hyields
  intro fields hoperand key hkey
  unfold neededKeys at hkey
  split at hkey
  · rename_i hstorage
    rw [List.mem_singleton.1 hkey, List.isEmpty_iff.1 (hdefaults hstorage)]
    rw [isBare_with_iff (hcall.trans hstorage)] at hbare
    by_contra hnull
    exact hbare ⟨fields, hoperand, by simpa using hnull⟩
  · simp at hkey

/-- Operators that make no call. -/
theorem handled_leaf (entry : String × Handler) (hentry : entry ∈ leafOperators) :
    Handled S entry.1 entry.2 := by
  have hnames : ∀ name ∈ leafNames, name ∉ templatedNames ∧ name ∉ quietKeys := by decide +kernel
  have hname := hnames entry.1 (List.mem_map_of_mem hentry)
  exact .of_fills hname fun _ _ call hcall hbare h =>
    leaf_fills h.toStyled entry hentry call hcall hbare

/-- The operators that are neither templates nor switches and that need the texts of others, or
have a text for some of their operands only. -/
def branchOperators : List (String × Handler) :=
  [("$columns", Operator.resultColumns), ("$where", Operator.filter),
    ("$having", Operator.filter), ("$set", Operator.assignments),
    ("$documents", Operator.documents), ("$val", Operator.boundValue)]
  ++ Ansi.aggregates.map (fun entry => (entry.1, Operator.aggregate entry.2 entry.1))
  ++ comparisonWords.map (fun entry => (entry.1, Operator.comparison entry.1 entry.2))
  ++ [("$in", Operator.membership "$in" "IN"), ("$nin", Operator.membership "$nin" "NOT IN"),
    ("$between", Operator.between), ("$isNull", Operator.nullTest),
    ("$define", Operator.definitions), ("$default", Operator.columnDefault),
    ("$expr", Operator.expressionTest), ("$not", Operator.negation),
    ("$ilike", Operator.comparison "$ilike" "ILIKE"), ("$identity", Operator.identityColumn),
    ("$check", Operator.check)]

/-- Operators that call others, whose answers fill their places. -/
theorem handled_branch : ∀ entry ∈ branchOperators, Handled S entry.1 entry.2 := by
  have hnames : ∀ entry ∈ Ansi.aggregates ++ comparisonWords,
      entry.1 ∉ templatedNames ∧ entry.1 ∉ quietKeys := by decide +kernel
  have haggregates : ∀ entry ∈ Ansi.aggregates, Opens (entry.2 ++ "(") := by decide
  have hwords : ∀ entry ∈ comparisonWords, Joins (" " ++ entry.2 ++ " ") := by decide
  simp only [branchOperators, List.forall_mem_append, List.forall_mem_map, List.forall_mem_cons]
  refine ⟨⟨⟨⟨?_, ?_, ?_, ?_, ?_, ?_, by simp⟩, fun entry hentry => ?_⟩, fun entry hentry => ?_⟩,
    ?_, ?_, ?_, ?_, ?_, ?_, ?_, ?_, ?_, handled_identity, ?_, by simp⟩
  · exact .always (by decide) fun _ _ call h => projection_fills h call.operand
  · exact .always (by decide) fun _ _ call h => condition_fills h call.operand none
  · exact .always (by decide) fun _ _ call h => condition_fills h call.operand none
  · exact .always (by decide) fun _ _ call h => assignments_fills h call
  · exact .always (by decide) fun _ _ call h => documents_fills h call
  · exact .always (by decide) fun _ _ call h => boundValue_fills h call
  · exact .always (hnames entry (List.mem_append_left _ hentry))
      fun _ _ call h => aggregate_fills h (haggregates entry hentry) entry.1 call
  · exact .always (hnames entry (List.mem_append_right _ hentry))
      fun _ _ call h => comparison_fills h (hwords entry hentry) entry.1 call
  · exact .always (by decide) fun _ _ call h => membership_fills h (by decide) _ call
  · exact .always (by decide) fun _ _ call h => membership_fills h (by decide) _ call
  · exact .always (by decide) fun _ _ call h => between_fills h call
  · exact .always (by decide) fun _ _ call h => nullTest_fills h call
  · exact .always (by decide) fun _ _ call h => definitions_fills h call
  · exact .always (by decide) fun _ _ call h => valueExpression_fills h _ call.operand
  · exact .always (by decide) fun _ _ call h => expressionTest_fills h call
  · exact .always (by decide) fun _ _ call h => negation_fills h call
  · exact .always (by decide) fun _ _ call h => comparison_fills h (by decide) _ call
  · exact .always (by decide) fun _ _ call h => condition_fills h call.operand none

/-- Every operator of the library is a template, makes no calls, is a switch or needs the texts of
others. -/
theorem handled_of_mem {entry : String × Handler}
    (h : entry ∈ Ansi.table ++ Mysql.table ++ Postgres.table) : Handled S entry.1 entry.2 := by
  have hkinds : ∀ entry ∈ Ansi.table ++ Mysql.table ++ Postgres.table,
      entry.1 ∈ templatedNames ∨ entry.1 ∈ leafNames ∨ entry.1 ∈ switches ∨
        entry.1 ∈ branchOperators.map Prod.fst := by decide +kernel
  rcases hkinds entry h with hname | hname | hname | hname
  · have hmem : entry ∈ templatedOperators.map
        (fun entry => (entry.1.name, entry.1.handler entry.2)) := mem_of_names rfl h hname
    obtain ⟨templated, htemplated, rfl⟩ := List.mem_map.1 hmem
    exact handled_template templated htemplated
  · exact handled_leaf entry (mem_leafOperators h hname)
  · have hmem : entry ∈ switches.map (fun name => (name, Operator.flag name)) :=
      mem_of_names rfl h hname
    obtain ⟨name, hswitch, rfl⟩ := List.mem_map.1 hmem
    exact handled_flag hswitch
  · exact handled_branch entry (mem_of_names rfl h hname)

end Sql

/-! ## Answers -/

namespace Dialect

open Sql

variable {d : Dialect}

/-- Complete calls are answered as they have to be. -/
theorem answers_of_replies (hd : d ∈ library) {S : Scheme} (hmark : d.quoting.mark = S.mark)
    (htext : d.placeholder = S.text) {depth : Nat} {call : Call} {n : Nat} {t : String}
    {vs : List Value} (h : d.replies depth call n t vs) (hcomplete : d.Complete call) :
    Answers S call t := by
  refine replies_induction d (P := fun call _ t _ => d.Complete call → Answers S call t) ?_ h
    hcomplete
  rintro replies hreplies call handler hfind n t vs hyields ⟨hfilled, hvalues, hnested⟩
  rw [htext] at hyields
  have hprepared : Prepared S (d.context call.combinator)
      (fun c n t vs => (handler.render (d.context call.combinator) call).Makes c ∧
        replies c n t vs) call.operator := by
    refine ⟨styled hd hmark htext call.combinator, ?_, ?_⟩
    · rintro next n t vs ⟨hmakes, hreply⟩
      exact hreplies next n t vs hreply (hnested next ⟨handler, hfind, hmakes⟩)
    · rintro hname next n t vs ⟨hmakes, -⟩
      exact hvalues hname next ⟨handler, hfind, hmakes⟩
  exact handled_of_mem (find?_mem hd hfind) _ _ call rfl hfilled hprepared n t vs hyields.made

/-! ## Statements -/

theorem not_quiet_of_statement (hd : d ∈ library) : ∀ name ∈ d.statements, name ∉ quietKeys := by
  simp only [library, List.mem_cons, List.not_mem_nil, or_false] at hd
  rcases hd with rfl | rfl | rfl
  · rw [ansi_eq]
    decide
  · rw [mysql_eq]
    decide
  · rw [postgres_eq]
    decide

/-- The call that compiles a query. -/
def rootCall (name : String) (body : Value) : Call :=
  ⟨name, body, [(name, body)], none, none⟩

/-- **A query whose calls are complete is compiled without a gap.** -/
theorem filled_of_compile (hd : d ∈ library) {S : Scheme} (hmark : d.quoting.mark = S.mark)
    (htext : d.placeholder = S.text) {name : String} {body : Value} {statement : Statement}
    (h : d.compile (.object [(name, body)]) = .ok statement)
    (hcomplete : d.Complete (rootCall name body)) : Filled S.mark statement.sql := by
  obtain ⟨-, hroot⟩ := (compile_eq_ok_iff d _ statement).1 h
  rw [rootStatement] at hroot
  split at hroot
  · rename_i hstatement
    have hname : name ∉ quietKeys :=
      not_quiet_of_statement hd name (List.contains_iff_mem.1 hstatement)
    have hreply := Rendering.yields_invoke.1 hroot
    exact (answers_of_replies hd hmark htext hreply hcomplete).2 (not_isSilent hname)
  · exact (Rendering.yields_refuse.1 hroot).elim

/-- Text without gaps.  If nothing is missing in a call, it and all calls that it leads to are
answered without a gap; if nothing is missing in a query, it is compiled without one.  Operators
that make no calls need only not be bare themselves, and lists of names, sort orders and the storage
of a table have a gap exactly if they are. -/
theorem gapless_of_complete (hd : d ∈ library) :
    (∀ call next, d.Complete call → Relation.ReflTransGen d.Asks call next → ¬ next.IsSilent →
      ∀ depth s text s', (d.answer depth next).run.run s = (.ok text, s') →
        Gapless d.quoting.mark text) ∧
    (∀ name body statement, d.compile (.object [(name, body)]) = .ok statement →
      d.Complete (rootCall name body) → Gapless d.quoting.mark statement.sql) ∧
    ∀ depth call s text s', (d.answer depth call).run.run s = (.ok text, s') →
      (call.operator ∈ leafNames → ¬ call.IsBare → Gapless d.quoting.mark text) ∧
      (call.operator ∈ plainClauses → (Gapless d.quoting.mark text ↔ ¬ call.IsBare)) := by
  obtain ⟨S, hmark, htext⟩ := exists_scheme hd (settled_of_mem hd).placeholder
  rw [hmark]
  refine ⟨fun call next hcomplete hasks hsilent depth s text s' hanswer => ?_,
    fun name body statement hcompile hcomplete => ?_, fun depth call s text s' hanswer => ?_⟩
  · obtain ⟨us, -, hreply⟩ := (answer_eq_ok_iff d depth next s text s').1 hanswer
    exact ((answers_of_replies hd hmark htext hreply (hcomplete.of_asks hasks)).2 hsilent).gapless
  · exact (filled_of_compile hd hmark htext hcompile hcomplete).gapless
  · obtain ⟨us, -, hreply⟩ := (answer_eq_ok_iff d depth call s text s').1 hanswer
    refine ⟨fun hname hbare => ?_, gapless_iff_of_replies hd hmark htext hreply⟩
    exact (filled_of_leaf hd hmark htext hreply hname hbare).gapless

/-- Rows to delete from two tables, one of them renamed. -/
def renamedBody : Fields :=
  [("$table", .list [.str "t", .object [("u", .object [("$as", .str "v")])]]),
    ("$where", .object [("a", .object [("$gt", .int 1)])])]

/-- Rows to delete from tables that have no names. -/
def namelessBody : Fields := [("$table", .object [])]

/-- The call for the tables of a body. -/
def tablesCall (body : Fields) : Call := ⟨"$table", body.valueOf "$table", body, none, none⟩

set_option maxRecDepth 4000 in
theorem complete_renamedBody : ansi.Complete (rootCall "$delete" (.object renamedBody)) := by
  rw [ansi_eq]
  refine .of_find rfl (by simp [Call.IsBare, Call.nameLists, rootCall]) ?_
  rintro table (rfl | ⟨_, rfl | ⟨_, hmakes⟩⟩)
  · refine ⟨.of_find rfl ?_ fun next hmakes => hmakes.elim, not_isSilent (by decide)⟩
    rw [isBare_iff_of_names (by decide)]
    rintro (_ | ⟨hitem, hlacks⟩)
    cases hlacks with
    | object => simp at hitem
    | list => simp at hitem
  · refine ⟨.of_find rfl (by simp [Call.IsBare, Call.nameLists]) ?_, not_isSilent (by decide)⟩
    rintro test (rfl | ⟨_, hmakes⟩)
    · refine ⟨.of_find rfl (by simp [Call.IsBare, Call.nameLists]) ?_, not_isSilent (by decide)⟩
      rintro next ⟨_, hmakes⟩
      exact hmakes.elim
    · exact hmakes.elim
  · exact hmakes.elim

set_option maxRecDepth 4000 in
theorem asks_renamedBody :
    ansi.Asks (rootCall "$delete" (.object renamedBody)) (tablesCall renamedBody) := by
  rw [ansi_eq]
  exact ⟨_, rfl, .inl rfl⟩

set_option maxRecDepth 4000 in
/-- Two tables leave no gap, in the clause and in the statement; an empty object in their place
leaves one. -/
theorem gapless_of_complete_renamedBody :
    (ansi ∈ library ∧ ansi.Complete (rootCall "$delete" (.object renamedBody))) ∧
    ((ansi.answer 1 (tablesCall renamedBody)).run.run #[] = (.ok "`t`, `u` AS `v`", #[]) ∧
      Gapless ansi.quoting.mark "`t`, `u` AS `v`") ∧
    (ansi.compile (.object [("$delete", .object renamedBody)]) =
        .ok ⟨"DELETE FROM `t`, `u` AS `v` WHERE `a` > ?", [.int 1], "ansi"⟩ ∧
      Gapless ansi.quoting.mark "DELETE FROM `t`, `u` AS `v` WHERE `a` > ?") ∧
    ansi.compile (.object [("$delete", .object namelessBody)]) =
      .ok ⟨"DELETE FROM", [], "ansi"⟩ ∧
    (ansi.answer 1 (tablesCall namelessBody)).run.run #[] = (.ok "", #[]) ∧
    ¬ Gapless ansi.quoting.mark "" := by
  have hd : ansi ∈ library := by simp [library]
  have hrenamed : (ansi.answer 1 (tablesCall renamedBody)).run.run #[] =
      (.ok "`t`, `u` AS `v`", #[]) := by
    rw [ansi_eq]
    rfl
  have hcompile : ansi.compile (.object [("$delete", .object renamedBody)]) =
      .ok ⟨"DELETE FROM `t`, `u` AS `v` WHERE `a` > ?", [.int 1], "ansi"⟩ := by
    rw [ansi_eq]
    rfl
  have hdangling : ansi.compile (.object [("$delete", .object namelessBody)]) =
      .ok ⟨"DELETE FROM", [], "ansi"⟩ := by
    rw [ansi_eq]
    rfl
  have hnameless : (ansi.answer 1 (tablesCall namelessBody)).run.run #[] = (.ok "", #[]) := by
    rw [ansi_eq]
    rfl
  have hbare : (tablesCall namelessBody).IsBare := (isBare_iff_of_names (by decide)).2 .object
  obtain ⟨hcalls, hstatements, hclauses⟩ := gapless_of_complete hd
  obtain ⟨-, hiff⟩ := hclauses 1 (tablesCall namelessBody) #[] "" #[] hnameless
  refine ⟨⟨hd, complete_renamedBody⟩, ⟨hrenamed, ?_⟩, ⟨hcompile, ?_⟩, hdangling, hnameless, ?_⟩
  · have hsilent : ¬ (tablesCall renamedBody).IsSilent := not_isSilent (by decide)
    exact hcalls _ _ complete_renamedBody (.single asks_renamedBody) hsilent _ _ _ _ hrenamed
  · exact hstatements _ _ _ hcompile complete_renamedBody
  · exact fun hgapless => (hiff (by decide)).1 hgapless hbare

end Dialect

end QueryTree
