import QueryTree.Proofs.Dialects
import QueryTree.Proofs.LikeTemplates

/-!
# Statements that are alike

Every operator of the library keeps in step at operands that are alike, so two runs of one program
keep in step to any depth of nested calls.

* **`like_of_mem`** : every operator of the library keeps in step.
* `Dialect.Like` says that two dialects with the same operators have texts that are alike, one
  counting its placeholders from `p` and the other from `q`.
* `Dialect.like_of_tokens` : a dialect of the library next to itself.
* **`Dialect.Like.yields`**, **`Dialect.Like.yields_back`** : what a program yields in one of the
  dialects, a program in step with it yields in the other.
* **`Dialect.Like.compile`**, **`Dialect.Like.compile_back`** : what one of the dialects compiles,
  the other compiles to a statement that is alike; `Dialect.Like.toOption_map_eq` puts both into one
  equation.
-/

namespace QueryTree

open Rendering (InStep Leads)
open Likeness (Renders RendersAll)

variable {L : Likeness} {vary : Value → Value → Prop}

/-! ## Operators -/

/-- Flags, which do not look at data. -/
theorem like_flags {names : List String}
    (hnames : ∀ name ∈ names, Position.ofOperator name = .fixed) :
    ∀ entry ∈ names.map (fun name => (name, Operator.flag name)),
      entry.2.Like L vary (.ofOperator entry.1) := by
  rw [List.forall_mem_map]
  intro name hname
  rw [hnames name hname]
  exact flag_like name

/-- The aggregates, which differ only in their names. -/
theorem like_aggregates :
    ∀ entry ∈ Ansi.aggregates.map (fun entry => (entry.1, Operator.aggregate entry.2 entry.1)),
      entry.2.Like L vary (.ofOperator entry.1) := by
  have hpositions : ∀ entry ∈ Ansi.aggregates, Position.ofOperator entry.1 = .nested := by decide
  rw [List.forall_mem_map]
  intro entry hentry
  rw [hpositions entry hentry]
  exact aggregate_like entry.2 entry.1

/-- The comparisons, which differ only in their words. -/
theorem like_comparisons :
    ∀ entry ∈ comparisonWords.map (fun entry => (entry.1, Operator.comparison entry.1 entry.2)),
      entry.2.Like L vary (.ofOperator entry.1) := by
  have hpositions : ∀ entry ∈ comparisonWords, Position.ofOperator entry.1 = .operand := by decide
  rw [List.forall_mem_map]
  intro entry hentry
  rw [hpositions entry hentry]
  exact comparison_like entry.1 entry.2

/-- The operators with a template in the base dialect. -/
theorem like_ansi_templates :
    ∀ entry ∈ Ansi.templated, (entry.1.handler entry.2).Like L vary (.ofOperator entry.1.name) := by
  have hsteady : ∀ entry ∈ Ansi.templated, Template.areSteady entry.1.nodes = true ∧
      (∀ default ∈ entry.2, default.2.isScalar = true) ∧
      Position.ofOperator entry.1.name = .clauses := by
    simp only [Ansi.templated, List.forall_mem_cons]
    exact ⟨by decide, by decide, by decide, by decide, by decide, by decide, by decide, by simp⟩
  intro entry hentry
  obtain ⟨hnodes, hdefaults, hposition⟩ := hsteady entry hentry
  rw [hposition]
  exact template_like hnodes hdefaults

/-- The operators of the base dialect without a template. -/
theorem like_ansi_operators :
    ∀ entry ∈ Ansi.operators, entry.2.Like L vary (.ofOperator entry.1) := by
  simp only [Ansi.operators, List.forall_mem_append]
  refine ⟨⟨⟨⟨⟨?_, like_flags (by decide)⟩, ?_⟩, like_aggregates⟩, like_comparisons⟩, ?_⟩
  · simp only [List.forall_mem_cons]
    exact ⟨resultColumns_like, tables_like, tables_like, filter_like, filter_like, grouping_like,
      sorting_like, limit_like, offset_like, assignments_like, documents_like, by simp⟩
  · simp only [List.forall_mem_singleton]
    exact boundValue_like
  · simp only [List.forall_mem_cons]
    exact ⟨membership_like _ _, membership_like _ _, between_like, nullTest_like, definitions_like,
      constraints_like, columnType_like, columnLength_like, columnDefault_like, by simp⟩

/-- The operators that MySQL adds or replaces. -/
theorem like_mysql : ∀ entry ∈ Mysql.table, entry.2.Like L vary (.ofOperator entry.1) := by
  simp only [Mysql.table, Mysql.operators, List.forall_mem_append, List.forall_mem_cons]
  exact ⟨⟨template_like (t := Mysql.selectTemplate) rfl (by decide),
    template_like (t := Mysql.columnTemplate) rfl (by decide), by simp⟩, target_like, outfile_like,
    columnComment_like, flag_like _, flag_like _, flag_like _, by simp⟩

/-- The operators that PostgreSQL adds or replaces. -/
theorem like_postgres : ∀ entry ∈ Postgres.table, entry.2.Like L vary (.ofOperator entry.1) := by
  simp only [Postgres.table, Postgres.operators, List.forall_mem_append, List.forall_mem_cons]
  exact ⟨⟨template_like (t := Postgres.createTableTemplate) rfl (by decide),
    template_like (t := Postgres.columnTemplate) rfl (by decide),
    template_like (t := Postgres.storageTemplate) rfl (by decide), by simp⟩, comparison_like _ _,
    flag_like _, identityColumn_like, collation_like, check_like, reference_like, objectIds_like,
    tablespace_like, by simp⟩

/-- Every operator of the library. -/
theorem like_of_mem {entry : String × Handler}
    (h : entry ∈ Ansi.table ++ Mysql.table ++ Postgres.table) :
    entry.2.Like L vary (.ofOperator entry.1) := by
  simp only [List.mem_append, Ansi.table] at h
  rcases h with (((h | h) | h) | h) | h
  · obtain ⟨templated, hmem, rfl⟩ := List.mem_map.1 h
    exact like_ansi_templates templated hmem
  · exact like_ansi_operators entry h
  · revert entry
    simp only [List.forall_mem_cons]
    exact ⟨expressionTest_like, negation_like, by simp⟩
  · exact like_mysql entry h
  · exact like_postgres entry h

/-! ## Runs -/

/-- Queries that are alike are the same statement, or refused alike. -/
theorem rootStatement_like {ctx ctx' : Context} (h : ctx.Like L ctx') {query query' : Value}
    (hquery : Alike vary .nested query query') :
    L.Renders vary (Combinator.Enters ctx.combinator ctx'.combinator ∧ Exposed .nested query)
      (rootStatement ctx query) (rootStatement ctx' query') := by
  cases query with
  | object fields =>
    obtain ⟨fields', rfl, hfields⟩ := hquery.object_inv
    rcases hfields with _ | ⟨hbody, _ | ⟨_, _⟩⟩
    · exact .refuse
    · rw [rootStatement, rootStatement, ← h.isStatement, Exposed.single_iff rfl]
      split
      · exact h.invoke hbody (.cons (p := .nested) hbody .nil) none
      · exact .refuse
    · exact .refuse
  | list items =>
    obtain ⟨items', rfl, -⟩ := hquery.list_inv
    exact .refuse
  | null | bool flag | int number | float number | str text =>
    obtain rfl := hquery.eq_of_scalar rfl rfl
    exact .refuse

theorem Value.size_of_isScalar {v : Value} (h : v.isScalar = true) : v.size = 1 := by
  cases v with
  | list items | object fields => cases h
  | null | bool flag | int number | float number | str text => simp [size]

mutual

/-- Values that are alike have the same size. -/
theorem Alike.size_eq {p : Position} : ∀ {v v' : Value}, Alike vary p v v' → v.size = v'.size
  | _, _, .same _ _ => rfl
  | _, _, .scalar _ scalars _ _ => by
    rw [Value.size_of_isScalar scalars.1, Value.size_of_isScalar scalars.2]
  | _, _, .list _ each => by rw [Value.size_list, Value.size_list, each.size_eq]
  | _, _, .object _ each => by rw [Value.size_object, Value.size_object, each.size_eq]

/-- Lists that are alike have as many nodes. -/
theorem ItemsAlike.size_eq {p : Position} : ∀ {items items' : List Value},
    ItemsAlike vary p items items' → Value.sizeItems items = Value.sizeItems items'
  | _, _, .nil => rfl
  | _, _, .cons first rest => by
    rw [Value.sizeItems_cons, Value.sizeItems_cons, first.size_eq, rest.size_eq]

theorem EntriesAlike.size_eq {p : Position} : ∀ {fields fields' : Fields},
    EntriesAlike vary p fields fields' → Value.sizeFields fields = Value.sizeFields fields'
  | _, _, .nil => rfl
  | _, _, .cons first rest => by
    rw [Value.sizeFields_cons, Value.sizeFields_cons, first.size_eq, rest.size_eq]

end

namespace Dialect

/-- Two dialects with the operators of the library, whose names are alike, and whose placeholders
are alike if the first counts from `p` and the second from `q`. -/
structure Like (L : Likeness) (p q : Nat) (d d' : Dialect) : Prop where
  known : ∀ {name : String} {handler : Handler}, d.registry.find? name = some handler →
    (name, handler) ∈ Ansi.table ++ Mysql.table ++ Postgres.table
  registry : d'.registry = d.registry
  statements : d'.statements = d.statements
  predicates : d'.predicates = d.predicates
  names : ∀ parts, L.rel False 0 (String.ofList (d.quoting.joinSegments parts))
    (String.ofList (d'.quoting.joinSegments parts))
  maxLimit : L.rel False 0 d.maxLimit d'.maxLimit
  tokens : ∀ i, L.rel False 1 (d.placeholder (p + i + 1)) (d'.placeholder (q + i + 1))

namespace Like

variable {p q : Nat} {d d' : Dialect}

/-- Dialects that are alike have contexts that are, if parentheses are not lost from one to the
other. -/
theorem context (h : d.Like L p q d') {parent parent' : Option Combinator}
    (hparent : Combinator.encloses parent = true → Combinator.encloses parent' = true) :
    (d.context parent).Like L (d'.context parent') where
  names := h.names
  maxLimit := h.maxLimit
  isStatement := by rw [Dialect.context, Dialect.context, h.statements]
  isPredicate := by rw [Dialect.context, Dialect.context, h.predicates]
  encloses := hparent

/-- An operator of one dialect keeps in step with the one of that name in the other. -/
theorem handler (h : d.Like L p q d') {c c' : Call} (hcall : c.Like vary c') {handler : Handler}
    (hfind : d.registry.find? c.operator = some handler) :
    InStep (L.pairing vary) ((L.pairing vary).reply c c') 0
      (handler.render (d.context c.combinator) c) (handler.render (d'.context c'.combinator) c') :=
  like_of_mem (h.known hfind) _ _ c c' (h.context hcall.encloses) hcall.operand hcall.nulls
    hcall.column

/-- **Calls that are alike are answered alike**, by induction over the depth of nested calls. -/
theorem leads (h : d.Like L p q d') (depth : Nat) :
    Leads (L.pairing vary) p q (d.replies depth) (d'.replies depth) := by
  refine replies_leads h.tokens (fun c c' hcall handler hfind => ⟨handler, ?_, ?_⟩) depth
  · rw [h.registry, ← hcall.operator]
    exact hfind
  · exact h.handler hcall hfind

theorem leads_back (h : d.Like L p q d') (depth : Nat) :
    Leads (L.pairing vary).flip q p (d'.replies depth) (d.replies depth) := by
  refine replies_leads h.tokens (fun c c' hcall handler hfind => ?_) depth
  have hcall : c'.Like vary c := hcall
  rw [h.registry, ← hcall.operator] at hfind
  exact ⟨handler, hfind, (h.handler hcall hfind).flip⟩

variable {α β : Type} {R : Nat → α → β → Prop} {x : Rendering α} {y : Rendering β}

/-- What a program yields, a program in step with it yields in the other dialect. -/
theorem yields (h : d.Like L p q d') (hstep : InStep (L.pairing vary) R 0 x y) {depth : Nat} {a : α}
    {us : List Value} (hx : x.Yields d.placeholder (d.replies depth) p a us) :
    ∃ b us', y.Yields d'.placeholder (d'.replies depth) q b us' ∧
      List.Forall₂ (fun v v' => v = v' ∨ vary v v') us us' ∧ R us.length a b := by
  obtain ⟨b, us', hy, hus, hR⟩ := hstep.yields h.tokens (h.leads depth) (i := 0) hx
  rw [Nat.zero_add] at hR
  exact ⟨b, us', hy, hus, hR⟩

/-- The same from the other dialect. -/
theorem yields_back (h : d.Like L p q d') (hstep : InStep (L.pairing vary) R 0 x y) {depth : Nat}
    {b : β} {us' : List Value} (hy : y.Yields d'.placeholder (d'.replies depth) q b us') :
    ∃ a us, x.Yields d.placeholder (d.replies depth) p a us ∧
      List.Forall₂ (fun v v' => v = v' ∨ vary v v') us us' ∧ R us.length a b := by
  obtain ⟨a, us, hx, hus, hR⟩ := hstep.flip.yields h.tokens (h.leads_back depth) (i := 0) hy
  rw [Nat.zero_add, hus.length_eq] at hR
  exact ⟨a, us, hx, hus.flip, hR⟩

/-- Both dialects give the calls the same room. -/
theorem callBound_eq (h : d.Like L p q d') {v v' : Value} {r : Position} (hv : Alike vary r v v') :
    d'.callBound v' = d.callBound v := by
  unfold callBound weight
  rw [h.registry, hv.size_eq]

/-- The root of a query stands in no connective, so nothing enters one. -/
theorem rootStatement_like_none (h : d.Like L p q d') {query query' : Value}
    (hquery : Alike vary .nested query query') :
    L.Renders vary False (rootStatement (d.context none) query)
      (rootStatement (d'.context none) query') :=
  (rootStatement_like (h.context id) hquery).congr
    (iff_of_false (fun henters => Combinator.not_enters_self none henters.1) id)

/-- What one of the dialects compiles, the other compiles to a statement that is alike. -/
theorem compile (h : d.Like L 0 0 d') {query query' : Value}
    (hquery : Alike vary .nested query query') {statement : Statement}
    (hcompile : d.compile query = .ok statement) :
    ∃ statement', d'.compile query' = .ok statement' ∧
      List.Forall₂ (fun v v' => v = v' ∨ vary v v') statement.values statement'.values ∧
      L.rel False statement.values.length statement.sql statement'.sql := by
  obtain ⟨-, hyields⟩ := (d.compile_eq_ok_iff query statement).1 hcompile
  obtain ⟨sql, values, hyields', hvalues, hsql⟩ :=
    h.yields (rootStatement_like_none h hquery) hyields
  rw [← h.callBound_eq hquery] at hyields'
  exact ⟨⟨sql, values, d'.name⟩, (d'.compile_eq_ok_iff query' _).2 ⟨rfl, hyields'⟩, hvalues, hsql⟩

/-- The same from the other dialect. -/
theorem compile_back (h : d.Like L 0 0 d') {query query' : Value}
    (hquery : Alike vary .nested query query') {statement' : Statement}
    (hcompile : d'.compile query' = .ok statement') :
    ∃ statement, d.compile query = .ok statement ∧
      List.Forall₂ (fun v v' => v = v' ∨ vary v v') statement.values statement'.values ∧
      L.rel False statement.values.length statement.sql statement'.sql := by
  obtain ⟨-, hyields⟩ := (d'.compile_eq_ok_iff query' statement').1 hcompile
  obtain ⟨sql, values, hyields', hvalues, hsql⟩ :=
    h.yields_back (rootStatement_like_none h hquery) hyields
  rw [h.callBound_eq hquery] at hyields'
  exact ⟨⟨sql, values, d.name⟩, (d.compile_eq_ok_iff query _).2 ⟨rfl, hyields'⟩, hvalues, hsql⟩

/-- Whatever statements that are alike have in common, the dialects agree on, and on whether the
query compiles. -/
theorem toOption_map_eq {γ : Type} {f g : Statement → γ} (h : d.Like L 0 0 d')
    {query query' : Value} (hquery : Alike vary .nested query query')
    (hfg : ∀ {statement statement' : Statement},
      List.Forall₂ (fun v v' => v = v' ∨ vary v v') statement.values statement'.values →
        L.rel False statement.values.length statement.sql statement'.sql →
          f statement = g statement') :
    (d.compile query).toOption.map f = (d'.compile query').toOption.map g := by
  cases hcompile : d.compile query with
  | ok statement =>
    obtain ⟨statement', hcompile', hvalues, hsql⟩ := h.compile hquery hcompile
    rw [hcompile']
    exact congrArg some (hfg hvalues hsql)
  | error fault =>
    cases hcompile' : d'.compile query' with
    | error fault' => rfl
    | ok statement' =>
      obtain ⟨statement, hsome, -⟩ := h.compile_back hquery hcompile'
      rw [hsome] at hcompile
      cases hcompile

end Like

/-- A dialect of the library next to itself, which differ in their placeholders only. -/
theorem like_of_tokens {d : Dialect} (hd : d ∈ library) {p q : Nat}
    (tokens : ∀ i, L.rel False 1 (d.placeholder (p + i + 1)) (d.placeholder (q + i + 1))) :
    d.Like L p q d where
  known := find?_mem hd
  registry := rfl
  statements := rfl
  predicates := rfl
  names _ := L.refl _
  maxLimit := L.refl _
  tokens := tokens

end Dialect

end QueryTree
