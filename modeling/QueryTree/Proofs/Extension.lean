import QueryTree.Proofs.Widening

/-!
# Extensions of a dialect

A dialect that is composed on top of another one can add operators and replace templates.  If it
keeps the settings, and each operator that it replaces is covered by the new one, every query of the
dialect below compiles to the same text and the same values.

* `Dialect.Extends` says that a dialect is such an extension.
* **`Dialect.Extends.compile`** : what the dialect below compiles, the extension compiles to the
  same.
* **`compile_mysql_of_ansi`** : the MySQL dialect compiles every query of the base dialect to the
  same text and values.
-/

namespace QueryTree

/-- A statement of one dialect is one of the other. -/
theorem rootStatement_coveredBy {known : String → Prop} {ctx other : Context}
    (h : ctx.Agrees known other) (query : Value) :
    (rootStatement ctx query).CoveredBy known (rootStatement (ctx.moved other) query) := by
  unfold rootStatement
  split
  · split
    · rename_i name body hstatement
      refine .call fun hknown => ?_
      rw [show (ctx.moved other).isStatement name = true from
        (h.statements name hknown).trans hstatement]
      exact .refl _
    · exact .refuse _ _
  · exact .refl _
  · exact .refl _

namespace Dialect

/-- The dialect has an operator of this name. -/
def Knows (d : Dialect) (name : String) : Prop :=
  (d.registry.find? name).isSome = true

/-- `d'` has the settings of `d`, and for every operator of `d` one that covers it and has the same
role. -/
structure Extends (d' d : Dialect) : Prop where
  quoting : d'.quoting = d.quoting
  placeholder : d'.placeholder = d.placeholder
  maxLimit : d'.maxLimit = d.maxLimit
  statements : ∀ name, d.Knows name → d'.statements.contains name = d.statements.contains name
  predicates : ∀ name, d.Knows name → d'.predicates.contains name = d.predicates.contains name
  weight : d.weight ≤ d'.weight
  operators : ∀ name handler, d.registry.find? name = some handler →
    ∃ handler', d'.registry.find? name = some handler' ∧ handler.CoveredBy d.Knows handler'

/-- Only calls of operators that a dialect knows are answered. -/
theorem knows_of_replies {d : Dialect} {depth : Nat} {call : Call} {n : Nat} {t : String}
    {vs : List Value} (h : d.replies depth call n t vs) : d.Knows call.operator := by
  cases depth with
  | zero => exact h.elim
  | succ depth =>
    obtain ⟨handler, hfind, -⟩ := h
    simp [Knows, hfind]

namespace Extends

variable {d d' : Dialect}

/-- The extension is another dialect with the same settings. -/
theorem context_eq (h : d'.Extends d) (combinator : Option Combinator) :
    d'.context combinator = (d.context combinator).moved (d'.context combinator) := by
  simp only [context, Context.moved, h.quoting, h.maxLimit]

/-- A dialect that extends another one agrees with it on what that one knows. -/
theorem agrees (h : d'.Extends d) (combinator : Option Combinator) :
    (d.context combinator).Agrees d.Knows (d'.context combinator) :=
  ⟨h.statements, h.predicates⟩

/-- The extension has the replies of the dialect below. -/
theorem replies (h : d'.Extends d) {depth : Nat} {call : Call} {n : Nat} {t : String}
    {vs : List Value} (hreply : d.replies depth call n t vs) : d'.replies depth call n t vs := by
  induction depth generalizing call n t vs with
  | zero => exact hreply.elim
  | succ depth ih =>
    obtain ⟨handler, hfind, hyields⟩ := hreply
    obtain ⟨handler', hfind', hcovered⟩ := h.operators call.operator handler hfind
    refine ⟨handler', hfind', ?_⟩
    rw [h.context_eq, h.placeholder]
    have hmoved := hcovered _ _ call (h.agrees call.combinator)
      (fun _ _ _ _ => knows_of_replies) hyields
    exact hmoved.mono fun _ _ _ _ => ih

/-- What the dialect below compiles, the extension compiles to the same. -/
theorem compile (h : d'.Extends d) {query : Value} {statement : Statement}
    (hcompile : d.compile query = .ok statement) :
    d'.compile query = .ok { statement with dialect := d'.name } := by
  obtain ⟨-, hyields⟩ := (d.compile_eq_ok_iff query statement).1 hcompile
  refine (d'.compile_eq_ok_iff query _).2 ⟨rfl, ?_⟩
  rw [h.context_eq, h.placeholder]
  have hmoved := rootStatement_coveredBy (h.agrees none) query
    (fun _ _ _ _ => knows_of_replies) hyields
  refine hmoved.mono fun c n t vs hreply => ?_
  have hbound : d.callBound query ≤ d'.callBound query := by
    have := h.weight
    unfold callBound
    omega
  exact d'.replies_mono hbound (h.replies hreply)

end Extends

end Dialect

/-! ## Extensions of the base dialect -/

section

variable {known : String → Prop}

/-- Every operator of the base dialect is covered by itself. -/
theorem Ansi.coveredBy_self : ∀ entry ∈ table, entry.2.CoveredBy known entry.2 := by
  unfold table
  rw [List.append_assoc, List.forall_mem_append]
  refine ⟨List.forall_mem_map.2 ?_, coveredBy_self_of_mem⟩
  simp only [templated, List.forall_mem_cons]
  refine ⟨Template.coveredBy_of_restrict rfl rfl (by decide), ?_⟩
  refine ⟨Template.coveredBy_of_restrict rfl rfl (by decide), ?_⟩
  refine ⟨Template.coveredBy_of_restrict rfl rfl (by decide), ?_⟩
  refine ⟨Template.coveredBy_of_restrict rfl rfl (by decide), ?_⟩
  refine ⟨Template.coveredBy_of_restrict rfl rfl (by decide), ?_⟩
  refine ⟨Template.coveredBy_of_restrict rfl rfl (by decide), ?_⟩
  exact ⟨Template.coveredBy_of_restrict rfl rfl (by decide), by simp⟩

/-- A layer on top of the base dialect covers it if it covers what it replaces. -/
theorem Ansi.exists_coveredBy {own : Layer Handler} {frozen : Bool}
    (hown : ∀ entry ∈ own.entries, ∀ handler, table.lookup entry.1 = some handler →
      handler.CoveredBy known entry.2)
    {name : String} {handler : Handler} (hfind : table.lookup name = some handler) :
    ∃ handler', Registry.find? ⟨own, [⟨baseDialectName, table, frozen⟩]⟩ name = some handler' ∧
      handler.CoveredBy known handler' := by
  cases hget : own.get? name with
  | none =>
    refine ⟨handler, ?_, ?_⟩
    · rw [Registry.find?_of_not_own hget]
      simp only [List.findSome?_cons, Layer.get?, hfind]
    · obtain ⟨before, after, htable, -⟩ := List.lookup_eq_some_iff.1 hfind
      exact coveredBy_self (name, handler) (by simp [htable])
  | some handler' =>
    refine ⟨handler', Registry.find?_of_own hget, ?_⟩
    obtain ⟨before, after, hentries, -⟩ := List.lookup_eq_some_iff.1 hget
    exact hown (name, handler') (by simp [hentries]) handler hfind

/-- The query of the base dialect is the one of MySQL without what is new. -/
theorem Mysql.restrict_select :
    Template.restrict Ansi.selectTemplate.keys.contains selectTemplate.nodes =
      Ansi.selectTemplate.nodes := rfl

theorem Mysql.restrict_column :
    Template.restrict Ansi.columnTemplate.keys.contains columnTemplate.nodes =
      Ansi.columnTemplate.nodes := rfl

/-- What MySQL replaces does all that the base dialect did. -/
theorem Mysql.coveredBy_of_lookup : ∀ entry ∈ table, ∀ handler,
    Ansi.table.lookup entry.1 = some handler → handler.CoveredBy known entry.2 := by
  simp only [table, operators, List.forall_mem_append, List.forall_mem_cons]
  refine ⟨⟨?_, ?_, by simp⟩, ?_, ?_, ?_, ?_, ?_, ?_, by simp⟩
  · intro handler hfind
    have hselect : Ansi.table.lookup "$select" =
        some (Ansi.selectTemplate.handler Ansi.selectDefaults) := rfl
    obtain rfl := Option.some.inj (hselect.symm.trans hfind)
    exact Template.coveredBy_of_restrict restrict_select rfl (by decide)
  · intro handler hfind
    have hcolumn : Ansi.table.lookup "$column" = some (Ansi.columnTemplate.handler []) := rfl
    obtain rfl := Option.some.inj (hcolumn.symm.trans hfind)
    exact Template.coveredBy_of_restrict restrict_column rfl (by decide)
  -- the base dialect does not have the others
  all_goals
    intro handler hfind
    cases hfind

end

/-- The MySQL dialect extends the base dialect. -/
theorem Dialect.mysql_extends_ansi : Dialect.mysql.Extends Dialect.ansi := by
  rw [Dialect.mysql_eq, Dialect.ansi_eq]
  refine ⟨rfl, rfl, rfl, fun _ _ => rfl, fun _ _ => rfl, by decide, fun name handler hfind => ?_⟩
  refine Ansi.exists_coveredBy Mysql.coveredBy_of_lookup ?_
  simpa [Registry.find?, Registry.layers, Layer.get?] using hfind

/-- **MySQL extends the base dialect conservatively.**  A query that the base dialect compiles has
the same text and the same values in the MySQL dialect. -/
theorem compile_mysql_of_ansi {query : Value} {statement : Statement}
    (h : Dialect.ansi.compile query = .ok statement) :
    Dialect.mysql.compile query = .ok { statement with dialect := Dialect.mysql.name } :=
  Dialect.mysql_extends_ansi.compile h

/-- A query whose parts stand where MySQL has further ones: before the columns, after them, within
the group and at the end. -/
def groupedQuery : Value :=
  .object
    [("$select", .object
      [("$distinct", .bool true), ("$columns", .object [("n", .object [("$count", .str "*")])]),
        ("$table", .str "t"),
        ("$where", .object
          [("a", .object
            [("$nin", .object
              [("$select", .object [("$columns", .str "b"), ("$from", .str "u")])])]),
            ("$or", .list [.object [("c", .null)], .object [("d", .int 1)]])]),
        ("$groupBy", .str "e"), ("$limit", .str "all"), ("$offset", .int 2)])]

/-- The statement of `groupedQuery` in the base dialect. -/
def groupedStatement : Statement where
  sql :=
    "SELECT DISTINCT COUNT(*) AS \x60n\x60 FROM \x60t\x60 WHERE \x60a\x60 NOT IN " ++
      "(SELECT \x60b\x60 FROM \x60u\x60) AND (\x60c\x60 IS NULL OR \x60d\x60 = ?) " ++
      "GROUP BY \x60e\x60 LIMIT 18446744073709551615 OFFSET ?"
  values := [.int 1, .int 2]
  dialect := "ansi"

set_option maxRecDepth 4000 in
theorem compile_groupedQuery : Dialect.ansi.compile groupedQuery = .ok groupedStatement := by
  rw [Dialect.ansi_eq]
  rfl

theorem compile_mysql_of_ansi_groupedQuery :
    Dialect.ansi.compile groupedQuery = .ok groupedStatement ∧
      Dialect.mysql.compile groupedQuery =
        .ok { groupedStatement with dialect := Dialect.mysql.name } :=
  ⟨compile_groupedQuery, compile_mysql_of_ansi compile_groupedQuery⟩

end QueryTree
