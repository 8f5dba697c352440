import QueryTree.Proofs.Bodies
import QueryTree.Proofs.Comparisons
import QueryTree.Proofs.Nesting
import QueryTree.Proofs.Surface

/-!
# Operators that stand for an operand

Every operator can stand where an operand is expected, and only statements are put in parentheses
there.  So whether the text is one operand depends on the operator.

* `looseOperands` are the operators whose text need not be one operand, each with an operand for
  which it is not.
* `Sql.Sole` : an operator that renders one operand, or is refused, where an operand is expected.
* **`Sql.sole_of_mem`** : every operator of the library is loose, a statement, or sole.
* **`Dialect.operand_isSingle`** : an operand without a loose operator is one operand in the text.
-/

namespace QueryTree

/-- Operators whose text need not be one operand, each with an operand for which it is not: the text
is empty, or has several parts. -/
def looseOperands : List (String × Value) :=
  (Ansi.flags ++ ["$calcFoundRows", "$rollup", "$autoIncrement", "$unlogged", "$identity"]).map
      (fun name => (name, Value.bool true)) ++
    ["$columns", "$from", "$table", "$groupBy", "$sort", "$into"].map
      (fun name => (name, Value.list [.str "a", .str "b"])) ++
    ["$where", "$having", "$check", "$not"].map
      (fun name => (name, Value.object [("a", .int 1)])) ++
    [("$expr", Value.object [("$count", .str "a"), ("$gt", .int 1)]),
      ("$set", .object [("a", .int 1)]), ("$documents", .object [("a", .int 1)]),
      ("$outfile", .object [("$file", .str "f")]),
      ("$define", .object [("a", .object [("$type", .str "int")])]),
      ("$constraint", .object [("k", .object [("$primary", .str "a")])]),
      ("$type", .str "double precision"),
      ("$column", .object [("$type", .str "double precision")]),
      ("$default", .object [("$type", .str "double precision")]),
      ("$references", .object [("$table", .str "t"), ("$columns", .str "a")]),
      ("$oids", .bool true), ("$with", .object [("$oids", .bool true)])]

/-- The operators whose text need not be one operand. -/
def looseOperators : List String := looseOperands.map Prod.fst

/-- An operand with such an operator. -/
inductive IsLoose : Value → Prop where
  | intro {operator : String} (mem : operator ∈ looseOperators) (x : Value) :
      IsLoose (.object [(operator, x)])

namespace Sql

/-! ## Texts that are one operand -/

section

variable {S : Scheme} {ctx : Context} {replies : ReplyRel}

/-- A context in which the literal for "no limit" is one operand. -/
structure Ready (S : Scheme) (ctx : Context) (replies : ReplyRel) : Prop
    extends Setting S ctx replies where
  limit : IsSingle S.mark ctx.maxLimit

/-- Whatever the program yields is one operand. -/
abbrev Singles (S : Scheme) (replies : ReplyRel) : Rendering String → Prop :=
  Ensures S replies fun _ t _ => IsSingle S.mark t

/-- A placeholder is one operand. -/
theorem isSingle_slot (S : Scheme) (n : Nat) : IsSingle S.mark (S.text (n + 1)) := by
  refine (Spelling.slot n).isSingle (List.cons_ne_nil _ _) (List.forall_mem_singleton.2 ?_)
  have hplaceholder := S.isPlaceholder (n + 1)
  constructor
  · intro h
    rw [h] at hplaceholder
    cases hplaceholder
  · intro h
    rw [h] at hplaceholder
    cases hplaceholder

/-- So a value that is bound gives one operand. -/
theorem Singles.bound (v : Value) : Singles S replies (.bound v) := by
  intro n t vs h
  obtain ⟨rfl, rfl⟩ := Rendering.yields_bound.1 h
  exact isSingle_slot S n

/-- Segments of a name, quoted and with dots between them. -/
theorem isSingle_segments {style : QuoteStyle} (hmark : style.mark = S.mark)
    {parts : List (List Char)} (hne : parts ≠ []) :
    IsSingle S.mark (String.ofList (style.joinSegments parts)) := by
  refine (Spelling.segments hmark 0 parts).isSingle ?_ fun t ht => ?_
  · obtain ⟨cs, rest, rfl⟩ := List.exists_cons_of_ne_nil hne
    cases rest <;> simp [nameTokens]
  · rcases mem_nameTokens ht with ⟨body, rfl⟩ | rfl | rfl <;> simp

/-- A name is one operand, with all of its segments. -/
theorem Ready.name (h : Ready S ctx replies) (text : String) :
    Singles S replies (ctx.name text) := by
  intro n t vs hyields
  obtain ⟨parts, hne, rfl⟩ := segments_of_name hyields
  exact isSingle_segments h.mark hne

/-! ## Operators -/

/-- Where an operand is expected, the operator renders one operand or is refused. -/
def Sole (S : Scheme) (entry : String × Handler) : Prop :=
  ∀ ctx replies, Ready S ctx replies → ∀ x combinator,
    Singles S replies
      (entry.2.render ctx ⟨entry.1, x, [(entry.1, x)], none, combinator⟩)

/-- A limit is a placeholder or one word. -/
theorem sole_limit : Sole S ("$limit", Operator.limit) := by
  intro ctx replies h x combinator
  unfold Operator.limit
  dsimp only
  split
  · exact .pure fun _ => h.limit
  · split
    · exact .bound _
    · exact .refuse _

/-- Nothing else stands next to the operator. -/
theorem sole_offset : Sole S ("$offset", Operator.offset) := by
  intro ctx replies _ x combinator
  exact .refuse _

theorem sole_boundValue : Sole S ("$val", Operator.boundValue) := by
  intro ctx replies _ x combinator
  unfold Operator.boundValue
  dsimp only
  split
  · exact .bound _
  · exact .refuse _

/-- An aggregate is one operand, because its argument stands in parentheses. -/
theorem sole_aggregate {operator function : String}
    (hfunction : function.toList.all isWordStart = true) :
    Sole S (operator, Operator.aggregate function operator) := by
  intro ctx replies h x combinator
  rw [List.all_eq_true] at hfunction
  cases x with
  | str column =>
    exact (h.toSetting.name (F := []) column).map
      fun ht => .enclosed S.isMark function hfunction ht.closed
  | object fields =>
    exact (valueExpression_renders h.toSetting operator (.object fields)).map
      fun ht => .enclosed S.isMark function hfunction ht.closed
  | null | bool flag | int number | float number | list items => exact Ensures.refuse _

/-- A test needs a column. -/
theorem sole_comparison (operator word : String) :
    Sole S (operator, Operator.comparison operator word) := by
  intro ctx replies _ x combinator
  exact Ensures.refuse _

/-- Membership is refused where there is no column. -/
theorem sole_membership (operator word : String) :
    Sole S (operator, Operator.membership operator word) := by
  intro ctx replies _ x combinator
  exact Ensures.refuse _

/-- A length stands in its parentheses. -/
theorem sole_columnLength : Sole S ("$length", Operator.columnLength) := by
  intro ctx replies _ x combinator
  unfold Operator.columnLength
  dsimp only
  split
  · rename_i text htext
    obtain ⟨sizes, -, rfl⟩ := lengthText?_eq htext
    have hsizes : Clauses S [] 0 (sizes.map toString) [] :=
      .plain (List.forall_mem_map.2 fun number _ _ => .digits number)
    exact .pure fun _ => .parenthesized S.isMark hsizes.commaList.closed
  · exact .refuse _

/-- A comment is bound. -/
theorem sole_columnComment : Sole S ("$comment", Operator.columnComment) := by
  intro ctx replies _ x combinator
  unfold Operator.columnComment
  dsimp only
  split
  · exact .bound _
  · exact .refuse _

theorem sole_collation : Sole S ("$collate", Operator.collation) := by
  intro ctx replies h x combinator
  unfold Operator.collation
  dsimp only
  split
  · split
    · exact .refuse _
    · rw [segment_eq]
      exact .pure fun _ => isSingle_segments h.mark (List.cons_ne_nil _ _)
  · exact .refuse _

theorem sole_tablespace : Sole S ("$tablespace", Operator.tablespace) := by
  intro ctx replies h x combinator
  unfold Operator.tablespace
  dsimp only
  split
  · exact h.name _
  · exact .refuse _

/-- Every operator of the library is loose, a statement, or renders one operand. -/
theorem sole_of_mem : ∀ entry ∈ Ansi.table ++ Mysql.table ++ Postgres.table,
    entry.1 ∈ looseOperators ++ Ansi.statements ∨ Sole S entry := by
  simp only [List.forall_mem_append, Ansi.table, Ansi.operators, Mysql.table, Mysql.operators,
    Postgres.table, Postgres.operators]
  refine ⟨⟨⟨⟨?_, ⟨⟨⟨⟨⟨?_, ?_⟩, ?_⟩, ?_⟩, ?_⟩, ?_⟩⟩, ?_⟩, ?_, ?_⟩, ?_, ?_⟩
  · have htemplated : ∀ entry ∈ Ansi.templated,
        entry.1.name ∈ looseOperators ++ Ansi.statements := by decide
    exact List.forall_mem_map.2 fun entry hentry => .inl (htemplated entry hentry)
  · simp only [List.forall_mem_cons]
    exact ⟨.inl (by decide), .inl (by decide), .inl (by decide), .inl (by decide),
      .inl (by decide), .inl (by decide), .inl (by decide), .inr sole_limit, .inr sole_offset,
      .inl (by decide), .inl (by decide), by simp⟩
  · have hflags : ∀ name ∈ Ansi.flags, name ∈ looseOperators ++ Ansi.statements := by decide
    exact List.forall_mem_map.2 fun name hname => .inl (hflags name hname)
  · exact List.forall_mem_singleton.2 (.inr sole_boundValue)
  · have hfunctions : ∀ entry ∈ Ansi.aggregates, entry.2.toList.all isWordStart = true := by
      decide
    exact List.forall_mem_map.2 fun entry hentry => .inr (sole_aggregate (hfunctions entry hentry))
  · exact List.forall_mem_map.2 fun entry _ => .inr (sole_comparison _ _)
  · simp only [List.forall_mem_cons]
    exact ⟨.inr (sole_membership _ _), .inr (sole_membership _ _),
      .inr fun _ _ _ _ _ => Ensures.refuse _, .inr fun _ _ _ _ _ => Ensures.refuse _,
      .inl (by decide), .inl (by decide), .inl (by decide), .inr sole_columnLength,
      .inl (by decide), by simp⟩
  · simp only [List.forall_mem_cons]
    exact ⟨.inl (by decide), .inl (by decide), by simp⟩
  · simp only [List.forall_mem_cons]
    exact ⟨.inl (by decide), .inl (by decide), by simp⟩
  · simp only [List.forall_mem_cons]
    exact ⟨.inl (by decide), .inl (by decide), .inr sole_columnComment, .inl (by decide),
      .inl (by decide), .inl (by decide), by simp⟩
  · simp only [List.forall_mem_cons]
    exact ⟨.inl (by decide), .inl (by decide), .inl (by decide), by simp⟩
  · simp only [List.forall_mem_cons]
    exact ⟨.inr (sole_comparison _ _), .inl (by decide), .inl (by decide), .inr sole_collation,
      .inl (by decide), .inl (by decide), .inl (by decide), .inr sole_tablespace, by simp⟩

end

end Sql

namespace Dialect

open Sql

variable {d : Dialect}

/-- The dialects of the library have the same statements. -/
theorem statements_eq (hd : d ∈ library) : d.statements = Ansi.statements := by
  simp only [library, List.mem_cons, List.not_mem_nil, or_false] at hd
  rcases hd with rfl | rfl | rfl
  · rw [ansi_eq]
  · rw [mysql_eq]
  · rw [postgres_eq]

theorem isSingle_maxLimit (hd : d ∈ library) : IsSingle d.quoting.mark d.maxLimit := by
  simp only [library, List.mem_cons, List.not_mem_nil, or_false] at hd
  rcases hd with rfl | rfl | rfl
  · rw [ansi_eq]
    decide
  · rw [mysql_eq]
    decide
  · rw [postgres_eq]
    decide

/-! ## Operands -/

section

variable {S : Scheme} {depth n : Nat} {t : String} {vs : List Value} {x : Value}
  {operator : String}

/-- The calls of a dialect of the library are answered by single operands, at any depth. -/
theorem ready (hd : d ∈ library) (hmark : d.quoting.mark = S.mark) (htext : d.placeholder = S.text)
    (combinator : Option Combinator) (depth : Nat) :
    Ready S (d.context combinator) (d.replies depth) where
  mark := hmark
  maxLimit := (settled_of_mem hd).maxLimit
  answered call n t vs h := by
    have hreplies : Dialect.replies { d with placeholder := S.text } depth call n t vs := by
      rw [← htext]
      exact h
    exact answered_of_replies hd hmark hreplies
  limit := hmark ▸ isSingle_maxLimit hd

/-- Where an operand is expected, the reply to an operator that is not loose is one operand. -/
theorem isSingle_of_replies (hd : d ∈ library) (hmark : d.quoting.mark = S.mark)
    (htext : d.placeholder = S.text) {combinator : Option Combinator}
    (hloose : operator ∉ looseOperators) (hstatement : operator ∉ d.statements)
    (h : d.replies depth ⟨operator, x, [(operator, x)], none, combinator⟩ n t vs) :
    IsSingle S.mark t := by
  cases depth with
  | zero => exact h.elim
  | succ depth =>
    obtain ⟨handler, hfind, hyields⟩ := h
    have hsole : Sole S (operator, handler) := by
      refine (sole_of_mem _ (find?_mem hd hfind)).resolve_left fun hmem => ?_
      rcases List.mem_append.1 hmem with hmem | hmem
      · exact hloose hmem
      · exact hstatement (statements_eq hd ▸ hmem)
    rw [htext] at hyields
    exact hsole _ _ (ready hd hmark htext combinator depth) x combinator n t vs hyields

/-- An operand without a loose operator is one operand in the text. -/
theorem valueExpression_singles (hd : d ∈ library) (hmark : d.quoting.mark = S.mark)
    (htext : d.placeholder = S.text) (combinator : Option Combinator) (label : Option String)
    {v : Value} (hv : ¬ IsLoose v) :
    Singles S (d.replies depth) (valueExpression (d.context combinator) label v) := by
  cases v with
  | object fields =>
    rcases fields with _ | ⟨⟨operator, x⟩, _ | ⟨second, rest⟩⟩
    · exact .refuse _
    · have hsetting := (ready hd hmark htext combinator depth).toSetting
      rw [valueExpression]
      split
      · intro n t vs hyields
        obtain ⟨inner, hinner, rfl⟩ := Rendering.yields_map.1 hyields
        have hclosed := (hsetting.invoke operator x _ none n inner vs hinner).closed
        split
        · exact .parenthesized S.isMark hclosed
        · rename_i hstatement
          refine isSingle_of_replies hd hmark htext (fun hmem => hv (.intro hmem x)) ?_
            (Rendering.yields_invoke.1 hinner)
          exact fun hmem => hstatement (List.contains_iff_mem.2 hmem)
      · exact .refuse _
    · exact .refuse _
  | list items => exact .refuse _
  | null | bool flag | int number | float number | str text => exact .bound _

end

/-- **An operand that is not loose is a single one.** -/
theorem operand_isSingle (hd : d ∈ library) {parent : Option Combinator} {label : Option String}
    {v : Value} (hv : ¬ IsLoose v) {binder values : Array Value} {text : String}
    (h : d.operand parent label v binder = (.ok text, values)) :
    IsSingle d.quoting.mark text := by
  obtain ⟨S, hmark, htext⟩ := exists_scheme hd (settled_of_mem hd).placeholder
  obtain ⟨bound, -, hyields⟩ := (runFor_eq_ok_iff d v _ binder text values).1 h
  rw [htext] at hyields
  rw [hmark]
  exact valueExpression_singles hd hmark htext parent label hv _ _ _ hyields

/-- The text of an operand, if it has one, is not one operand. -/
def isDivided (d : Dialect) (entry : String × Value) : Bool :=
  match d.operand none none (.object [entry]) #[] with
  | (.ok text, _) => !decide (IsSingle d.quoting.mark text)
  | (.error _, _) => false

/-- Each loose operator divides the operand that it is listed with. -/
theorem isDivided_looseOperands (hd : d ∈ library) : ∀ entry ∈ looseOperands,
    (d.registry.find? entry.1).isSome = true → d.isDivided entry = true := by
  simp only [library, List.mem_cons, List.not_mem_nil, or_false] at hd
  rcases hd with rfl | rfl | rfl
  · rw [ansi_eq]
    decide +kernel
  · rw [mysql_eq]
    decide +kernel
  · rw [postgres_eq]
    decide +kernel

/-- Every loose operator that a dialect has divides its text somewhere. -/
theorem exists_divided (hd : d ∈ library) {operator : String} (hmem : operator ∈ looseOperators)
    (hfind : (d.registry.find? operator).isSome = true) :
    ∃ x text values, d.operand none none (.object [(operator, x)]) #[] = (.ok text, values) ∧
      ¬ IsSingle d.quoting.mark text := by
  obtain ⟨⟨_, x⟩, hentry, rfl⟩ := List.mem_map.1 hmem
  have hdivided := isDivided_looseOperands hd _ hentry hfind
  unfold isDivided at hdivided
  split at hdivided
  · rename_i text values hrun
    exact ⟨x, text, values, hrun, by simpa using hdivided⟩
  · cases hdivided

end Dialect

end QueryTree
