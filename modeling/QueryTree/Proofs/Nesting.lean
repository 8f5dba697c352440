import QueryTree.Proofs.DataIndependence
import QueryTree.Proofs.Renumbering

/-!
# Statements within statements

A statement that is an operand of another one stands in parentheses, and its placeholders go on from
those before it.  Otherwise it is what it is on its own, with one exception: an expression with
several comparisons stands in parentheses inside a disjunction, and a disjunction around the operand
counts too.

* `Likeness.woven` is the likeness of texts from two first numbers, and `Likeness.enclosed` the one
  of texts outside and inside a connective.
* **`Dialect.replies_raise_iff`** : after `n` bound values a call is replied with the placeholders
  raised by `n`.
* `Dialect.replies_within`, `Dialect.replies_of_within` : inside a connective the same calls are
  replied to, with more parentheses where an expression is exposed to it.
* **`statement_operand_iff`** : as an operand a statement compiles if it does on its own, binds the
  same values, and has its text with the placeholders raised, exactly if no expression is exposed to
  a connective around it.
-/

namespace QueryTree

open Sql (Scheme Spelling raise spell slotCount)

/-! ## Two likenesses -/

namespace Likeness

/-- Texts of the same glyphs, with numbers from the first and after `n` others. -/
def woven (n : Nat) : Likeness :=
  .ofCongruence
    { rel k a a' :=
        ∃ glyphs, slotCount glyphs = k ∧ a.toList = spell 0 glyphs ∧ a'.toList = spell n glyphs
      refl text :=
        ⟨text.toList.map .char, Sql.slotCount_chars _, (Sql.spell_chars 0 _).symm,
          (Sql.spell_chars n _).symm⟩
      append := by
        rintro k l a a' b b' ⟨ps, rfl, ha, ha'⟩ ⟨qs, rfl, hb, hb'⟩
        refine ⟨ps ++ qs, Sql.slotCount_append ps qs, ?_, ?_⟩
        · rw [String.toList_append, ha, hb, Sql.spell_append]
        · rw [String.toList_append, ha', hb', Sql.spell_append] }

/-- Parentheses do not make a text shorter. -/
theorem length_le {e : Prop} {a a' : String} (heq : ¬ e → a = a') (hlt : e → a.length < a'.length) :
    a.length ≤ a'.length := by
  by_cases he : e
  · exact (hlt he).le
  · rw [heq he]

/-- The same texts where no parentheses differ, and a longer one where some do. -/
def enclosed : Likeness where
  rel e k a a' :=
    a.isEmpty = a'.isEmpty ∧ (a.isEmpty = true → ¬ e ∧ k = 0) ∧ (¬ e → a = a') ∧
      (e → a.length < a'.length)
  refl text := ⟨rfl, fun _ => ⟨id, rfl⟩, fun _ => rfl, False.elim⟩
  append := by
    rintro e f k l a a' b b' ⟨ha, hae, heq, hlt⟩ ⟨hb, hbe, heq', hlt'⟩
    obtain ⟨hsame, hempty⟩ := isEmpty_append_congr ⟨ha, hae⟩ ⟨hb, hbe⟩
    refine ⟨hsame, hempty, fun hef => ?_, fun hef => ?_⟩
    · rw [not_or] at hef
      rw [heq hef.1, heq' hef.2]
    · have hle := length_le heq hlt
      have hle' := length_le heq' hlt'
      rw [String.length_append, String.length_append]
      rcases hef with he | hf
      · have := hlt he
        omega
      · have := hlt' hf
        omega
  isEmpty_eq h := h.1
  of_isEmpty h := h.2.1
  enclose := by
    rintro e k a a' ⟨-, -, heq, hlt⟩ hempty
    refine ⟨hempty.trans (isEmpty_enclose a').symm, fun h => ?_, fun h => absurd trivial h,
      fun _ => ?_⟩
    · exact absurd (hempty.symm.trans h) Bool.false_ne_true
    · have hle := length_le heq hlt
      have hparens : "(".length = 1 ∧ ")".length = 1 := ⟨rfl, rfl⟩
      rw [String.length_append, String.length_append]
      omega

end Likeness

/-- A call outside of all connectives next to the same call inside of one. -/
theorem Call.like_within (vary : Value → Value → Prop) (operator : String) (v : Value)
    (node : Fields) (column : Option String) (parent : Option Combinator) :
    Call.Like vary ⟨operator, v, node, column, none⟩ ⟨operator, v, node, column, parent⟩ :=
  ⟨rfl, .same _ _, fun _ => rfl, rfl, fun h => Bool.noConfusion h⟩

namespace Dialect

/-! ## Numbers -/

/-- Counting from `n` raises the placeholders of a dialect of the library by `n`. -/
theorem exists_raising {d : Dialect} (hd : d ∈ library) (n : Nat) :
    ∃ (S : Scheme) (L : Likeness), d.quoting.mark = S.mark ∧ d.placeholder = S.text ∧
      d.Like L 0 n d ∧
      ∀ {k : Nat} {a a' : String} {ts ts' : List Sql.Token}, Spelling S 0 a ts k →
        Spelling S n a' ts' k → L.rel False k a a' → a' = raise S.mark n a := by
  have hmark := (settled_of_mem hd).mark
  have hempty := Placeholder.isEmpty_eq_false (settled_of_mem hd).placeholder
  rcases (settled_of_mem hd).placeholder with hstyle | hstyle
  · refine ⟨.question _ hmark, .equal, rfl, hstyle, like_of_tokens hd fun i => ?_,
      fun h _ hrel => ?_⟩
    · refine Likeness.ofCongruence_rel (hempty _) (hempty _) ?_
      rw [hstyle]
      rfl
    · rw [Sql.raise_eq_self h fun _ => rfl, hrel.2.2 id]
  · refine ⟨.numbered _ hmark, .woven n, rfl, hstyle, like_of_tokens hd fun i => ?_,
      fun h h' hrel => ?_⟩
    · refine Likeness.ofCongruence_rel (hempty _) (hempty _) ⟨[.slot (i + 1)], rfl, ?_, ?_⟩
      · rw [hstyle]
        simp [Placeholder.numbered, spell, Sql.Glyph.spell]
      · have hindex : n + i + 1 = i + 1 + n := by omega
        rw [hstyle, hindex]
        simp [Placeholder.numbered, spell, Sql.Glyph.spell]
    · obtain ⟨glyphs, hcount, ha, ha'⟩ := hrel.2.2 id
      exact Sql.raise_spell hmark h h' hcount ha ha'

/-- After `n` bound values a call is replied with the placeholders raised by `n`. -/
theorem replies_raise_iff {d : Dialect} (hd : d ∈ library) {n depth : Nat} {call : Call}
    {t : String} {vs : List Value} :
    d.replies depth call n t vs ↔
      ∃ sql, d.replies depth call 0 sql vs ∧ t = raise d.quoting.mark n sql := by
  obtain ⟨S, L, hmark, hstyle, hlike, hraise⟩ := exists_raising hd n
  have hspelling : ∀ {m : Nat} {text : String}, d.replies depth call m text vs →
      ∃ ts, Spelling S m text ts vs.length := by
    intro m text hreply
    have hd' : { d with placeholder := S.text } = d := by rw [← hstyle]
    exact (answered_of_replies hd hmark (hd'.symm ▸ hreply)).clause.spelling
  have hcall : call.Like (fun _ _ => False) call := ⟨rfl, .same _ _, fun _ => rfl, rfl, id⟩
  -- the same call is made on both sides, so nothing enters a connective
  have hsame : ∀ {k : Nat} {a a' : String},
      (L.pairing fun _ _ => False).reply call call k a a' → L.rel False k a a' := fun hrel =>
    L.congr hrel (iff_of_false (fun henters => Combinator.not_enters_self _ henters.1) id) rfl
  rw [hmark]
  constructor
  · intro hreply
    obtain ⟨sql, us, hreply', hus, hrel⟩ := hlike.leads_back depth hcall (i := 0) hreply
    obtain rfl := Likeness.values_eq (List.Forall₂.flip hus)
    obtain ⟨_, hsql⟩ := hspelling hreply'
    obtain ⟨_, ht⟩ := hspelling hreply
    exact ⟨sql, hreply', hraise hsql ht (hsame hrel)⟩
  · rintro ⟨sql, hreply, rfl⟩
    obtain ⟨t, us, hreply', hus, hrel⟩ := hlike.leads depth hcall (i := 0) hreply
    obtain rfl := Likeness.values_eq hus
    obtain ⟨_, hsql⟩ := hspelling hreply
    obtain ⟨_, ht⟩ := hspelling hreply'
    rw [← hraise hsql ht (hsame hrel)]
    exact hreply'

/-! ## Connectives -/

/-- A dialect of the library next to itself, both counting from `n`. -/
theorem like_enclosed {d : Dialect} (hd : d ∈ library) (n : Nat) : d.Like .enclosed n n d := by
  refine like_of_tokens hd fun i => ⟨rfl, fun h => ?_, fun _ => rfl, False.elim⟩
  have hempty := Placeholder.isEmpty_eq_false (settled_of_mem hd).placeholder (n + i + 1)
  exact absurd (hempty.symm.trans h) Bool.false_ne_true

section Within

variable {d : Dialect} {n depth : Nat} {operator : String} {v : Value} {node : Fields}
  {column : Option String} {parent : Option Combinator} {t : String} {vs : List Value}

/-- What a call is replied outside of all connectives, it is replied inside of one, up to
parentheses around an expression that is exposed to it. -/
theorem replies_within (hd : d ∈ library) (parent : Option Combinator)
    (h : d.replies depth ⟨operator, v, node, column, none⟩ n t vs) :
    ∃ t', d.replies depth ⟨operator, v, node, column, parent⟩ n t' vs ∧
      (t' = t ↔ ¬ (Combinator.Enters none parent ∧ Exposed (.ofOperator operator) v)) := by
  have hlike := Call.like_within (fun _ _ => False) operator v node column parent
  obtain ⟨t', us, h', hus, -, -, heq, hlt⟩ := (like_enclosed hd n).leads depth hlike (i := 0) h
  obtain rfl := Likeness.values_eq hus
  refine ⟨t', h', fun hsame hexposed => ?_, fun hexposed => (heq hexposed).symm⟩
  have := hlt hexposed
  rw [hsame] at this
  exact lt_irrefl _ this

theorem replies_of_within (hd : d ∈ library)
    (h : d.replies depth ⟨operator, v, node, column, parent⟩ n t vs) :
    ∃ t', d.replies depth ⟨operator, v, node, column, none⟩ n t' vs := by
  have hlike := Call.like_within (fun _ _ => False) operator v node column parent
  obtain ⟨t', us, h', hus, -⟩ := (like_enclosed hd n).leads_back depth hlike (i := 0) h
  obtain rfl := Likeness.values_eq (List.Forall₂.flip hus)
  exact ⟨t', h'⟩

end Within

/-! ## Operands -/

/-- A query as an operand inside the connective `parent`, after the values of `binder`: its text, or
why it has none, and the values that are bound then. -/
def operand (d : Dialect) (parent : Option Combinator) (operator : Option String) (query : Value)
    (binder : Array Value) : Except Fault String × Array Value :=
  (d.runFor query (valueExpression (d.context parent) operator query)).run.run binder

theorem isOperatorKey_of_mem_statements {d : Dialect} (hd : d ∈ library) :
    ∀ name ∈ d.statements, isOperatorKey name = true := by
  simp only [library, List.mem_cons, List.not_mem_nil, or_false] at hd
  rcases hd with rfl | rfl | rfl
  · rw [ansi_eq]
    decide
  · rw [mysql_eq]
    decide
  · rw [postgres_eq]
    decide

section Operands

variable {d : Dialect} {name : String} {body : Value} {parent : Option Combinator}
  {operator : Option String} {binder binder' : Array Value} {text : String}

/-- A statement compiles to what its operator is replied. -/
theorem compile_statement_iff (hname : name ∈ d.statements) {statement : Statement} :
    d.compile (.object [(name, body)]) = .ok statement ↔
      statement.dialect = d.name ∧
        d.replies (d.callBound (.object [(name, body)])) ⟨name, body, [(name, body)], none, none⟩ 0
          statement.sql statement.values := by
  have hroot : rootStatement (d.context none) (.object [(name, body)]) =
      .invoke ⟨name, body, [(name, body)], none, none⟩ :=
    if_pos (List.contains_iff_mem.2 hname)
  rw [compile_eq_ok_iff, hroot, Rendering.yields_invoke]

/-- As an operand it stands in parentheses. -/
theorem operand_statement_iff (hd : d ∈ library) (hname : name ∈ d.statements) :
    d.operand parent operator (.object [(name, body)]) binder = (.ok text, binder') ↔
      ∃ t vs, text = "(" ++ t ++ ")" ∧ binder' = binder ++ vs.toArray ∧
        d.replies (d.callBound (.object [(name, body)]))
          ⟨name, body, [(name, body)], none, parent⟩ binder.size t vs := by
  have hvalue : valueExpression (d.context parent) operator (.object [(name, body)]) =
      (do
        let text ← Rendering.invoke ⟨name, body, [(name, body)], none, parent⟩
        return "(" ++ text ++ ")") := by
    rw [valueExpression, if_pos (isOperatorKey_of_mem_statements hd name hname)]
    have hstatement : (d.context parent).isStatement name = true := List.contains_iff_mem.2 hname
    simp only [hstatement, if_true]
    rfl
  rw [operand, runFor_eq_ok_iff, hvalue]
  constructor
  · rintro ⟨vs, hbinder, hyields⟩
    obtain ⟨t, us, ws, ht, ⟨rfl, rfl⟩, rfl⟩ := Rendering.yields_bind.1 hyields
    rw [List.append_nil] at hbinder
    refine ⟨t, us, rfl, ?_, Rendering.yields_invoke.1 ht⟩
    rw [← Array.toList_inj, hbinder, Array.toList_append]
  · rintro ⟨t, vs, rfl, rfl, hreply⟩
    refine ⟨vs, Array.toList_append, Rendering.yields_bind.2 ⟨t, vs, [], ?_, ⟨rfl, rfl⟩, ?_⟩⟩
    · exact Rendering.yields_invoke.2 hreply
    · rw [List.append_nil]

/-- An operand that is a statement compiles on its own. -/
theorem compile_of_operand (hd : d ∈ library) (hname : name ∈ d.statements)
    (h : d.operand parent operator (.object [(name, body)]) binder = (.ok text, binder')) :
    ∃ statement, d.compile (.object [(name, body)]) = .ok statement := by
  obtain ⟨t, vs, -, -, hreply⟩ := (operand_statement_iff hd hname).1 h
  obtain ⟨t', hout⟩ := replies_of_within hd hreply
  obtain ⟨sql, hstart, -⟩ := (replies_raise_iff hd).1 hout
  exact ⟨⟨sql, vs, d.name⟩, (compile_statement_iff hname).2 ⟨rfl, hstart⟩⟩

/-- Texts in parentheses are the same if the texts are. -/
theorem parenthesize_inj {a b : String} : "(" ++ a ++ ")" = "(" ++ b ++ ")" ↔ a = b := by
  rw [String.append_left_inj, String.append_right_inj]

theorem enters_none_iff : Combinator.Enters none parent ↔ parent ≠ none ∧ parent ≠ some .and := by
  cases parent with
  | none => simp [Combinator.Enters, Combinator.encloses]
  | some combinator => simp [Combinator.Enters, Combinator.encloses]

/-- A statement that compiles on its own is an operand. -/
theorem operand_of_compile (hd : d ∈ library) (hname : name ∈ d.statements)
    (parent : Option Combinator) (operator : Option String) (binder : Array Value)
    {statement : Statement} (h : d.compile (.object [(name, body)]) = .ok statement) :
    ∃ text, d.operand parent operator (.object [(name, body)]) binder =
        (.ok text, binder ++ statement.values.toArray) ∧
      (text = "(" ++ raise d.quoting.mark binder.size statement.sql ++ ")" ↔
        parent = none ∨ parent = some .and ∨ ¬ Exposed .nested (.object [(name, body)])) := by
  obtain ⟨-, hreply⟩ := (compile_statement_iff hname).1 h
  have hraised := (replies_raise_iff hd (n := binder.size)).2 ⟨_, hreply, rfl⟩
  obtain ⟨t, hnested, hiff⟩ := replies_within hd parent hraised
  refine ⟨"(" ++ t ++ ")", (operand_statement_iff hd hname).2 ⟨t, _, rfl, rfl, hnested⟩, ?_⟩
  rw [parenthesize_inj, hiff, enters_none_iff, Exposed.single_iff rfl, not_and_or, not_and_or,
    not_not, not_not, or_assoc]

end Operands

end Dialect

/-- **A statement within a statement.** As an operand it compiles if it does on its own, and binds
the same values.  Its text is the one it has on its own, in parentheses and with the placeholders
raised, exactly if no expression with several comparisons is exposed to a connective other than a
conjunction. -/
theorem statement_operand_iff {d : Dialect} (hd : d ∈ Dialect.library) {name : String}
    (hname : name ∈ d.statements) (body : Value) (parent : Option Combinator)
    (operator : Option String) (binder : Array Value) :
    ((∃ text values, d.operand parent operator (.object [(name, body)]) binder =
          (.ok text, values)) ↔
        ∃ statement, d.compile (.object [(name, body)]) = .ok statement) ∧
      ∀ statement, d.compile (.object [(name, body)]) = .ok statement →
        ∃ text, d.operand parent operator (.object [(name, body)]) binder =
            (.ok text, binder ++ statement.values.toArray) ∧
          (text = "(" ++ raise d.quoting.mark binder.size statement.sql ++ ")" ↔
            parent = none ∨ parent = some .and ∨ ¬ Exposed .nested (.object [(name, body)])) := by
  refine ⟨⟨?_, ?_⟩, fun statement hcompile => ?_⟩
  · rintro ⟨text, values, hoperand⟩
    exact Dialect.compile_of_operand hd hname hoperand
  · rintro ⟨statement, hcompile⟩
    obtain ⟨text, hoperand, -⟩ :=
      Dialect.operand_of_compile hd hname parent operator binder hcompile
    exact ⟨text, _, hoperand⟩
  · exact Dialect.operand_of_compile hd hname parent operator binder hcompile

/-- A column that compares a count twice. -/
def countedColumns : Value :=
  .object
    [("x", .object
      [("$expr", .object [("$count", .str "*"), ("$gt", .int 1), ("$lt", .int 5)])])]

/-- A statement with that column and with a name that looks like a placeholder. -/
def countedSelect : Value :=
  .object
    [("$select", .object
      [("$columns", countedColumns), ("$from", .str "t"), ("$where", .object [("a$1", .int 3)])])]

/-- The statement on its own in the PostgreSQL dialect. -/
def countedStatement : Statement where
  sql := "SELECT COUNT(*) > $1 AND COUNT(*) < $2 AS \"x\" FROM \"t\" WHERE \"a$1\" = $3"
  values := [.int 1, .int 5, .int 3]
  dialect := "postgresql"

set_option maxRecDepth 4000 in
theorem compile_countedSelect : Dialect.postgres.compile countedSelect = .ok countedStatement := by
  rw [Dialect.postgres_eq]
  rfl

/-- Its text after one value. -/
def countedText : String :=
  "SELECT COUNT(*) > $2 AND COUNT(*) < $3 AS \"x\" FROM \"t\" WHERE \"a$1\" = $4"

theorem raise_countedStatement :
    raise Dialect.postgres.quoting.mark 1 countedStatement.sql = countedText := by
  rw [Dialect.postgres_eq]
  rfl

/-- The comparisons are exposed to a connective around the statement. -/
theorem exposed_countedSelect : Exposed .nested countedSelect := by
  have hcolumns : Exposed .columns countedColumns :=
    .entry (List.mem_singleton_self _) rfl ((Exposed.single_iff rfl).2 (.several (by decide)))
  have hholds : Position.Holds .clauses
      [("$columns", countedColumns), ("$from", .str "t"), ("$where", .object [("a$1", .int 3)])]
      "$columns" countedColumns := rfl
  exact (Exposed.single_iff rfl).2 (.entry hholds rfl hcolumns)

/-- In a conjunction the statement is what it is on its own, in a disjunction it is not. -/
theorem statement_operand_iff_countedSelect :
    Dialect.postgres ∈ Dialect.library ∧ "$select" ∈ Dialect.postgres.statements ∧
      Dialect.postgres.operand (some .and) none countedSelect #[.int 7] =
        (.ok ("(" ++ countedText ++ ")"), #[.int 7, .int 1, .int 5, .int 3]) ∧
      ∃ text,
        Dialect.postgres.operand (some .or) none countedSelect #[.int 7] =
            (.ok text, #[.int 7, .int 1, .int 5, .int 3]) ∧
          text ≠ "(" ++ countedText ++ ")" := by
  have hmem : Dialect.postgres ∈ Dialect.library := by simp [Dialect.library]
  have hname : "$select" ∈ Dialect.postgres.statements := by
    rw [Dialect.postgres_eq]
    decide
  obtain ⟨text, hoperand, hiff⟩ :=
    (statement_operand_iff hmem hname _ (some .and) none #[.int 7]).2 _ compile_countedSelect
  obtain ⟨text', hoperand', hiff'⟩ :=
    (statement_operand_iff hmem hname _ (some .or) none #[.int 7]).2 _ compile_countedSelect
  have hraise : raise Dialect.postgres.quoting.mark (#[.int 7] : Array Value).size
      countedStatement.sql = countedText := raise_countedStatement
  rw [hraise] at hiff hiff'
  refine ⟨hmem, hname, ?_, text', hoperand', fun hsame => ?_⟩
  · rw [← hiff.2 (.inr (.inl rfl))]
    exact hoperand
  · rcases hiff'.1 hsame with hnone | hand | hhidden
    · cases hnone
    · cases hand
    · exact hhidden exposed_countedSelect

end QueryTree
