import QueryTree.Proofs.DocumentTables
import QueryTree.Proofs.Operands

/-!
# The forms of an operand

Where an operand is expected, a scalar is bound, a function is applied to a column or to another
operand, and a statement stands in parentheses.  Every other operator is accepted there too, and its
text stands as it is.

* `Dialect.IsOperand` : a value, its text as an operand, and the values that are bound with it.
* **`Dialect.operand_eq_ok_iff`** : an operand is rendered exactly with these texts and values.
-/

namespace QueryTree

/-- A program whose result is put into another one. -/
theorem Rendering.run_map_eq_ok_iff {α β : Type} {placeholder : Nat → String}
    {answer : Call → Compile String} {program : Rendering α} {f : α → β} {b : β}
    {s s' : Array Value} :
    ((do let a ← program; return f a).run placeholder answer).run.run s = (.ok b, s') ↔
      ∃ a, (program.run placeholder answer).run.run s = (.ok a, s') ∧ b = f a := by
  rw [run_andThen, bind_eq_ok_iff]
  constructor
  · rintro ⟨a, s₁, ha, hpure⟩
    cases hpure
    exact ⟨a, ha, rfl⟩
  · rintro ⟨a, ha, rfl⟩
    exact ⟨a, s', ha, rfl⟩

/-- A value is bound. -/
theorem Rendering.run_bound_eq_ok_iff {placeholder : Nat → String}
    {answer : Call → Compile String} {v : Value} {t : String} {s s' : Array Value} :
    ((bound v).run placeholder answer).run.run s = (.ok t, s') ↔
      t = placeholder (s.size + 1) ∧ s' = s.push v := by
  rw [run_bound, ← Array.size_push (v := v)]
  constructor
  · intro h
    cases h
    exact ⟨rfl, rfl⟩
  · rintro ⟨rfl, rfl⟩
    rfl

namespace Dialect

open Sql

variable {d : Dialect} {parent : Option Combinator} {binder values : Array Value}
  {operator text : String} {x : Value}

/-- The operators of values. -/
def valueOperators : List String := "$val" :: Ansi.aggregates.map Prod.fst

/-- What an operand is in the text, after the values of `binder`. -/
inductive IsOperand (d : Dialect) (parent : Option Combinator) (binder : Array Value) :
    Value → String → Array Value → Prop where
  /-- A scalar is bound. -/
  | scalar {v : Value} (h : v.isScalar = true) :
      IsOperand d parent binder v (d.placeholder (binder.size + 1)) (binder.push v)
  | bound {v : Value} (h : v.isScalar = true) :
      IsOperand d parent binder (.object [("$val", v)]) (d.placeholder (binder.size + 1))
        (binder.push v)
  /-- A function of a column. -/
  | column {operator function column name : String} (mem : (operator, function) ∈ Ansi.aggregates)
      (quoted : d.quoting.name column = .ok name) :
      IsOperand d parent binder (.object [(operator, .str column)])
        (function ++ "(" ++ name ++ ")") binder
  /-- A function of another operand. -/
  | function {operator function text : String} {fields : Fields} {values : Array Value}
      (mem : (operator, function) ∈ Ansi.aggregates)
      (inner : IsOperand d parent binder (.object fields) text values) :
      IsOperand d parent binder (.object [(operator, .object fields)])
        (function ++ "(" ++ text ++ ")") values
  /-- A statement in parentheses. -/
  | statement {operator text : String} {x : Value} {values : Array Value}
      (mem : operator ∈ d.statements)
      (rendered : d.invocation parent operator x [(operator, x)] none binder = (.ok text, values)) :
      IsOperand d parent binder (.object [(operator, x)]) ("(" ++ text ++ ")") values
  /-- Every other operator as it is. -/
  | other {operator text : String} {x : Value} {values : Array Value}
      (value : operator ∉ valueOperators)
      (statement : operator ∉ d.statements)
      (rendered : d.invocation parent operator x [(operator, x)] none binder = (.ok text, values)) :
      IsOperand d parent binder (.object [(operator, x)]) text values

theorem exists_handler_of_invocation (hd : d ∈ library) {node : Fields} {column : Option String}
    (h : d.invocation parent operator x node column binder = (.ok text, values)) :
    ∃ handler, d.registry.find? operator = some handler := by
  rw [invocation_eq hd, respond_eq hd] at h
  cases hfind : d.registry.find? operator with
  | none =>
    rw [hfind] at h
    cases h
  | some handler => exact ⟨handler, rfl⟩

theorem isOperatorKey_of_invocation (hd : d ∈ library) {node : Fields} {column : Option String}
    (h : d.invocation parent operator x node column binder = (.ok text, values)) :
    isOperatorKey operator = true := by
  have htable : ∀ entry ∈ Ansi.table ++ Mysql.table ++ Postgres.table,
      isOperatorKey entry.1 = true := by
    decide
  obtain ⟨handler, hfind⟩ := exists_handler_of_invocation hd h
  exact htable _ (find?_mem hd hfind)

theorem operand_eq (hd : d ∈ library) (label : Option String) (v : Value) :
    d.operand parent label v binder =
      ((valueExpression (d.context parent) label v).run d.placeholder
        d.respond).run.run binder := by
  rw [operand, runFor_eq hd (valueExpression_orderly _ _)]

/-- An operator as an operand. -/
theorem operand_object_iff (hd : d ∈ library) {label : Option String} :
    d.operand parent label (.object [(operator, x)]) binder = (.ok text, values) ↔
      ∃ t, d.invocation parent operator x [(operator, x)] none binder = (.ok t, values) ∧
        text = if operator ∈ d.statements then "(" ++ t ++ ")" else t := by
  rw [operand_eq hd, valueExpression]
  split
  · have hwrap : ∀ t, (if (d.context parent).isStatement operator = true then "(" ++ t ++ ")"
        else t) = if operator ∈ d.statements then "(" ++ t ++ ")" else t :=
      fun t => if_congr List.contains_iff_mem rfl rfl
    simp only [Rendering.run_map_eq_ok_iff, invocation_eq hd, Context.invoke, Rendering.run_invoke,
      hwrap]
    rfl
  · rename_i hkey
    constructor
    · intro h
      cases h
    · rintro ⟨t, ht, -⟩
      exact absurd (isOperatorKey_of_invocation hd ht) hkey

/-- A bound value. -/
theorem invocation_val_iff (hd : d ∈ library) {node : Fields} {column : Option String} :
    d.invocation parent "$val" x node column binder = (.ok text, values) ↔
      x.isScalar = true ∧ text = d.placeholder (binder.size + 1) ∧ values = binder.push x := by
  have hfind : d.registry.find? "$val" = some Operator.boundValue := find?_of_ansi hd rfl rfl rfl
  rw [invocation_eq hd, respond_eq hd, hfind]
  simp only [Operator.boundValue]
  split
  · rename_i hscalar
    rw [Rendering.run_bound_eq_ok_iff]
    simp [hscalar]
  · rename_i hscalar
    constructor
    · intro h
      cases h
    · rintro ⟨h, -⟩
      exact absurd h hscalar

theorem name_run_iff {column : String} :
    (((d.context parent).name column).run d.placeholder d.respond).run.run binder =
        (.ok text, values) ↔ d.quoting.name column = .ok text ∧ values = binder := by
  change ((Rendering.ofExcept ((d.quoting.name column).mapError Fault.identifier)).run
    d.placeholder d.respond).run.run binder = _ ↔ _
  cases d.quoting.name column with
  | error fault =>
    constructor
    · intro h
      cases h
    · rintro ⟨h, -⟩
      cases h
  | ok name =>
    constructor
    · intro h
      cases h
      exact ⟨rfl, rfl⟩
    · rintro ⟨h, rfl⟩
      cases h
      rfl

theorem find?_aggregate (hd : d ∈ library) {function : String}
    (hmem : (operator, function) ∈ Ansi.aggregates) :
    d.registry.find? operator = some (Operator.aggregate function operator) := by
  simp only [Ansi.aggregates, List.mem_cons, Prod.mk.injEq, List.not_mem_nil, or_false] at hmem
  rcases hmem with ⟨rfl, rfl⟩ | ⟨rfl, rfl⟩ | ⟨rfl, rfl⟩ | ⟨rfl, rfl⟩ | ⟨rfl, rfl⟩ <;>
    exact find?_of_ansi hd rfl rfl rfl

/-- A function of a column or of another operand. -/
theorem invocation_aggregate_iff (hd : d ∈ library) {function : String}
    (hmem : (operator, function) ∈ Ansi.aggregates) {node : Fields} {column : Option String} :
    d.invocation parent operator x node column binder = (.ok text, values) ↔
      ∃ inner, text = function ++ "(" ++ inner ++ ")" ∧
        ((∃ column, x = .str column ∧ d.quoting.name column = .ok inner ∧ values = binder) ∨
          ∃ fields, x = .object fields ∧
            d.operand parent operator (.object fields) binder = (.ok inner, values)) := by
  rw [invocation_eq hd, respond_eq hd, find?_aggregate hd hmem]
  cases x with
  | str column =>
    refine Rendering.run_map_eq_ok_iff.trans ?_
    simp [name_run_iff, and_comm]
  | object fields =>
    refine Rendering.run_map_eq_ok_iff.trans ?_
    simp [operand_eq hd, and_comm]
  | null | bool flag | int number | float number | list items =>
    constructor
    · intro h
      cases h
    · rintro ⟨inner, -, ⟨column, hx, -⟩ | ⟨fields, hx, -⟩⟩ <;> cases hx

/-- No statement is an operator of values. -/
theorem not_mem_statements (hd : d ∈ library) : ∀ operator ∈ valueOperators,
    operator ∉ d.statements := by
  rw [statements_eq hd]
  decide

/-- An operator that is rendered is an operand, if what it is a function of is one. -/
theorem isOperand_of_invocation (hd : d ∈ library)
    (hinner : ∀ label inner values, d.operand parent label x binder = (.ok inner, values) →
      IsOperand d parent binder x inner values)
    (h : d.invocation parent operator x [(operator, x)] none binder = (.ok text, values)) :
    IsOperand d parent binder (.object [(operator, x)])
      (if operator ∈ d.statements then "(" ++ text ++ ")" else text) values := by
  by_cases hvalue : operator ∈ valueOperators
  · rw [if_neg (not_mem_statements hd operator hvalue)]
    rcases List.mem_cons.1 hvalue with rfl | haggregate
    · obtain ⟨hscalar, rfl, rfl⟩ := (invocation_val_iff hd).1 h
      exact .bound hscalar
    · obtain ⟨⟨_, function⟩, hmem, rfl⟩ := List.mem_map.1 haggregate
      obtain ⟨inner, rfl, ⟨column, rfl, hname, rfl⟩ | ⟨fields, rfl, hoperand⟩⟩ :=
        (invocation_aggregate_iff hd hmem).1 h
      · exact .column hmem hname
      · exact .function hmem (hinner _ _ _ hoperand)
  · split
    · rename_i hstatement
      exact .statement hstatement h
    · rename_i hstatement
      exact .other hvalue hstatement h

/-- An operand is rendered by its operator, if what it is a function of is rendered. -/
theorem invocation_of_isOperand (hd : d ∈ library)
    (hinner : ∀ label inner values, IsOperand d parent binder x inner values →
      d.operand parent label x binder = (.ok inner, values))
    (h : IsOperand d parent binder (.object [(operator, x)]) text values) :
    ∃ t, d.invocation parent operator x [(operator, x)] none binder = (.ok t, values) ∧
      text = if operator ∈ d.statements then "(" ++ t ++ ")" else t := by
  have hplain : operator ∈ valueOperators → ∀ t : String,
      (if operator ∈ d.statements then "(" ++ t ++ ")" else t) = t :=
    fun hvalue t => if_neg (not_mem_statements hd operator hvalue)
  cases h with
  | scalar hscalar => cases hscalar
  | bound hscalar =>
    exact ⟨_, (invocation_val_iff hd).2 ⟨hscalar, rfl, rfl⟩, (hplain (by decide) _).symm⟩
  | column mem quoted =>
    have hvalue : operator ∈ valueOperators := List.mem_cons_of_mem _ (List.mem_map_of_mem mem)
    exact ⟨_, (invocation_aggregate_iff hd mem).2 ⟨_, rfl, .inl ⟨_, rfl, quoted, rfl⟩⟩,
      (hplain hvalue _).symm⟩
  | function mem inner =>
    have hvalue : operator ∈ valueOperators := List.mem_cons_of_mem _ (List.mem_map_of_mem mem)
    exact ⟨_, (invocation_aggregate_iff hd mem).2
      ⟨_, rfl, .inr ⟨_, rfl, hinner _ _ _ inner⟩⟩, (hplain hvalue _).symm⟩
  | statement mem rendered => exact ⟨_, rendered, (if_pos mem).symm⟩
  | other _ statement rendered => exact ⟨_, rendered, (if_neg statement).symm⟩

/-- **What an operand is**: a placeholder, a function call, a statement in parentheses, or whatever
another operator renders. -/
theorem operand_eq_ok_iff (hd : d ∈ library) {label : Option String} {v : Value} :
    d.operand parent label v binder = (.ok text, values) ↔
      IsOperand d parent binder v text values := by
  induction v using Value.induct generalizing label text values with
  | scalar v hscalar =>
    rw [operand_eq hd, Operator.valueExpression_of_isScalar hscalar, Rendering.run_bound_eq_ok_iff]
    constructor
    · rintro ⟨rfl, rfl⟩
      exact .scalar hscalar
    · intro h
      cases h with
      | scalar => exact ⟨rfl, rfl⟩
      | bound | column | function | statement | other => cases hscalar
  | list items _ =>
    rw [operand_eq hd]
    constructor
    · intro h
      cases h
    · rintro (hscalar | _)
      cases hscalar
  | object fields ih =>
    rcases fields with _ | ⟨⟨operator, x⟩, _ | ⟨second, rest⟩⟩
    · rw [operand_eq hd]
      constructor
      · intro h
        cases h
      · rintro (hscalar | _)
        cases hscalar
    · have hx := @ih (operator, x) List.mem_cons_self
      rw [operand_object_iff hd]
      constructor
      · rintro ⟨t, ht, rfl⟩
        exact isOperand_of_invocation hd (fun _ _ _ => hx.1) ht
      · exact invocation_of_isOperand hd fun _ _ _ => hx.2
    · rw [operand_eq hd]
      constructor
      · intro h
        cases h
      · rintro (hscalar | _)
        cases hscalar

end Dialect

end QueryTree
