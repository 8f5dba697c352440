import QueryTree.Proofs.Descent

/-!
# Values that were bound before

A rendering binds its values after those that were bound before it.  Of these it sees their number,
in the placeholders that it writes, and nothing else; it leaves them as they are, also where it is
refused halfway.

* `Rendering.Compile.Resumes` : a run from some values and more is another run from the latter, with
  the former in front.
* `Dialect.after` is a dialect whose placeholders go on after others, and
  **`Dialect.answer_resumes`** says that its answers are resumed, to any depth of nested calls.
* `Part` is a part of a statement that can be asked for, and `Dialect.outcome` what comes of it.
* **`Dialect.outcome_after`** : the outcome after some values is that on none, with the placeholders
  counted from there.
-/

namespace QueryTree

open Rendering (Compile Orderly bindValue)

namespace Rendering

variable {α β : Type} {before : Array Value}

/-- From the values `before` and more, the run `m` does what `m'` does from the latter: it ends in
the same way, with the values `before` in front. -/
def Compile.Resumes (before : Array Value) (m m' : Compile α) : Prop :=
  ∀ values, m.run.run (before ++ values) = Prod.map id (before ++ ·) (m'.run.run values)

namespace Compile.Resumes

theorem pure (a : α) : Resumes before (Pure.pure a : Compile α) (Pure.pure a) :=
  fun _ => rfl

theorem throw (fault : Fault) :
    Resumes before (MonadExcept.throw fault : Compile α) (MonadExcept.throw fault) :=
  fun _ => rfl

/-- One run after another resumes if both do. -/
theorem bind {m m' : Compile α} {f f' : α → Compile β} (hm : Resumes before m m')
    (hf : ∀ a, Resumes before (f a) (f' a)) : Resumes before (m >>= f) (m' >>= f') := by
  intro values
  simp only [ExceptT.run_bind, StateT.run_bind, hm values]
  rcases m'.run.run values with ⟨fault | a, values'⟩
  · rfl
  · exact hf a values'

/-- The number of a value counts those before it. -/
theorem bindValue (token : Nat → String) (v : Value) :
    Resumes before (bindValue token v) (bindValue (fun i => token (before.size + i)) v) := by
  intro values
  have hpush : (before ++ values).push v = before ++ values.push v := by simp
  change (Except.ok (token ((before ++ values).push v).size), (before ++ values).push v) =
    (Except.ok (token (before.size + (values.push v).size)), before ++ values.push v)
  rw [hpush, Array.size_append]

end Compile.Resumes

/-- A program that does not ask for the number of bound values is resumed, if the answers to its
calls are. -/
theorem Orderly.run_resumes {asks : Call → Prop} (token : Nat → String)
    {answer answer' : Call → Compile String}
    (hanswer : ∀ c, asks c → Compile.Resumes before (answer c) (answer' c)) {x : Rendering α}
    (hx : x.Orderly asks) :
    Compile.Resumes before (x.run token answer)
      (x.run (fun i => token (before.size + i)) answer') := by
  induction x with
  | done a => exact .pure a
  | refuse fault => exact .throw fault
  | bind v next ih => exact (Compile.Resumes.bindValue token v).bind fun t => ih t (hx t)
  | call c next ih => exact (hanswer c hx.1).bind fun t => ih t (hx.2 t)
  | count next _ => exact hx.elim

end Rendering

namespace Dialect

/-- The dialect with its placeholders going on after `n` others. -/
def after (d : Dialect) (n : Nat) : Dialect :=
  { d with placeholder := fun i => d.placeholder (n + i) }

@[simp] theorem after_registry (d : Dialect) (n : Nat) : (d.after n).registry = d.registry := rfl

variable {d : Dialect}

/-- **Answers go on after the values that were bound before**, to any depth of nested calls. -/
theorem answer_resumes (hd : d ∈ library) (before : Array Value) (depth : Nat) (call : Call) :
    Compile.Resumes before (d.answer depth call) ((d.after before.size).answer depth call) := by
  induction depth generalizing call with
  | zero => exact .throw _
  | succ depth ih =>
    rw [answer, answer, after_registry]
    cases hfind : d.registry.find? call.operator with
    | none => exact .throw _
    | some handler => exact (descends_of_mem hd hfind _ call).run_resumes _ fun c _ => ih c

end Dialect

/-! ## Parts of a statement -/

/-- A part of a statement that can be asked for by itself. -/
inductive Part where
  /-- An operator at an operand, in an object and at a column. -/
  | call (operator : String) (v : Value) (node : Fields) (column : Option String)
  /-- A filter inside a connective. -/
  | filter (v : Value) (parent : Option Combinator)
  /-- The columns of a result. -/
  | columns (v : Value)
  /-- An operand of an operator. -/
  | operand (operator : Option String) (v : Value)
  /-- A list of names of an operator. -/
  | names (operator : Option String) (v : Value)
  /-- A template at the object that holds its references, and at a column. -/
  | template (t : Template) (body : Fields) (column : Option String)

namespace Part

/-- The value that is rendered. -/
def source : Part → Value
  | .call _ v _ _ => v
  | .filter v _ => v
  | .columns v => v
  | .operand _ v => v
  | .names _ v => v
  | .template _ body _ => .object body

/-- The program that renders it. -/
def program (ctx : Context) : Part → Rendering String
  | .call operator v node column => ctx.invoke operator v node column
  | .filter v parent => Filter.condition ctx v parent
  | .columns v => projection ctx v
  | .operand operator v => valueExpression ctx operator v
  | .names operator v => nameList ctx operator v
  | .template t body column => t.render ctx body column

/-- Every part of a query is rendered by an orderly program. -/
theorem program_orderly (ctx : Context) (part : Part) :
    ∃ asks, (part.program ctx).Orderly asks := by
  cases part with
  | call operator v node column => exact ⟨fun _ => True, .invoke trivial⟩
  | filter v parent => exact ⟨_, Filter.condition_orderly v parent⟩
  | columns v => exact ⟨_, projection_orderly v⟩
  | operand operator v => exact ⟨_, valueExpression_orderly operator v⟩
  | names operator v => exact ⟨fun _ => True, nameList_orderly operator v⟩
  | template t body column =>
    exact ⟨_, (Template.renderNodes_orderly t.name body column t.nodes).map _⟩

end Part

namespace Dialect

variable {d : Dialect}

/-- What comes of a part, inside the connective `combinator` and after the values of `binder`: its
text, or why it has none, and the values that are bound then. -/
def outcome (d : Dialect) (part : Part) (combinator : Option Combinator) (binder : Array Value) :
    Except Fault String × Array Value :=
  (d.runFor part.source (part.program (d.context combinator))).run.run binder

/-- **What was bound before counts by its number alone.**  Every part of a statement has the text,
or is refused for the reason, that it has on no values at all with the placeholders counted from
there.  The values from before stay in front of those that it binds then, whether or not it is
refused. -/
theorem outcome_after (hd : d ∈ library) (part : Part) (combinator : Option Combinator)
    (binder : Array Value) :
    d.outcome part combinator binder =
      (((d.after binder.size).outcome part combinator #[]).1,
        binder ++ ((d.after binder.size).outcome part combinator #[]).2) := by
  obtain ⟨asks, hprogram⟩ := part.program_orderly (d.context combinator)
  have hresumes := hprogram.run_resumes d.placeholder fun c _ =>
    answer_resumes hd binder (d.callBound part.source) c
  have hrun := hresumes #[]
  rw [Array.append_empty] at hrun
  exact hrun

/-- A filter with a nested query. -/
def nestedFilter : Part :=
  .filter (.object [("a", .int 1), ("b", .object [("$in", .object [("$select",
    .object [("$from", .str "u"), ("$where", .object [("c", .int 2)])])])])]) none

/-- Columns that are refused after a value was bound. -/
def refusedColumns : Part :=
  .columns (.object [("x", .int 5), ("y", .list [])])

set_option maxRecDepth 4000 in
/-- A nested query after two values, and columns that are refused after one. -/
theorem outcome_after_nestedFilter :
    postgres ∈ library ∧
      postgres.outcome nestedFilter none #[.int 7, .str "z"] =
        (.ok "\"a\" = $3 AND \"b\" IN (SELECT * FROM \"u\" WHERE \"c\" = $4)",
          #[.int 7, .str "z", .int 1, .int 2]) ∧
      postgres.outcome refusedColumns none #[.int 7] =
        (.error (.badColumnSpec "y" (.list [])), #[.int 7, .int 5]) := by
  have hd : postgres ∈ library := by simp [library]
  have hfilter : (postgres.after 2).outcome nestedFilter none #[] =
      (.ok "\"a\" = $3 AND \"b\" IN (SELECT * FROM \"u\" WHERE \"c\" = $4)",
        #[.int 1, .int 2]) := by
    rw [postgres_eq]
    rfl
  have hcolumns : (postgres.after 1).outcome refusedColumns none #[] =
      (.error (.badColumnSpec "y" (.list [])), #[.int 5]) := by
    rw [postgres_eq]
    rfl
  refine ⟨hd, ?_, ?_⟩
  · rw [outcome_after hd]
    exact congrArg (fun r => (r.1, #[.int 7, .str "z"] ++ r.2)) hfilter
  · rw [outcome_after hd]
    exact congrArg (fun r => (r.1, #[.int 7] ++ r.2)) hcolumns

end Dialect

end QueryTree
