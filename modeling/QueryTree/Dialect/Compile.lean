import QueryTree.Dialect.Basic

/-!
# Compiling a query

A query is an object with one statement.  Rendering it is a tree of calls; each call is answered by
the handler of its operator, which may call further operators at parts of its operand.

* `rootStatement` renders a query.
* **`Dialect.answer`** answers a call.  It counts the depth of nested calls and gives up at a bound;
  `Dialect.callBound` is one that a query cannot exceed, because operands get smaller with every
  call.
* **`Dialect.compile`** compiles a query to a statement and the values of its placeholders.
-/

namespace QueryTree

open Rendering (Compile)

/-- A compiled query: the text, the values of its placeholders in order, and the dialect. -/
structure Statement where
  sql : String
  values : List Value
  dialect : String

/-- A query: an object with one statement of the dialect. -/
def rootStatement (ctx : Context) : Value → Rendering String
  | .object [(name, body)] =>
    if ctx.isStatement name then ctx.invoke name body [(name, body)] none
    else
      .refuse (.unknownOperator name ctx.dialect
        (if ctx.isRegistered name then .notAStatement else .unregistered))
  | .object fields => .refuse (.notAQuery (some (Fields.keys fields)))
  | _ => .refuse (.notAQuery none)

namespace Dialect

/-- Answer a call by the handler of its operator, nesting calls at most `depth` deep. -/
def answer (d : Dialect) : Nat → Call → Compile String
  | 0, _ => throw .tooDeep
  | depth + 1, call =>
    match d.registry.find? call.operator with
    | none => throw (.unknownOperator call.operator d.name .unregistered)
    | some handler =>
      (handler.render (d.context call.combinator) call).run d.placeholder (d.answer depth)

/-- A depth of nested calls that rendering a value cannot exceed. -/
def callBound (d : Dialect) (v : Value) : Nat :=
  v.size + d.weight + 1

/-- Run a program whose operands are parts of `v`. -/
def runFor {α : Type} (d : Dialect) (v : Value) (program : Rendering α) : Compile α :=
  program.run d.placeholder (d.answer (d.callBound v))

/-- Compile a query. -/
def compile (d : Dialect) (query : Value) : Except Fault Statement :=
  match (d.runFor query (rootStatement (d.context none) query)).run.run #[] with
  | (.ok sql, values) => .ok ⟨sql, values.toList, d.name⟩
  | (.error fault, _) => .error fault

end Dialect

end QueryTree
