import QueryTree.Context

/-!
# Operands

An operand of a comparison, an assignment or an aggregate is one value: a scalar, which is bound,
or an object with exactly one operator.  A statement inside an operand stands in parentheses.

* **`valueExpression`** renders an operand.
-/

namespace QueryTree

/-- One operand.  `operator` is the operator it belongs to, for messages. -/
def valueExpression (ctx : Context) (operator : Option String) : Value → Rendering String
  | .object [(key, operand)] =>
    if isOperatorKey key then do
      let text ← ctx.invoke key operand [(key, operand)] none
      return if ctx.isStatement key then "(" ++ text ++ ")" else text
    else .refuse (.plainValueKey operator key)
  | .object fields => .refuse (.notOneOperator operator (Fields.keys fields))
  | .list items => .refuse (.notAValue operator (.list items))
  | scalar => .bound scalar

end QueryTree
