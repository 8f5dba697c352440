import QueryTree.Expression.Filter
import QueryTree.Expression.Operand

/-!
# Comparisons

The operators that test a column, and the two filter operators that do not: the negation of a
filter and the comparison of an expression.

* `comparisonWords` lists the binary comparisons with their SQL.
* `comparison`, `membership`, `between` and `nullTest` test the column they are applied to.
* `negation` and `expressionTest` are filter operators.
-/

namespace QueryTree

/-- The binary comparisons and how they are written in SQL. -/
def comparisonWords : List (String × String) :=
  [("$eq", "="), ("$ne", "!="), ("$gt", ">"), ("$gte", ">="), ("$lt", "<"), ("$lte", "<="),
    ("$like", "LIKE")]

namespace Operator

/-- The column that an operator is applied to, quoted; it has to have one. -/
def testedColumn (ctx : Context) (operator : String) : Option String → Rendering String
  | some column => ctx.name column
  | none => .refuse (.noColumn operator)

/-- `column <word> operand`.  Equality with `null` and its opposite test for a missing value. -/
def comparison (operator word : String) : Handler where
  name := "compare_" ++ bareName operator
  render ctx call := do
    let left ← testedColumn ctx operator call.column
    if call.operand.isNull && operator == "$eq" then return left ++ " IS NULL"
    else if call.operand.isNull && operator == "$ne" then return left ++ " IS NOT NULL"
    else
      let right ← valueExpression ctx operator call.operand
      return left ++ " " ++ word ++ " " ++ right

/-- `column <word> (a, b, …)`, or membership in the rows of a nested statement. -/
def membership (operator word : String) : Handler where
  name := "membership_" ++ bareName operator
  render ctx call := do
    let left ← testedColumn ctx operator call.column
    match call.operand with
    | .object fields =>
      let right ← valueExpression ctx operator (.object fields)
      return left ++ " " ++ word ++ " " ++ right
    | .list items =>
      if items.isEmpty then .refuse (.noMembers operator)
      else
        let members ← Rendering.each (valueExpression ctx operator) items
        return left ++ " " ++ word ++ " (" ++ commaList members ++ ")"
    | _ => .refuse (.noMembers operator)

/-- `column BETWEEN low AND high`. -/
def between : Handler where
  name := "between"
  render ctx call := do
    let left ← testedColumn ctx "$between" call.column
    match call.operand with
    | .list [low, high] =>
      let low ← valueExpression ctx "$between" low
      let high ← valueExpression ctx "$between" high
      return left ++ " BETWEEN " ++ low ++ " AND " ++ high
    | _ => .refuse .notAPair

/-- `column IS NULL` for `true` and `column IS NOT NULL` for `false`. -/
def nullTest : Handler where
  name := "is_null"
  render ctx call := do
    let left ← testedColumn ctx "$isNull" call.column
    match call.operand with
    | .bool true => return left ++ " IS NULL"
    | .bool false => return left ++ " IS NOT NULL"
    | _ => .refuse .notANullTest

/-- `NOT (filter)`. -/
def negation : Handler where
  name := "negate"
  render ctx call := do
    let text ← Filter.condition ctx call.operand none
    return "NOT (" ++ text ++ ")"

/-- How a comparison is written, which has to be one of the list. -/
def comparisonWord (operator : String) : Rendering String :=
  match comparisonWords.lookup operator with
  | some word => return word
  | none => .refuse (.missingKey operator)

/-- One comparison of an expression: the expression is rendered again for each of them. -/
def expressionPart (ctx : Context) (left : String × Value) (test : String × Value) :
    Rendering String := do
  let first ← valueExpression ctx "$expr" (.object [left])
  let second ← valueExpression ctx "$expr" test.2
  let word ← comparisonWord test.1
  return first ++ " " ++ word ++ " " ++ second

/-- One expression compared with one or more operands. -/
def expressionTest : Handler where
  name := "expression"
  render ctx call :=
    match call.operand with
    | .object fields =>
      let isTest := fun (entry : String × Value) => (comparisonWords.lookup entry.1).isSome
      match fields.filter (fun entry => !isTest entry), fields.filter isTest with
      | [left], test :: tests => do
        let parts ← Rendering.each (expressionPart ctx left) (test :: tests)
        Filter.group .and parts ctx.combinator
      | _, _ => .refuse (.badExpression (Fields.keys fields))
    | _ => .refuse .notAnExpression

end Operator

end QueryTree
