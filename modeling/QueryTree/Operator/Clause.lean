import QueryTree.Expression.Columns
import QueryTree.Expression.Filter
import QueryTree.Expression.Names
import QueryTree.Text.Case

/-!
# Clauses

The operators that fill the clauses of a statement.  The keywords of a clause come from the
template of its statement, so each operator renders only its operand.

* `SortDirection.ofValue` reads the three spellings of a direction.
* `flag`, `boundValue` and `aggregate` are the operators of values; `flag` renders nothing, its
  keyword stands in the template.
* `resultColumns`, `tables`, `filter`, `grouping`, `sorting`, `limit` and `offset` are the clauses.
-/

namespace QueryTree

/-- The order in which a column is sorted. -/
inductive SortDirection where
  | ascending
  | descending
  deriving Repr, DecidableEq

namespace SortDirection

/-- The keyword of a direction. -/
def keyword : SortDirection → String
  | .ascending => "ASC"
  | .descending => "DESC"

/-- The direction of a keyword in any case. -/
def ofKeyword? (word : String) : Option SortDirection :=
  if Text.upper word = "ASC" then some .ascending
  else if Text.upper word = "DESC" then some .descending
  else none

/-- The direction that a value spells: a switch for one of the directions, a keyword, or the number
one or minus one. -/
def ofValue? : Value → Option SortDirection
  | .object [("$asc", .bool flag)] => some (if flag then .ascending else .descending)
  | .object [("$desc", .bool flag)] => some (if flag then .descending else .ascending)
  | .str word => ofKeyword? word
  | .int number =>
    if number = 1 then some .ascending else if number = -1 then some .descending else none
  | _ => none

/-- The direction that a value spells. -/
def ofValue (v : Value) : Except Fault SortDirection :=
  match ofValue? v with
  | some direction => .ok direction
  | none => .error (.badDirection v)

end SortDirection

namespace Operator

/-- A switch.  Its keyword stands in the template, so it renders nothing. -/
def flag (operator : String) : Handler where
  name := "flag_" ++ bareName operator
  render _ call :=
    match call.operand with
    | .bool _ => return ""
    | v => .refuse (.notAFlag operator v)

/-- A bound scalar. -/
def boundValue : Handler where
  name := "val"
  render _ call :=
    if call.operand.isScalar then .bound call.operand else .refuse (.notAScalar call.operand)

/-- A function of a column or of an expression. -/
def aggregate (function operator : String) : Handler where
  name := "aggregate_" ++ Text.lower function
  render ctx call := do
    let operand ←
      match call.operand with
      | .str column => ctx.name column
      | .object fields => valueExpression ctx operator (.object fields)
      | v => .refuse (.notAnAggregate operator v)
    return function ++ "(" ++ operand ++ ")"

/-- The columns of a result. -/
def resultColumns : Handler where
  name := "columns"
  render ctx call := projection ctx call.operand

/-- The tables of a statement, which are given by one of two keys. -/
def tables : Handler where
  name := "table"
  render ctx call :=
    if !(call.node.valueOf "$from").isNull && !(call.node.valueOf "$table").isNull then
      .refuse .twoTables
    else nameList ctx "$from" call.operand

/-- The filter of a statement. -/
def filter : Handler where
  name := "where"
  render ctx call := Filter.condition ctx call.operand none

/-- The columns that rows are grouped by. -/
def grouping : Handler where
  name := "group_by"
  render ctx call := nameList ctx "$groupBy" call.operand

/-- A column and the direction it is sorted in. -/
def sortEntry (ctx : Context) (entry : String × Value) : Rendering String := do
  let column ← ctx.name entry.1
  let direction ← Rendering.ofExcept (SortDirection.ofValue entry.2)
  return column ++ " " ++ direction.keyword

/-- The columns of one item of a list that rows are sorted by. -/
def sortItem (ctx : Context) : Value → Rendering (List String)
  | .str column => return [← ctx.name column]
  | .object fields => Rendering.each (sortEntry ctx) fields
  | v => .refuse (.badSortItem v)

/-- The columns that rows are sorted by. -/
def sortColumns (ctx : Context) : Value → Rendering String
  | .str column => ctx.name column
  | .object fields => do
    let columns ← Rendering.each (sortEntry ctx) fields
    return commaList columns
  | .list items =>
    if items.isEmpty then .refuse (.notASort (.list items))
    else do
      let columns ← Rendering.each (sortItem ctx) items
      return commaList columns.flatten
  | v => .refuse (.notASort v)

/-- The columns that rows are sorted by, in the order they were written. -/
def sorting : Handler where
  name := "sort"
  render ctx call := sortColumns ctx call.operand

/-- Whether a value is the word for "no limit". -/
def isNoLimit : Value → Bool
  | .str word => Text.upper word == "ALL"
  | _ => false

/-- The number of rows, bound, or the literal of the dialect for "no limit". -/
def limit : Handler where
  name := "limit"
  render ctx call :=
    if isNoLimit call.operand then return ctx.maxLimit
    else if call.operand.isCount then .bound call.operand
    else .refuse (.notALimit call.operand)

/-- The number of rows to skip, which only a limited statement has. -/
def offset : Handler where
  name := "offset"
  render _ call :=
    if (call.node.valueOf "$limit").isNull then .refuse .offsetAlone
    else if call.operand.isCount then .bound call.operand
    else .refuse (.notAnOffset call.operand)

end Operator

end QueryTree
