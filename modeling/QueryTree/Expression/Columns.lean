import QueryTree.Expression.Operand

/-!
# The columns of a result

The columns of a result are given by one name, by a list of names and objects, or by an object.  In
an object a column is kept by `true` or one, left out by `false` or zero, given a value by another
scalar, and renamed or computed by an object.

* `columnEntry` renders one entry of an object, `none` if the column is left out.
* **`projection`** renders all columns and refuses to select none.
-/

namespace QueryTree

/-- The column of one entry of an object, or nothing if it is left out. -/
def columnEntry (ctx : Context) (name : String) (spec : Value) : Rendering (Option String) :=
  if spec.isSwitch true then some <$> ctx.name name
  else if spec.isSwitch false then return none
  else
    match spec with
    | .list items => .refuse (.badColumnSpec name (.list items))
    | .object fields =>
      match Fields.get? fields "$as" with
      | some rename => do
        let rest := fields.filter fun entry => entry.1 != "$as"
        let source ←
          if rest.isEmpty then ctx.name name else valueExpression ctx "$columns" (.object rest)
        let target ← ctx.identifier rename
        return source ++ " AS " ++ target
      | none => do
        let source ← valueExpression ctx "$columns" (.object fields)
        let target ← ctx.name name
        return source ++ " AS " ++ target
    | scalar => do
      let source ← Rendering.bound scalar
      let target ← ctx.name name
      return source ++ " AS " ++ target

/-- The columns of an object, those left out missing. -/
def columnEntries (ctx : Context) : Fields → Rendering (List String)
  | [] => return []
  | (name, spec) :: rest =>
    if isOperatorKey name then .refuse (.operatorColumn name)
    else do
      let column ← columnEntry ctx name spec
      let columns ← columnEntries ctx rest
      return column.toList ++ columns

/-- The columns of one item of a list. -/
def columnItem (ctx : Context) : Value → Rendering (List String)
  | .str text => return [← ctx.name text]
  | .object fields => columnEntries ctx fields
  | v => .refuse (.badColumn v)

/-- All columns, with commas between them; there has to be one. -/
def columnsOf (columns : List String) : Rendering String :=
  if columns.isEmpty then .refuse .noColumns else return commaList columns

/-- The columns of a result. -/
def projection (ctx : Context) : Value → Rendering String
  | .str text => ctx.name text
  | .list items => do
    let columns ← Rendering.each (columnItem ctx) items
    columnsOf columns.flatten
  | .object fields => do
    let columns ← columnEntries ctx fields
    columnsOf columns
  | v => .refuse (.notColumns v)

end QueryTree
