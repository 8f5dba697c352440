import QueryTree.Expression.Operand

/-!
# Rows that are written

* `assignments` renders the new values of an update.
* `documents` renders the rows of an insertion: the columns are those of the first document, and
  every document has to have exactly these, in any order.
-/

namespace QueryTree.Operator

/-- A column and its new value. -/
def assignment (ctx : Context) (entry : String × Value) : Rendering String := do
  let column ← ctx.name entry.1
  let value ← valueExpression ctx "$set" entry.2
  return column ++ " = " ++ value

/-- The new values of an update. -/
def assignments : Handler where
  name := "assignments"
  render ctx call :=
    match call.operand with
    | .object fields =>
      if fields.isEmpty then .refuse .notAssignments
      else do
        let parts ← Rendering.each (assignment ctx) fields
        return commaList parts
    | _ => .refuse .notAssignments

/-- Whether a document has exactly the given columns. -/
def hasColumns (columns : List String) (document : Fields) : Bool :=
  document.keys.all columns.contains && columns.all document.keys.contains

/-- The value of a document in a column, which it has to have. -/
def documentValue (ctx : Context) (document : Fields) (column : String) : Rendering String :=
  match document.get? column with
  | some v => valueExpression ctx "$documents" v
  | none => .refuse (.missingKey column)

/-- One row: the values of a document in the order of the columns. -/
def documentRow (ctx : Context) (columns : List String) (index : Nat) :
    Value → Rendering String
  | .object fields =>
    if hasColumns columns fields then do
      let values ← Rendering.each (documentValue ctx fields) columns
      return "(" ++ commaList values ++ ")"
    else .refuse (.raggedDocument index columns)
  | _ => .refuse (.raggedDocument index columns)

/-- The rows of all documents, counted from `index`. -/
def documentRows (ctx : Context) (columns : List String) :
    Nat → List Value → Rendering (List String)
  | _, [] => return []
  | index, v :: rest => do
    let row ← documentRow ctx columns index v
    let rows ← documentRows ctx columns (index + 1) rest
    return row :: rows

/-- The columns and rows of a list of documents. -/
def documentTable (ctx : Context) : List Value → Rendering String
  | [] => .refuse .notDocuments
  | first :: rest =>
    match first with
    | .object ((key, value) :: fields) => do
      let columns := Fields.keys ((key, value) :: fields)
      let names ← Rendering.each ctx.name columns
      let rows ← documentRows ctx columns 0 (first :: rest)
      return "(" ++ commaList names ++ ") VALUES " ++ commaList rows
    | _ => .refuse .notADocument

/-- The rows of an insertion; one document stands for a list of one. -/
def documents : Handler where
  name := "documents"
  render ctx call :=
    match call.operand with
    | .object fields => documentTable ctx [.object fields]
    | .list items => documentTable ctx items
    | _ => .refuse .notDocuments

end QueryTree.Operator
