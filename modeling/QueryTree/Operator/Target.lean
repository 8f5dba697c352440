import QueryTree.Context
import QueryTree.Options.Outfile

/-!
# Targets of a result

The rows of a result can be stored in variables or written to a file.

* `isVariable` is the class of variable names, which stand in the statement as they are.
* `outfileClause` renders the options of a file, every one of them bound.
* `target` and `outfile` are the two operators.
-/

namespace QueryTree.Operator

/-- Whether a character can stand in a variable's name after its first letter. -/
def isVariableChar (c : Char) : Bool :=
  c.isAlphanum || c == '_' || c == '$' || c == '.'

/-- A letter or underscore, then letters, digits, underscores, dollar signs and dots. -/
def isVariableBody : List Char → Bool
  | [] => false
  | c :: rest => (c.isAlpha || c == '_') && rest.all isVariableChar

/-- A variable: a name after at most two at signs. -/
def isVariable (text : String) : Bool :=
  match text.toList with
  | '@' :: '@' :: rest => isVariableBody rest
  | '@' :: rest => isVariableBody rest
  | rest => isVariableBody rest

/-- The options that are given, each with its keyword and its placeholder. -/
def optionClauses : List (String × Option String) → Rendering (List String)
  | [] => return []
  | (_, none) :: rest => optionClauses rest
  | (keyword, some text) :: rest => do
    let token ← Rendering.bound (.str text)
    let clauses ← optionClauses rest
    return (keyword ++ " " ++ token) :: clauses

/-- A keyword and the options that are given under it, nothing if there are none. -/
def optionGroup (keyword : String) (options : List (String × Option String)) :
    Rendering (List String) := do
  let clauses ← optionClauses options
  return if clauses.isEmpty then [] else keyword :: clauses

/-- How columns are written. -/
def fieldClauses : Option FieldOptions → Rendering (List String)
  | none => return []
  | some options =>
    optionGroup "FIELDS"
      [("TERMINATED BY", options.terminatedBy), ("ENCLOSED BY", options.enclosedBy),
        ("ESCAPED BY", options.escapedBy)]

/-- How rows are written. -/
def lineClauses : Option LineOptions → Rendering (List String)
  | none => return []
  | some options =>
    optionGroup "LINES"
      [("STARTING BY", options.startingBy), ("TERMINATED BY", options.terminatedBy)]

/-- A file and how columns and rows are written to it. -/
def outfileClause (operand : Value) : Rendering String :=
  match OutfileOptions.check operand with
  | .error problems => .refuse (.badBlock "$outfile" problems)
  | .ok options => do
    let file ← Rendering.bound (.str options.file)
    let fields ← fieldClauses options.fields
    let lines ← lineClauses options.lines
    return " ".intercalate ("OUTFILE" :: file :: fields ++ lines)

/-- A variable that a column of the result is stored in. -/
def variableName : Value → Rendering String
  | .str text => if isVariable text then return text else .refuse (.badVariable (.str text))
  | v => .refuse (.badVariable v)

/-- Where the rows of a result go: to variables, to a file of rows, or to a file as they are. -/
def target : Handler where
  name := "into"
  render ctx call :=
    match call.operand with
    | .list items =>
      if items.isEmpty then .refuse .noVariables
      else do
        let names ← Rendering.each variableName items
        return commaList names
    | .object [(key, operand)] =>
      if key = "$outfile" then outfileClause operand
      else if key = "$dumpfile" then
        match operand with
        | .str path =>
          if path.isEmpty then .refuse .notAPath
          else do
            let token ← Rendering.bound (.str path)
            return "DUMPFILE " ++ token
        | _ => .refuse .notAPath
      else .refuse (.unknownOperator key ctx.dialect .notInTarget)
    | _ => .refuse .notATarget

/-- The file that the rows of a whole statement go to. -/
def outfile : Handler where
  name := "outfile"
  render _ call := do
    let clause ← outfileClause call.operand
    return "INTO " ++ clause

end QueryTree.Operator
