import QueryTree.Expression.Filter
import QueryTree.Expression.Names
import QueryTree.Expression.Operand
import QueryTree.Text.Case

/-!
# Table definitions

The operators of a table definition.  A definition is a list of columns and named constraints;
what may be said of a column is decided by the column template of the dialect.

* `definitions` renders one entry of a definition, `constraints` a block of named constraints.
* `columnType`, `columnLength`, `columnDefault` and `columnComment` are parts of a column.
* `identityColumn`, `collation`, `check`, `reference`, `objectIds` and `tablespace` are options that
  not every dialect has.
-/

namespace QueryTree.Operator

/-- One column: its name and what the column template makes of its description. -/
def columnDefinition (ctx : Context) (name : String) : Value → Rendering String
  | .object fields => do
    let column ← ctx.name name
    let body :=
      match fields with
      | [("$column", body)] => body
      | _ => .object fields
    let text ← ctx.invoke "$column" body fields (some name)
    return column ++ " " ++ text
  | spec => .refuse (.badColumnDefinition name spec)

/-- One part of an entry of a definition: a column or a block of constraints. -/
def definition (ctx : Context) (node : Fields) (entry : String × Value) : Rendering String :=
  if entry.1 = "$constraint" then ctx.invoke "$constraint" entry.2 node none
  else if isOperatorKey entry.1 then
    .refuse (.unknownOperator entry.1 ctx.dialect .notInDefinition)
  else columnDefinition ctx entry.1 entry.2

/-- One entry of a definition. -/
def definitions : Handler where
  name := "define"
  render ctx call :=
    match call.operand with
    | .object fields =>
      if fields.isEmpty then .refuse .notDefinitions
      else do
        let parts ← Rendering.each (definition ctx fields) fields
        return commaList parts
    | _ => .refuse .notDefinitions

/-- The columns of a table and the columns of another one that they refer to. -/
def foreignKey (ctx : Context) (operand : Value) : Rendering String :=
  match operand with
  | .object fields =>
    match Fields.valueOf fields "$references", Fields.get? fields "$columns" with
    | .object target, some columns =>
      match Fields.get? target "$table", Fields.get? target "$columns" with
      | some table, some keys => do
        let source ← nameList ctx "$foreignKey" columns
        let table ← ctx.identifier table
        let keys ← nameList ctx "$foreignKey" keys
        return "FOREIGN KEY (" ++ source ++ ") REFERENCES " ++ table ++ " (" ++ keys ++ ")"
      | _, _ => .refuse .partialReference
    | _, _ => .refuse .notAForeignKey
  | _ => .refuse .notAForeignKey

/-- What a constraint demands. -/
def constraintBody (ctx : Context) (kind : String) (operand : Value) : Rendering String :=
  if kind = "$primary" then do
    let columns ← nameList ctx kind operand
    return "PRIMARY KEY (" ++ columns ++ ")"
  else if kind = "$unique" then do
    let columns ← nameList ctx kind operand
    return "UNIQUE (" ++ columns ++ ")"
  else if kind = "$foreignKey" then foreignKey ctx operand
  else .refuse (.unknownOperator kind ctx.dialect .notAConstraint)

/-- A named constraint. -/
def constraint (ctx : Context) (entry : String × Value) : Rendering String :=
  match entry.2 with
  | .object [(kind, operand)] => do
    let body ← constraintBody ctx kind operand
    let name ← ctx.name entry.1
    return "CONSTRAINT " ++ name ++ " " ++ body
  | spec => .refuse (.badConstraint entry.1 spec)

/-- A block of named constraints. -/
def constraints : Handler where
  name := "constraint"
  render ctx call :=
    match call.operand with
    | .object fields =>
      if fields.isEmpty then .refuse .notConstraints
      else do
        let parts ← Rendering.each (constraint ctx) fields
        return commaList parts
    | _ => .refuse .notConstraints

/-- Whether a character is a letter of ASCII. -/
def isLetter (c : Char) : Bool :=
  c.isAlpha

/-- Whether a character can stand in a word after its first letter. -/
def isWordChar (c : Char) : Bool :=
  c.isAlphanum || c == '_'

/-- A letter and then letters, digits and underscores. -/
def isTypeWord : List Char → Bool
  | [] => false
  | c :: rest => isLetter c && rest.all isWordChar

/-- Words with single spaces between them. -/
def isTypeName (text : String) : Bool :=
  (Text.split ' ' text.toList).all isTypeWord

/-- The type of a column, in capitals. -/
def columnType : Handler where
  name := "column_type"
  render _ call :=
    match call.operand with
    | .str text =>
      if isTypeName text then return Text.upper text else .refuse (.badType (.str text))
    | v => .refuse (.badType v)

/-- A size as a text, if it is a positive integer. -/
def sizeText? : Value → Option String
  | .int number => if 0 < number then some (toString number) else none
  | _ => none

/-- The sizes of a type: one, or a precision and a scale. -/
def lengthText? : Value → Option String
  | .list [size] => (sizeText? size).map fun a => "(" ++ a ++ ")"
  | .list [precision, scale] =>
    match sizeText? precision, sizeText? scale with
    | some a, some b => some ("(" ++ a ++ ", " ++ b ++ ")")
    | _, _ => none
  | .list _ => none
  | size => (sizeText? size).map fun a => "(" ++ a ++ ")"

/-- The sizes of a column's type, in parentheses. -/
def columnLength : Handler where
  name := "length"
  render _ call :=
    match lengthText? call.operand with
    | some text => return text
    | none => .refuse (.badLength call.operand)

/-- The value of a column that is not given one. -/
def columnDefault : Handler where
  name := "default"
  render ctx call := valueExpression ctx "$default" call.operand

/-- The comment of a column. -/
def columnComment : Handler where
  name := "comment"
  render _ call :=
    match call.operand with
    | .str text => .bound (.str text)
    | _ => .refuse .notAComment

/-- A column that numbers its rows: always, or only where no number is given. -/
def identityColumn : Handler where
  name := "identity"
  render _ call :=
    match call.operand with
    | .bool flag => return if flag then "GENERATED ALWAYS AS IDENTITY" else ""
    | .str "default" => return "GENERATED BY DEFAULT AS IDENTITY"
    | _ => .refuse .notAnIdentity

/-- The collation of a column, quoted as one segment. -/
def collation : Handler where
  name := "collate"
  render ctx call :=
    match call.operand with
    | .str text =>
      if text.isEmpty then .refuse .notACollation else return ctx.quoting.segment text
    | _ => .refuse .notACollation

/-- A filter that every row has to pass. -/
def check : Handler where
  name := "check"
  render ctx call := Filter.condition ctx call.operand none

/-- The table that a column refers to, and the columns there if they are given. -/
def reference : Handler where
  name := "references"
  render ctx call :=
    match call.operand with
    | .str table => ctx.name table
    | .object fields =>
      match Fields.get? fields "$table" with
      | some table =>
        if (Fields.keys fields).all ["$table", "$columns"].contains then do
          let target ← ctx.identifier table
          let columns := Fields.valueOf fields "$columns"
          if columns.isNull then return target
          else
            let columns ← nameList ctx "$references" columns
            return target ++ " (" ++ columns ++ ")"
        else .refuse .notAReference
      | none => .refuse .notAReference
    | _ => .refuse .notAReference

/-- Whether rows have object numbers. -/
def objectIds : Handler where
  name := "oids"
  render _ call :=
    match call.operand with
    | .bool flag => return if flag then "OIDS = TRUE" else "OIDS = FALSE"
    | _ => .refuse .notAnOidSwitch

/-- The place where a table is stored. -/
def tablespace : Handler where
  name := "tablespace"
  render ctx call :=
    match call.operand with
    | .str text => ctx.name text
    | _ => .refuse .notATablespace

end QueryTree.Operator
