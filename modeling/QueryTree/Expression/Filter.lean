import QueryTree.Context

/-!
# Filters

A filter is an object.  Its entries are joined with AND; an entry is a combination of filters, a
filter operator of the dialect, or a condition on a column.

* `group` joins the parts of a combination, in parentheses if it stands inside another connective.
* `columnPredicate` renders the condition on one column.
* **`condition`** renders a filter, and `combine` a list of filters under one connective.
-/

namespace QueryTree.Filter

/-- The parts of a combination joined, in parentheses if there are several and the combination
stands inside another connective. -/
def group (kind : Combinator) (parts : List String) (parent : Option Combinator) :
    Rendering String :=
  match kind.joiner? with
  | none => .refuse (.unknownCombinator kind.key)
  | some joiner =>
    let text := joiner.intercalate parts
    if 1 < parts.length && parent.isSome && parent != some kind then return "(" ++ text ++ ")"
    else return text

/-- One condition of an object of conditions on a column. -/
def columnTest (ctx : Context) (column : String) (spec : Fields) (entry : String × Value) :
    Rendering String :=
  if isOperatorKey entry.1 then ctx.invoke entry.1 entry.2 spec (some column)
  else .refuse (.plainFilterKey column entry.1)

/-- The condition on a column.  A scalar asks for equality, `null` for a missing value, a list for
membership, and an object for all of its comparisons. -/
def columnPredicate (ctx : Context) (column : String) (spec : Value)
    (parent : Option Combinator) : Rendering String :=
  match spec with
  | .null => do
    let left ← ctx.name column
    return left ++ " IS NULL"
  | .list items => ctx.invoke "$in" (.list items) [("$in", .list items)] (some column)
  | .object fields =>
    if fields.isEmpty then .refuse (.emptyColumnFilter column)
    else do
      let parts ← Rendering.each (columnTest ctx column fields) fields
      group .and parts parent
  | scalar => ctx.invoke "$eq" scalar [("$eq", scalar)] (some column)

mutual

/-- A filter inside the connective `parent`. -/
def condition (ctx : Context) (filter : Value) (parent : Option Combinator) : Rendering String :=
  match filter with
  | .object fields =>
    if fields.isEmpty then .refuse (.notAFilter (.object fields))
    else do
      let around := if 1 < fields.length then some Combinator.and else parent
      let parts ← conditionEntries ctx fields fields around
      group .and parts parent
  | v => .refuse (.notAFilter v)
termination_by structural filter

/-- The entries of a filter, each inside the connective `parent`; `node` is the whole filter. -/
def conditionEntries (ctx : Context) (node entries : Fields) (parent : Option Combinator) :
    Rendering (List String) :=
  match entries with
  | [] => return []
  | (key, value) :: rest => do
    let part ← conditionEntry ctx node key value parent
    let parts ← conditionEntries ctx node rest parent
    return part :: parts
termination_by structural entries

/-- One entry of a filter. -/
def conditionEntry (ctx : Context) (node : Fields) (key : String) (value : Value)
    (parent : Option Combinator) : Rendering String :=
  match Combinator.ofKey key with
  | .other _ =>
    if isOperatorKey key then
      if ctx.isPredicate key then (ctx.within parent).invoke key value node none
      else .refuse (.unknownOperator key ctx.dialect .notAFilter)
    else columnPredicate ctx key value parent
  | kind =>
    match value with
    | .list items =>
      if items.isEmpty then .refuse (.noOperands kind.key)
      else do
        let parts ← conditionItems ctx kind items
        group kind parts parent
    | _ => .refuse (.noOperands kind.key)
termination_by structural value

/-- The filters of a list, each inside the connective `kind`. -/
def conditionItems (ctx : Context) (kind : Combinator) : List Value → Rendering (List String)
  | [] => return []
  | v :: rest => do
    let part ← condition ctx v (some kind)
    let parts ← conditionItems ctx kind rest
    return part :: parts
termination_by structural vs => vs

end

/-- A non-empty list of filters under the connective `kind`. -/
def combine (ctx : Context) (kind : Combinator) (operands : Value) (parent : Option Combinator) :
    Rendering String :=
  match operands with
  | .list items =>
    if items.isEmpty then .refuse (.noOperands kind.key)
    else do
      let parts ← conditionItems ctx kind items
      group kind parts parent
  | _ => .refuse (.noOperands kind.key)

end QueryTree.Filter
