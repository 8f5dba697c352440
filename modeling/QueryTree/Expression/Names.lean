import QueryTree.Context

/-!
# Lists of names

Tables and columns are given by one name, by a list of names, or by an object that maps a name to
`true` or to an alias.  Lists may nest.

* `aliasedName` renders one entry of such an object.
* **`nameList`** renders the whole list.
-/

namespace QueryTree

/-- A name with the alias that its entry gives it, if any. -/
def aliasedName (ctx : Context) (operator : Option String) (name : String) (spec : Value) :
    Rendering String :=
  if spec.isSwitch true then ctx.name name
  else
    match spec with
    | .object [("$as", rename)] => do
      let source ← ctx.name name
      let target ← ctx.identifier rename
      return source ++ " AS " ++ target
    | _ => .refuse (.badAlias operator name spec)

mutual

/-- A list of names, quoted and with commas between them. -/
def nameList (ctx : Context) (operator : Option String) : Value → Rendering String
  | .str text => ctx.name text
  | .list items =>
    if items.isEmpty then .refuse (.noIdentifiers operator)
    else do
      let parts ← nameItems ctx operator items
      return commaList parts
  | .object fields => do
    let parts ← Rendering.each (fun entry => aliasedName ctx operator entry.1 entry.2) fields
    return commaList parts
  | v => .refuse (.notIdentifiers operator v)
termination_by structural v => v

/-- The items of a list of names, each rendered as a list of its own. -/
def nameItems (ctx : Context) (operator : Option String) : List Value → Rendering (List String)
  | [] => return []
  | v :: rest => do
    let part ← nameList ctx operator v
    let parts ← nameItems ctx operator rest
    return part :: parts
termination_by structural vs => vs

end

end QueryTree
