import QueryTree.Context
import QueryTree.Template.Basic

/-!
# Rendering a template

A template is rendered against the object that holds its references.  Parts that render to nothing
leave no trace, not even their space.

* `Fragment` is a text and whether a space stands before it; `joinFragments` puts them together.
* **`Template.render`** renders the parts in the order of the grammar.  A group whose guard is not
  given renders to nothing, and refuses every other reference of it that is given.
* `Template.checkKeys` checks the operand of an operator with a template, and `Template.handler` is
  that operator.
-/

namespace QueryTree

/-- A text and whether a space stands before it. -/
structure Fragment where
  text : String
  spaced : Bool
  deriving Repr, DecidableEq

/-- A fragment, unless its text is empty. -/
def Fragment.ofText (text : String) (spaced : Bool) : List Fragment :=
  if text.isEmpty then [] else [⟨text, spaced⟩]

/-- The first fragment with the space that stands before the group. -/
def respace (spaced : Bool) : List Fragment → List Fragment
  | [] => []
  | first :: rest => { first with spaced } :: rest

/-- The texts of fragments that follow others. -/
def fragmentTail : List Fragment → String
  | [] => ""
  | f :: rest => (if f.spaced then " " ++ f.text else f.text) ++ fragmentTail rest

/-- The texts of fragments, with their spaces between them. -/
def joinFragments : List Fragment → String
  | [] => ""
  | f :: rest => f.text ++ fragmentTail rest

/-- The items of a list reference: the entries of an object one by one, the items of a list, or the
value itself. -/
def seriesItems : Value → List Value
  | .object fields => fields.map fun entry => .object [entry]
  | .list items => items
  | v => [v]

/-- A value that is present has an item. -/
theorem seriesItems_ne_nil {v : Value} (h : v.isPresent = true) : seriesItems v ≠ [] := by
  cases v with
  | null => cases h
  | list items => simpa [Value.isPresent, seriesItems] using h
  | object fields => simpa [Value.isPresent, seriesItems] using h
  | bool flag | int number | float number | str text => exact List.cons_ne_nil _ _

/-- The items of an object are its entries, each an object of its own. -/
theorem mem_seriesItems_object {fields : Fields} {item : Value} :
    item ∈ seriesItems (.object fields) ↔ ∃ entry ∈ fields, .object [entry] = item := by
  rw [seriesItems, List.mem_map]

namespace Template

/-- Every reference but the guard has to be absent from a group that is switched off. -/
def checkAbsent (node : Fields) (guard : String) : List String → Rendering Unit
  | [] => return ()
  | key :: rest =>
    if key != guard && (node.valueOf key).isPresent then .refuse (.missingGuard key guard)
    else checkAbsent node guard rest

mutual

/-- The fragments of a part.  `name` is the name of the template. -/
def renderNode (ctx : Context) (name : String) (body : Fields) (column : Option String) :
    Node → Rendering (List Fragment)
  | .word text spaced => return [⟨text, spaced⟩]
  | .group children guard spaced =>
    if (body.valueOf guard).isPresent then do
      let inner ← renderNodes ctx name body column children
      return respace spaced inner
    else do
      checkAbsent body guard (keysOf children)
      return []
  | .series key separator required spaced =>
    let value := body.valueOf key
    if value.isPresent then do
      let parts ← Rendering.each (fun item => ctx.invoke key item body column) (seriesItems value)
      return Fragment.ofText (separator.intercalate (parts.filter fun part => !part.isEmpty)) spaced
    else if required then .refuse (.missingField key name)
    else return []
  | .required key spaced =>
    let value := body.valueOf key
    if value.isNull then .refuse (.missingField key name)
    else do
      let text ← ctx.invoke key value body column
      return Fragment.ofText text spaced
  | .inline key spaced =>
    let value := body.valueOf key
    if value.isNull then return []
    else do
      let text ← ctx.invoke key value body column
      return Fragment.ofText text spaced
termination_by structural node => node

/-- The fragments of a list of parts. -/
def renderNodes (ctx : Context) (name : String) (body : Fields) (column : Option String) :
    List Node → Rendering (List Fragment)
  | [] => return []
  | node :: rest => do
    let first ← renderNode ctx name body column node
    let others ← renderNodes ctx name body column rest
    return first ++ others
termination_by structural nodes => nodes

end

/-- The text of a template at the object that holds its references. -/
def render (t : Template) (ctx : Context) (body : Fields) (column : Option String) :
    Rendering String := do
  let fragments ← renderNodes ctx t.name body column t.nodes
  return joinFragments fragments

/-- Every key has to be a reference of the template. -/
def checkKeys (t : Template) (dialect : String) : List String → Rendering Unit
  | [] => return ()
  | key :: rest =>
    if !isOperatorKey key then .refuse (.plainKey t.name key)
    else if !t.keys.contains key then
      .refuse (.unknownOperator key dialect (.notInTemplate t.name))
    else t.checkKeys dialect rest

/-- The operator that a template renders.  Its operand is an object of references; references that
are not given take their value from `defaults`. -/
def handler (t : Template) (defaults : Fields) : Handler where
  name := "render_" ++ bareName t.name
  render ctx call :=
    match call.operand with
    | .object fields => do
      t.checkKeys ctx.dialect (Fields.keys fields)
      t.render ctx (Fields.withDefaults fields defaults) call.column
    | v => .refuse (.notABody t.name v)
  weight := Value.sizeFields defaults

end Template

end QueryTree
