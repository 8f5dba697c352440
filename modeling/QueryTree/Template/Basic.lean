/-!
# Templates

A template is the layout of a statement: words that stand for themselves, references to operators,
and optional groups.  A space stands before a part exactly if there was one before it in the
grammar.

* `Node` is a part of a template and `Template` the whole, with the grammar it was read from.
* `Node.keys` lists the references of a part in the order of the grammar, those in groups included.
* `firstKey?` is the first of them; in a group it is the guard that switches the group on.
-/

namespace QueryTree

namespace Template

/-- A part of a template. -/
inductive Node where
  /-- A word. -/
  | word (text : String) (spaced : Bool)
  /-- A reference that has to be given. -/
  | required (key : String) (spaced : Bool)
  /-- A reference that is left out if it is not given. -/
  | inline (key : String) (spaced : Bool)
  /-- A reference to a list, rendered item by item with a separator between the items. -/
  | series (key separator : String) (required spaced : Bool)
  /-- Parts that are rendered if the guard is given. -/
  | group (children : List Node) (guard : String) (spaced : Bool)

/-- The first reference of a list of parts. -/
def firstKey? : List Node → Option String
  | [] => none
  | .word _ _ :: rest => firstKey? rest
  | .required key _ :: _ => some key
  | .inline key _ :: _ => some key
  | .series key _ _ _ :: _ => some key
  | .group _ guard _ :: _ => some guard

mutual

/-- The references of a part, in order. -/
def Node.keys : Node → List String
  | .word _ _ => []
  | .required key _ => [key]
  | .inline key _ => [key]
  | .series key _ _ _ => [key]
  | .group children _ _ => keysOf children
termination_by structural node => node

/-- The references of a list of parts, in order. -/
def keysOf : List Node → List String
  | [] => []
  | node :: rest => node.keys ++ keysOf rest
termination_by structural nodes => nodes

end

end Template

/-- The layout of an operator, with the grammar it was read from. -/
structure Template where
  name : String
  grammar : String
  nodes : List Template.Node

/-- The references of a template, in order and with repetitions. -/
def Template.keys (t : Template) : List String :=
  keysOf t.nodes

end QueryTree
