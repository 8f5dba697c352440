import QueryTree.Registry
import QueryTree.Template.Grammar
import QueryTree.Template.Render

/-!
# Dialects

A dialect says which operators there are and how they are written.  Once composed it never changes.

* `Placeholder` is a style of placeholders: the token of each number, counted from one.
* `Dialect` is a composed dialect.
* `Dialect.context` is the part of it that handlers see.
-/

namespace QueryTree

/-- A style of placeholders: the token of each number, counted from one. -/
abbrev Placeholder := Nat → String

namespace Placeholder

/-- Every placeholder is a question mark. -/
def question : Placeholder := fun _ => "?"

/-- A placeholder is a dollar sign and its number. -/
def numbered : Placeholder := fun index => "$" ++ toString index

end Placeholder

/-- A composed dialect. -/
structure Dialect where
  name : String
  registry : Registry Handler
  templates : List (String × Template)
  statements : List String
  predicates : List String
  quoting : QuoteStyle
  placeholder : Placeholder
  maxLimit : String
  base : Option String

namespace Dialect

/-- The template of an operator, if it has one. -/
def template? (d : Dialect) (name : String) : Option Template :=
  d.templates.lookup name

/-- The dialect as its handlers see it, inside the connective `combinator`. -/
def context (d : Dialect) (combinator : Option Combinator) : Context where
  dialect := d.name
  quoting := d.quoting
  maxLimit := d.maxLimit
  isStatement := d.statements.contains
  isPredicate := d.predicates.contains
  isRegistered name := (d.registry.find? name).isSome
  combinator := combinator

/-- The size of all operands that the handlers of a dialect can supply on their own. -/
def weight (d : Dialect) : Nat :=
  (d.registry.layers.flatMap Layer.entries).foldr (fun entry total => entry.2.weight + total) 0

end Dialect

end QueryTree
