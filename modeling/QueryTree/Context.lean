import QueryTree.Rendering

/-!
# What an operator sees of its dialect

* `Context` is the part of a dialect that a rendering can depend on, with the connective around
  the place that is rendered.
* `Handler` renders one operator; its `weight` bounds the operands that it supplies on its own.
* `Context.name`, `Context.identifier` and `Context.invoke` are the three things most handlers do
  with a context.
-/

namespace QueryTree

/-- The dialect as a handler sees it, and the connective around the place that is rendered. -/
structure Context where
  dialect : String
  quoting : QuoteStyle
  maxLimit : String
  isStatement : String → Bool
  isPredicate : String → Bool
  isRegistered : String → Bool
  combinator : Option Combinator

/-- Renders an operator.  `weight` is the size of all operands that the handler may put in the
place of missing ones. -/
structure Handler where
  name : String
  render : Context → Call → Rendering String
  weight : Nat := 0

namespace Context

/-- The same dialect inside another connective. -/
def within (ctx : Context) (combinator : Option Combinator) : Context :=
  { ctx with combinator }

/-- A name, quoted. -/
def name (ctx : Context) (text : String) : Rendering String :=
  .ofExcept ((ctx.quoting.name text).mapError Fault.identifier)

/-- A value that has to be a name, quoted. -/
def identifier (ctx : Context) (value : Value) : Rendering String :=
  .ofExcept ((ctx.quoting.identifier value).mapError Fault.identifier)

/-- Render `operator` in the same place. -/
def invoke (ctx : Context) (operator : String) (operand : Value) (node : Fields)
    (column : Option String) : Rendering String :=
  .invoke ⟨operator, operand, node, column, ctx.combinator⟩

end Context

/-- Run a program for every item, in order, and collect the results. -/
def Rendering.each {α β : Type} (f : α → Rendering β) : List α → Rendering (List β)
  | [] => return []
  | a :: rest => do
    let b ← f a
    let bs ← each f rest
    return b :: bs

/-- The name of an operator without its leading dollar signs. -/
def bareName (operator : String) : String :=
  String.ofList (operator.toList.dropWhile (· == '$'))

end QueryTree
