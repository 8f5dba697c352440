import QueryTree.Dialect.Basic

/-!
# Composing a dialect

A dialect is composed on top of another one, or from nothing.  Each operation replaces what was
there for its key; building the dialect closes the composition.

* `Builder` is a composition under way.
* `Compose` is an operation on it, which may fail; what a failing operation did before it failed
  stays done.
* `register`, `registerTemplate`, `updateTemplate` and the three settings are the operations, and
  `registerAll` registers several plain operators.
  A `Registration` is a registration whose handler is still to come.
* **`build`** freezes the composition, and `Builder.toDialect` is the dialect that it stands for.
-/

namespace QueryTree

/-- The literal for "no limit" that is used unless a dialect has another one: the largest number
of rows. -/
def defaultMaxLimit : String := "18446744073709551615"

/-- A composition under way. -/
structure Builder where
  name : String
  base : Option String
  registry : Registry Handler
  templates : List (String × Template)
  statements : List String
  predicates : List String
  quoting : QuoteStyle
  placeholder : Placeholder
  maxLimit : String
  built : Bool := false

namespace Builder

/-- A composition on top of `base`, or from nothing. -/
def start (name : String) : Option Dialect → Builder
  | none =>
    { name
      base := none
      registry := .derive name none
      templates := []
      statements := []
      predicates := []
      quoting := .backtick
      placeholder := .question
      maxLimit := defaultMaxLimit }
  | some base =>
    { name
      base := some base.name
      registry := .derive name (some base.registry)
      templates := base.templates
      statements := base.statements
      predicates := base.predicates
      quoting := base.quoting
      placeholder := base.placeholder
      maxLimit := base.maxLimit }

/-- The dialect that a composition stands for. -/
def toDialect (b : Builder) : Dialect where
  name := b.name
  registry := { b.registry with own := b.registry.own.freeze }
  templates := b.templates
  statements := b.statements
  predicates := b.predicates
  quoting := b.quoting
  placeholder := b.placeholder
  maxLimit := b.maxLimit
  base := b.base

end Builder

/-- Why an operation of a composition fails. -/
inductive ComposeFault where
  | closed (what dialect : String)
  | registry (fault : RegistryFault)
  | noTemplate (name dialect : String)
  | template (fault : TemplateFault)

/-- The wording of a failed operation. -/
def ComposeFault.message : ComposeFault → String
  | .closed what dialect =>
    "Cannot change '" ++ what ++ "': dialect '" ++ dialect ++ "' is already built."
  | .registry fault => fault.message
  | .noTemplate name dialect =>
    "Cannot update syntax '" ++ name ++ "' in dialect '" ++ dialect
      ++ "': no such template. Use register_syntax() instead."
  | .template fault => fault.message

/-- An operation on a composition. -/
abbrev Compose := ExceptT ComposeFault (StateM Builder)

/-- Add a name to a list, unless it is there. -/
def addName (name : String) (names : List String) : List String :=
  if names.contains name then names else names ++ [name]

/-- A registration whose handler is still to come. -/
structure Registration where
  name : String
  statement : Bool
  predicate : Bool
  deriving Repr, DecidableEq

namespace Compose

/-- The composition has to be open. -/
def checkOpen (what : String) : Compose Unit := do
  let b ← get
  if b.built then throw (.closed what b.name)

/-- Register a handler, and accept the operator at the root of a query or as a key of a filter if
it is a statement or a predicate. -/
def register (name : String) (handler : Handler) (statement predicate : Bool) : Compose Unit := do
  checkOpen name
  let b ← get
  match b.registry.own.register (.str name) handler with
  | .error fault => throw (.registry fault)
  | .ok own =>
    set { b with
      registry := { b.registry with own }
      statements := if statement then addName name b.statements else b.statements
      predicates := if predicate then addName name b.predicates else b.predicates }

/-- Register operators that are neither statements nor predicates, in order. -/
def registerAll : List (String × Handler) → Compose Unit
  | [] => return ()
  | (name, handler) :: rest => do
    register name handler false false
    registerAll rest

/-- Ask for a registration whose handler is still to come. -/
def request (name : String) (statement predicate : Bool) : Compose Registration := do
  checkOpen name
  return ⟨name, statement, predicate⟩

/-- Complete a registration. -/
def complete (registration : Registration) (handler : Handler) : Compose Unit :=
  register registration.name handler registration.statement registration.predicate

/-- Read a template, once its name is known, and register it as an operator. -/
def registerTemplate (name : String) (read : String → Except TemplateFault Template)
    (defaults : Fields) (statement : Bool) : Compose Template := do
  checkOpen name
  match read name with
  | .error fault => throw (.template fault)
  | .ok template =>
    modify fun b => { b with templates := setEntry name template b.templates }
    register name (template.handler defaults) statement false
    return template

/-- Replace a template that is there; the operator stays a statement if it was one. -/
def updateTemplate (name : String) (read : String → Except TemplateFault Template)
    (defaults : Fields) : Compose Template := do
  let b ← get
  if (b.templates.lookup name).isNone then throw (.noTemplate name b.name)
  else registerTemplate name read defaults (b.statements.contains name)

/-- Set how names are quoted. -/
def quoting (style : QuoteStyle) : Compose Unit := do
  checkOpen "quoter"
  modify fun b => { b with quoting := style }

/-- Set the style of placeholders. -/
def placeholder (style : Placeholder) : Compose Unit := do
  checkOpen "placeholder"
  modify fun b => { b with placeholder := style }

/-- Set the literal for "no limit". -/
def maxLimit (literal : String) : Compose Unit := do
  checkOpen "max_limit"
  modify fun b => { b with maxLimit := literal }

/-- Freeze the composition. -/
def build : Compose Dialect := do
  checkOpen "build"
  modify fun b =>
    { b with built := true, registry := { b.registry with own := b.registry.own.freeze } }
  return (← get).toDialect

/-- The dialect that operations compose on top of `base`. -/
def dialectOf (name : String) (base : Option Dialect) (operations : Compose Unit) : Dialect :=
  (operations.run.run (Builder.start name base)).2.toDialect

end Compose

end QueryTree
