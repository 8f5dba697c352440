import QueryTree.Fault

/-!
# Rendering as a tree of effects

An operator is rendered by a program that may do three things besides computing a text: bind a
value to the next placeholder, render another operator, and refuse the query.  `Rendering` is such
a program as a tree; what the effects mean is left to whoever runs it.

* `Combinator` is the connective that surrounds a part of a filter.
* `Call` asks for an operator to be rendered at an operand.
* `Rendering` is a program with these effects, a lawful monad.
* **`Rendering.run`** gives the effects their meaning: the bound values are a list that only grows,
  a placeholder is the token of its number, and calls are answered by a function that is given.
  What was bound before a refusal stays bound.
* `run_andThen` : running a sequence of programs is running them one after another.
-/

namespace QueryTree

/-- The connective that surrounds a part of a filter.  Positions can be labelled with any key; only
the two connectives of a filter have a joining word. -/
inductive Combinator where
  | and
  | or
  | other (key : String)
  deriving Repr, DecidableEq

namespace Combinator

/-- The key that a combinator is written with. -/
def key : Combinator → String
  | .and => "$and"
  | .or => "$or"
  | .other key => key

/-- The combinator of a key. -/
def ofKey (key : String) : Combinator :=
  if key = "$and" then .and else if key = "$or" then .or else .other key

/-- The text that stands between the parts of a combination. -/
def joiner? : Combinator → Option String
  | .and => some " AND "
  | .or => some " OR "
  | .other _ => none

end Combinator

/-- A request to render `operator` at `operand`.  `node` is the object that holds the operator,
`column` the column it is applied to and `combinator` the connective around it. -/
structure Call where
  operator : String
  operand : Value
  node : Fields
  column : Option String
  combinator : Option Combinator

/-- A program that renders a part of a statement. -/
inductive Rendering (α : Type) : Type where
  | done (result : α)
  | refuse (fault : Fault)
  | bind (value : Value) (next : String → Rendering α)
  | call (request : Call) (next : String → Rendering α)
  | count (next : Nat → Rendering α)

namespace Rendering

variable {α β : Type}

/-- Run one program after another. -/
def andThen : Rendering α → (α → Rendering β) → Rendering β
  | .done result, f => f result
  | .refuse fault, _ => .refuse fault
  | .bind value next, f => .bind value fun token => (next token).andThen f
  | .call request next, f => .call request fun text => (next text).andThen f
  | .count next, f => .count fun n => (next n).andThen f

instance : Monad Rendering where
  pure := .done
  bind := andThen

theorem andThen_done (x : Rendering α) : x.andThen .done = x := by
  induction x with
  | done result => rfl
  | refuse fault => rfl
  | bind value next ih => simp only [andThen, ih]
  | call request next ih => simp only [andThen, ih]
  | count next ih => simp only [andThen, ih]

theorem andThen_assoc {γ : Type} (x : Rendering α) (f : α → Rendering β) (g : β → Rendering γ) :
    (x.andThen f).andThen g = x.andThen fun a => (f a).andThen g := by
  induction x with
  | done result => rfl
  | refuse fault => rfl
  | bind value next ih => simp only [andThen, ih]
  | call request next ih => simp only [andThen, ih]
  | count next ih => simp only [andThen, ih]

instance : LawfulMonad Rendering :=
  LawfulMonad.mk' Rendering andThen_done (fun _ _ => rfl) andThen_assoc

/-- Bind a value and continue with its placeholder. -/
def bound (value : Value) : Rendering String :=
  .bind value .done

/-- Render an operator and continue with its text. -/
def invoke (request : Call) : Rendering String :=
  .call request .done

/-- The number of values bound so far. -/
def boundCount : Rendering Nat :=
  .count .done

/-- A result, or a refusal. -/
def ofExcept : Except Fault α → Rendering α
  | .ok result => .done result
  | .error fault => .refuse fault

/-! ## Running a program -/

/-- A computation that binds values and may be refused; the values bound before a refusal are
kept. -/
abbrev Compile := ExceptT Fault (StateM (Array Value))

/-- Append a value and give the token of its number. -/
def bindValue (placeholder : Nat → String) (value : Value) : Compile String := do
  modify (·.push value)
  return placeholder (← get).size

/-- Run a program: `placeholder` writes the token of a number and `answer` renders the operators
that it calls. -/
def run (placeholder : Nat → String) (answer : Call → Compile String) :
    Rendering α → Compile α
  | .done result => pure result
  | .refuse fault => throw fault
  | .bind value next => do
    let token ← bindValue placeholder value
    (next token).run placeholder answer
  | .call request next => do
    let text ← answer request
    (next text).run placeholder answer
  | .count next => do
    (next (← get).size).run placeholder answer

variable (placeholder : Nat → String) (answer : Call → Compile String)

@[simp] theorem run_pure (result : α) :
    (pure result : Rendering α).run placeholder answer = pure result := rfl

@[simp] theorem run_refuse (fault : Fault) :
    (.refuse fault : Rendering α).run placeholder answer = throw fault := rfl

@[simp] theorem run_bound (value : Value) :
    (bound value).run placeholder answer = bindValue placeholder value := by
  simp [bound, run]

@[simp] theorem run_invoke (request : Call) :
    (invoke request).run placeholder answer = answer request := by
  simp [invoke, run]

/-- Programs run one after another. -/
@[simp] theorem run_andThen (x : Rendering α) (f : α → Rendering β) :
    (x >>= f).run placeholder answer =
      x.run placeholder answer >>= fun a => (f a).run placeholder answer := by
  change (x.andThen f).run placeholder answer = _
  induction x with
  | done result => simp [andThen, run]
  | refuse fault => rfl
  | bind value next ih => simp [andThen, run, ih]
  | call request next ih => simp [andThen, run, ih]
  | count next ih => simp [andThen, run, ih]

end Rendering

end QueryTree
