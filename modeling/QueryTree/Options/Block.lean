import QueryTree.Value

/-!
# Option blocks

A few operands are blocks of options with fixed keys.  A block is checked as a whole: every
problem in it is reported, first those of the declared options in the order of their declaration,
then the keys that are not declared in the order they were written.

* `Problem` is one complaint, with the path of keys that leads to it.
* `Checked` is a result or the list of all problems; **`Checked.and`** joins two checks and keeps
  the problems of both.
* `optionalText`, `requiredText`, `optionalBlock` and `unexpectedKeys` read one part of a block.
-/

namespace QueryTree

/-- What is wrong with an option. -/
inductive ProblemKind where
  | missing
  | notText
  | emptyText
  | unexpectedKey
  | notABlock (block : String)
  | notBoolean
  | unreadableBoolean
  deriving Repr, DecidableEq

namespace ProblemKind

/-- The short name of a kind of problem. -/
def code : ProblemKind → String
  | .missing => "missing"
  | .notText => "string_type"
  | .emptyText => "string_too_short"
  | .unexpectedKey => "extra_forbidden"
  | .notABlock _ => "model_type"
  | .notBoolean => "bool_type"
  | .unreadableBoolean => "bool_parsing"

/-- The wording of a kind of problem. -/
def message : ProblemKind → String
  | .missing => "Field required"
  | .notText => "Input should be a valid string"
  | .emptyText => "String should have at least 1 character"
  | .unexpectedKey => "Extra inputs are not permitted"
  | .notABlock block => "Input should be a valid dictionary or instance of " ++ block
  | .notBoolean => "Input should be a valid boolean"
  | .unreadableBoolean => "Input should be a valid boolean, unable to interpret input"

end ProblemKind

/-- A problem, the keys that lead to it and the value it is about. -/
structure Problem where
  kind : ProblemKind
  path : List String
  input : Value

/-- The problem seen from the block that holds its block under `key`. -/
def Problem.under (key : String) (p : Problem) : Problem :=
  { p with path := key :: p.path }

/-- The outcome of a check: a result, or every problem that was found. -/
abbrev Checked (α : Type) := Except (List Problem) α

namespace Checked

/-- One problem. -/
def problem {α : Type} (kind : ProblemKind) (path : List String) (input : Value) : Checked α :=
  .error [⟨kind, path, input⟩]

/-- Two checks, with the problems of both. -/
def and {α β : Type} (a : Checked α) (b : Checked β) : Checked (α × β) :=
  match a, b with
  | .ok x, .ok y => .ok (x, y)
  | .ok _, .error qs => .error qs
  | .error ps, .ok _ => .error ps
  | .error ps, .error qs => .error (ps ++ qs)

/-- A check followed by one that only adds problems. -/
def guardedBy {α : Type} (a : Checked α) (b : Checked Unit) : Checked α :=
  (a.and b).map Prod.fst

/-- The check of a block inside another one, found there under `key`. -/
def under {α : Type} (key : String) : Checked α → Checked α
  | .ok x => .ok x
  | .error ps => .error (ps.map (Problem.under key))

end Checked

/-- A text that may be missing or `null`. -/
def optionalText (block : Fields) (key : String) : Checked (Option String) :=
  match block.get? key with
  | none => .ok none
  | some .null => .ok none
  | some (.str text) => .ok (some text)
  | some v => .problem .notText [key] v

/-- A text of at least one character. -/
def filledText (key : String) : Value → Checked String
  | .str text => if text.isEmpty then .problem .emptyText [key] (.str text) else .ok text
  | v => .problem .notText [key] v

/-- A text of at least one character that has to be given. -/
def requiredText (block : Fields) (key : String) : Checked String :=
  match block.get? key with
  | none => .problem .missing [key] (.object block)
  | some v => filledText key v

/-- A block of the given name that may be missing or `null`. -/
def optionalBlock {α : Type} (block : Fields) (key name : String) (check : Fields → Checked α) :
    Checked (Option α) :=
  match block.get? key with
  | none => .ok none
  | some .null => .ok none
  | some (.object fields) => ((check fields).under key).map some
  | some v => .problem (.notABlock name) [key] v

/-- Every key that is not declared is a problem. -/
def unexpectedKeys (block : Fields) (declared : List String) : Checked Unit :=
  match (block.filter fun entry => !declared.contains entry.1).map
      fun entry => (⟨.unexpectedKey, [entry.1], entry.2⟩ : Problem) with
  | [] => .ok ()
  | ps => .error ps

/-- A value that has to be a block. -/
def wholeBlock {α : Type} (name : String) (check : Fields → Checked α) : Value → Checked α
  | .object fields => check fields
  | v => .problem (.notABlock name) [] v

end QueryTree
