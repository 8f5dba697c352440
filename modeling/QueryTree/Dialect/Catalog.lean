import QueryTree.Dialect.Mysql
import QueryTree.Dialect.Postgres
import QueryTree.Text.Case

/-!
# The catalog of dialects

Dialects are looked up by name, without regard to case.  A dialect can be in the catalog under
several names.

* `Catalog.register` adds a dialect under its own name and its aliases.
* `Catalog.find?` looks a name up; only texts are names.
* `Catalog.builtin` holds the three dialects of the library.
-/

namespace QueryTree

/-- Dialects by name, in small letters. -/
structure Catalog where
  entries : List (String × Dialect) := []

/-- A name that is not in the catalog, and the names that are. -/
structure UnknownDialect where
  name : String
  registered : List String
  deriving Repr, DecidableEq

/-- The wording of an unknown dialect. -/
def UnknownDialect.message (u : UnknownDialect) : String :=
  "Unsupported dialect: '" ++ u.name ++ "'. Registered dialects: " ++ namesLiteral u.registered
    ++ "."

namespace Catalog

/-- Add a dialect under its own name and its aliases. -/
def register (c : Catalog) (d : Dialect) (aliases : List String) : Catalog :=
  ⟨(d.name :: aliases).foldl (fun entries name => setEntry (Text.lower name) d entries) c.entries⟩

/-- The names of the catalog, in ascending order. -/
def names (c : Catalog) : List String :=
  sortNames (c.entries.map Prod.fst)

/-- The dialect of a name. -/
def find? (c : Catalog) : Value → Option Dialect
  | .str name => c.entries.lookup (Text.lower name)
  | _ => none

/-- The dialect of a name, which has to be in the catalog. -/
def find (c : Catalog) (name : Value) : Except UnknownDialect Dialect :=
  match c.find? name with
  | some d => .ok d
  | none => .error ⟨name.plain, c.names⟩

/-- The dialects of the library. -/
def builtin : Catalog :=
  (((⟨[]⟩ : Catalog).register .ansi []).register .mysql []).register .postgres ["postgres"]

end Catalog

end QueryTree
