import QueryTree.Dialect.Catalog
import QueryTree.Dialect.Compile
import QueryTree.Options.Settings
import QueryTree.Report

/-!
# Sessions

A session compiles queries for one dialect of a catalog.  What happens is told by events, which
come with the results.

* `Event` is something that a caller may want to log.
* `Dialect.compileLogged` compiles a query and tells how it went.  Statements and refused queries
  are told by an event, faults of the library itself are not.
* `Session.start` opens a session; an unknown dialect is replaced by the base dialect if the
  settings say so.
* **`compileFor`** compiles one query for a dialect given by name.
-/

namespace QueryTree

/-- Something that happened. -/
inductive Event where
  | composed (dialect : String) (base : Option String) (statements : List String)
  | registered (dialect : String) (aliases : List String)
  | compiled (dialect : String) (count : Nat)
  | compileFailed (dialect : String) (fault : Fault)
  | fallback (requested dialect : String)

/-- Whether an event deserves attention. -/
def Event.isWarning : Event → Bool
  | .fallback _ _ => true
  | _ => false

/-- The event of a dialect that was composed. -/
def Dialect.composedEvent (d : Dialect) : Event :=
  .composed d.name d.base (sortNames d.statements)

/-- The events of a compilation.  A fault that has no class goes by untold. -/
def Dialect.compileEvents (d : Dialect) : Except Fault Statement → List Event
  | .ok statement => [.compiled d.name statement.values.length]
  | .error fault => if fault.isClassified then [.compileFailed d.name fault] else []

/-- Compile a query and tell how it went. -/
def Dialect.compileLogged (d : Dialect) (query : Value) : Except Fault Statement × List Event :=
  let outcome := d.compile query
  (outcome, d.compileEvents outcome)

/-- A dialect that is ready to compile queries, and the settings it was chosen by. -/
structure Session where
  settings : Settings
  dialect : Dialect

namespace Session

/-- The settings with another dialect, which is checked again. -/
def settingsFor (settings : Settings) : Option Value → Checked Settings
  | none => .ok settings
  | some v => Settings.checkFields [("dialect", v), ("fallback_to_ansi", .bool settings.fallback)]

/-- The dialect that settings ask for. -/
def resolve (catalog : Catalog) (settings : Settings) :
    Except UnknownDialect Dialect × List Event :=
  match catalog.find (.str settings.dialect) with
  | .ok d => (.ok d, [])
  | .error unknown =>
    if settings.fallback then
      (catalog.find (.str baseDialectName), [.fallback settings.dialect baseDialectName])
    else (.error unknown, [])

/-- Open a session for `dialect`, or for the dialect of the settings if none is given. -/
def start (catalog : Catalog) (dialect : Option Value) (settings : Settings) :
    Except Failure Session × List Event :=
  match settingsFor settings dialect with
  | .error problems => (.error (.query (.badSettings problems)), [])
  | .ok settings =>
    match resolve catalog settings with
    | (.ok d, events) => (.ok ⟨settings, d⟩, events)
    | (.error unknown, events) => (.error (.dialect unknown), events)

/-- Compile a query. -/
def compile (session : Session) (query : Value) : Except Fault Statement × List Event :=
  session.dialect.compileLogged query

end Session

/-- Compile one query for a dialect of the catalog. -/
def compileFor (catalog : Catalog) (dialect : Option Value) (query : Value) :
    Except Failure Statement :=
  match Session.start catalog dialect {} with
  | (.error failure, _) => .error failure
  | (.ok session, _) => (session.compile query).1.mapError .query

end QueryTree
