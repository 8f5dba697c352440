import QueryTree.Dialect.Builder
import QueryTree.Dialect.Catalog

/-!
# Reports of failures

A failure is reported to callers by its class, its wording and, if a query was refused, a code and
details that a program can read.

* `Report` is a report, with one function for every class that makes one from its parts.
* **`Fault.report`** reports a refused query.  All faults but those of a misused connective, of a
  lookup and of the step bound are of one of three classes.
* `Failure` joins the causes of all operations, and `Failure.report` reports them.
-/

namespace QueryTree

/-- The class of a refused query. -/
inductive Refusal where
  | invalidOperand
  | unknownOperator
  | missingField
  | general
  deriving Repr, DecidableEq

/-- What a program can read of a failure. -/
inductive Detail where
  | value (v : Value)
  | problems (list : List Problem)

/-- A failure as it is reported to callers. -/
inductive Report where
  /-- A query was refused. -/
  | refusal (kind : Refusal) (message code : String) (details : List (String × Detail))
  /-- A grammar could not be read. -/
  | grammar (message : String) (grammar : Value)
  /-- A dialect was composed in a wrong way. -/
  | composition (message : String)
  /-- A dialect is not in the catalog. -/
  | dialect (message name : String) (registered : List String)
  /-- Any other failure of the library. -/
  | general (message : String)
  /-- A failure that has no class of its own. -/
  | unclassified (message : String)

namespace Report

/-- Add a detail, unless there is one of that name. -/
def addDetail (details : List (String × Detail)) (key : String) (v : Value) :
    List (String × Detail) :=
  if details.any fun entry => entry.1 == key then details else details ++ [(key, .value v)]

/-- An operand was refused. -/
def invalidOperand (message : String) (operator : Option String)
    (details : List (String × Detail)) : Report :=
  .refusal .invalidOperand message "INVALID_OPERAND"
    (match operator with
      | none => details
      | some name => addDetail details "operator" (.str name))

/-- An operator cannot be used. -/
def unknownOperator (operator : Value) (dialect : String) (explanation : Option String) : Report :=
  .refusal .unknownOperator (Fault.unknownOperatorMessage operator.plain dialect explanation)
    "UNKNOWN_OPERATOR" [("operator", .value operator), ("dialect", .value (.str dialect))]

/-- A field has to be given. -/
def missingField (field operator : String) : Report :=
  .refusal .missingField (Fault.missingFieldMessage field operator) "MISSING_REQUIRED_FIELD"
    [("field", .value (.str field)), ("operator", .value (.str operator))]

/-- A dialect is not in the catalog. -/
def unknownDialect (u : UnknownDialect) : Report :=
  .dialect u.message u.name u.registered

/-- The wording of a report. -/
def message : Report → String
  | .refusal _ message _ _ => message
  | .grammar message _ => message
  | .composition message => message
  | .dialect message _ _ => message
  | .general message => message
  | .unclassified message => message

end Report

/-- What a program can read of a fault besides the operator. -/
def Fault.details : Fault → List (String × Detail)
  | .identifier (.notAName got) => [("type", .value (.str got.typeName))]
  | .notAQuery none => [("keys", .value .null)]
  | .notAQuery (some keys) => [("keys", .value (.list (keys.map .str)))]
  | .badBlock _ problems => [("errors", .problems problems)]
  | .badSettings problems => [("errors", .problems problems)]
  | _ => []

/-- The report of a refused query. -/
def Fault.report : Fault → Report
  | .unknownOperator operator dialect why =>
    .unknownOperator (.str operator) dialect why.explanation?
  | .missingField field template => .missingField field template
  | .unknownCombinator kind => .unclassified (Fault.unknownCombinator kind).message
  | .missingKey key => .unclassified (Fault.missingKey key).message
  | .tooDeep => .unclassified Fault.tooDeep.message
  | fault => .invalidOperand fault.message fault.operator? fault.details

/-- Why an operation of the library failed. -/
inductive Failure where
  | query (fault : Fault)
  | template (fault : TemplateFault)
  | registry (fault : RegistryFault)
  | unresolved (name : UnresolvedName)
  | compose (fault : ComposeFault)
  | dialect (unknown : UnknownDialect)

/-- The report of a failure. -/
def Failure.report : Failure → Report
  | .query fault => fault.report
  | .template fault => .grammar fault.message fault.grammar
  | .registry fault => .composition fault.message
  | .unresolved u => .unknownOperator u.name u.dialect none
  | .compose (.template fault) => .grammar fault.message fault.grammar
  | .compose fault => .composition fault.message
  | .dialect u => .unknownDialect u

end QueryTree
