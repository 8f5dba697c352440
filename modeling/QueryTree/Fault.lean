import QueryTree.Identifier
import QueryTree.Options.Block
import QueryTree.Value.Literal

/-!
# Why a query is refused

Every way in which a compilation can fail is a constructor of `Fault`, so that a failure can be
told apart from another one without reading its text.

* `Unsupported` says why an operator cannot stand where it was found.
* `Fault` is the cause of a failure.  Faults of operands keep the operator whose operand was
  refused; in places that are shared by several operators it is a parameter.
* `Fault.message` words a cause, and `Fault.operator?` names the operator it is about.
* `Fault.isClassified` tells the faults of queries from those of the library itself.
-/

namespace QueryTree

/-- Why an operator that was written cannot be used there. -/
inductive Unsupported where
  | unregistered
  | notAStatement
  | notInTemplate (template : String)
  | notAFilter
  | notInDefinition
  | notAConstraint
  | notInTarget

/-- The sentence that explains why an operator cannot be used, if there is more to say. -/
def Unsupported.explanation? : Unsupported → Option String
  | .unregistered => none
  | .notAStatement => some "It is not a statement and cannot be used at the top level."
  | .notInTemplate template => some ("'" ++ template ++ "' does not support it.")
  | .notAFilter => some "Not a filter operator."
  | .notInDefinition => some "Not valid inside '$define'."
  | .notAConstraint => some "Not a constraint kind."
  | .notInTarget => some "Not valid inside '$into'."

/-- Why a query was refused. -/
inductive Fault where
  -- names
  | identifier (cause : IdentifierFault)
  | noIdentifiers (operator : Option String)
  | notIdentifiers (operator : Option String) (got : Value)
  | badAlias (operator : Option String) (name : String) (spec : Value)
  -- statements and templates
  | notAQuery (keys : Option (List String))
  | notABody (template : String) (got : Value)
  | plainKey (template key : String)
  | missingField (field template : String)
  | missingGuard (key guard : String)
  | unknownOperator (operator dialect : String) (why : Unsupported)
  -- values
  | notOneOperator (operator : Option String) (keys : List String)
  | plainValueKey (operator : Option String) (key : String)
  | notAValue (operator : Option String) (got : Value)
  | notAScalar (got : Value)
  | notAnAggregate (operator : String) (got : Value)
  | notAFlag (operator : String) (got : Value)
  -- columns of a result
  | badColumn (got : Value)
  | notColumns (got : Value)
  | noColumns
  | operatorColumn (key : String)
  | badColumnSpec (name : String) (spec : Value)
  -- filters
  | notAFilter (got : Value)
  | noOperands (combinator : String)
  | emptyColumnFilter (column : String)
  | plainFilterKey (column key : String)
  | noColumn (operator : String)
  | noMembers (operator : String)
  | notAPair
  | notANullTest
  | notAnExpression
  | badExpression (keys : List String)
  | unknownCombinator (kind : String)
  -- clauses
  | twoTables
  | badDirection (got : Value)
  | badSortItem (got : Value)
  | notASort (got : Value)
  | notALimit (got : Value)
  | offsetAlone
  | notAnOffset (got : Value)
  | notAssignments
  | notDocuments
  | notADocument
  | raggedDocument (index : Nat) (keys : List String)
  -- table definitions
  | notDefinitions
  | badColumnDefinition (name : String) (spec : Value)
  | notConstraints
  | badConstraint (name : String) (spec : Value)
  | notAForeignKey
  | partialReference
  | badType (got : Value)
  | badLength (got : Value)
  | notAComment
  | notAnIdentity
  | notACollation
  | notAReference
  | notAnOidSwitch
  | notATablespace
  -- targets of a result
  | noVariables
  | badVariable (got : Value)
  | notAPath
  | notATarget
  | badBlock (operator : String) (problems : List Problem)
  -- settings
  | badSettings (problems : List Problem)
  -- lookups
  | missingKey (key : String)
  -- the step bound
  | tooDeep

namespace Fault

/-- The wording of a fault of a name. -/
def identifierMessage : IdentifierFault → String
  | .notAName got => "Identifier must be a non-empty string, got " ++ got.literal ++ "."
  | .emptySegment name => "Identifier " ++ Text.quoted name ++ " has an empty segment."

/-- The wording of an operator that cannot be used, with the explanation if there is one. -/
def unknownOperatorMessage (operator dialect : String) (explanation : Option String) : String :=
  let head := "Unknown operator '" ++ operator ++ "' for dialect '" ++ dialect ++ "'."
  match explanation with
  | none => head
  | some text => if text.isEmpty then head else head ++ " " ++ text

/-- The wording of a field that has to be given. -/
def missingFieldMessage (field operator : String) : String :=
  "'" ++ operator ++ "' requires '" ++ field ++ "'."

/-- The number of problems of settings in words. -/
def settingsMessage (problems : List Problem) : String :=
  let count := problems.length
  "Invalid builder options: " ++ toString count ++ " validation error"
    ++ (if count = 1 then "" else "s") ++ " for BuilderOptions"

/-- The wording of a fault. -/
def message : Fault → String
  | .identifier cause => identifierMessage cause
  | .noIdentifiers _ => "Identifier list must not be empty."
  | .notIdentifiers _ got =>
    "Expected an identifier or list of identifiers, got " ++ got.typeName ++ "."
  | .badAlias _ name spec =>
    "Identifier '" ++ name ++ "' expects true or \x7b'$as': alias\x7d, got " ++ spec.literal ++ "."
  | .notAQuery _ => "A query must be an object with exactly one statement key (e.g. '$select')."
  | .notABody template got => "'" ++ template ++ "' expects an object, got " ++ got.typeName ++ "."
  | .plainKey template key => "Unexpected key " ++ Text.quoted key ++ " in '" ++ template ++ "'."
  | .missingField field template => missingFieldMessage field template
  | .missingGuard key guard => missingFieldMessage guard key
  | .unknownOperator operator dialect why =>
    unknownOperatorMessage operator dialect why.explanation?
  | .notOneOperator _ keys =>
    "A value expression takes exactly one operator, got " ++ namesLiteral keys ++ "."
  | .plainValueKey _ key => "Unexpected key " ++ Text.quoted key ++ " in value expression."
  | .notAValue _ got => "Unsupported value " ++ got.literal ++ " (" ++ got.typeName ++ ")."
  | .notAScalar got => "'$val' expects a scalar value, got " ++ got.typeName ++ "."
  | .notAnAggregate operator got =>
    "'" ++ operator ++ "' expects a column name or an expression, got " ++ got.literal ++ "."
  | .notAFlag operator got =>
    "'" ++ operator ++ "' must always be a Boolean, got " ++ got.literal ++ "."
  | .badColumn got => "Column entries must be strings or objects, got " ++ got.literal ++ "."
  | .notColumns got => "'$columns' expects a list or object, got " ++ got.typeName ++ "."
  | .noColumns => "'$columns' selects no columns."
  | .operatorColumn key =>
    "Unexpected operator " ++ Text.quoted key ++ " in '$columns'; wrap it in an alias."
  | .badColumnSpec name spec =>
    "Column '" ++ name ++ "' has an unsupported spec " ++ spec.literal ++ "."
  | .notAFilter got => "A filter must be a non-empty object, got " ++ got.literal ++ "."
  | .noOperands combinator => "'" ++ combinator ++ "' expects a non-empty list."
  | .emptyColumnFilter column => "Filter for '" ++ column ++ "' is empty."
  | .plainFilterKey column key =>
    "Filter for '" ++ column ++ "' expects operator keys, got " ++ Text.quoted key ++ "."
  | .noColumn operator => "'" ++ operator ++ "' must be applied to a column."
  | .noMembers operator => "'" ++ operator ++ "' expects a non-empty list."
  | .notAPair => "'$between' expects [low, high]."
  | .notANullTest => "'$isNull' must be a Boolean."
  | .notAnExpression => "'$expr' expects an object."
  | .badExpression keys =>
    "'$expr' takes one expression operator and at least one comparison, got "
      ++ namesLiteral keys ++ "."
  | .unknownCombinator kind => "No joining word for '" ++ kind ++ "'."
  | .twoTables => "Use either '$from' or '$table', not both."
  | .badDirection got =>
    "Invalid sort direction " ++ got.literal
      ++ "; use \x7b'$asc': true\x7d, 'ASC' / 'DESC' or 1 / -1."
  | .badSortItem got => "Invalid '$sort' item " ++ got.literal ++ "."
  | .notASort got => "'$sort' expects a column, list or object, got " ++ got.literal ++ "."
  | .notALimit got =>
    "'$limit' expects a non-negative integer or 'ALL', got " ++ got.literal ++ "."
  | .offsetAlone => "'$offset' requires '$limit'."
  | .notAnOffset got => "'$offset' expects a non-negative integer, got " ++ got.literal ++ "."
  | .notAssignments => "'$set' expects a non-empty object."
  | .notDocuments => "'$documents' expects an object or a non-empty list of objects."
  | .notADocument => "Each document must be a non-empty object."
  | .raggedDocument index keys =>
    "Document " ++ toString index ++ " does not have the columns " ++ namesLiteral keys ++ "."
  | .notDefinitions => "'$define' entries must be objects of column definitions."
  | .badColumnDefinition name spec =>
    "Column '" ++ name ++ "' expects \x7b'$column': \x7b...\x7d\x7d, got " ++ spec.literal ++ "."
  | .notConstraints => "'$constraint' expects an object of named constraints."
  | .badConstraint name spec =>
    "Constraint '" ++ name ++ "' takes exactly one kind, got " ++ spec.literal ++ "."
  | .notAForeignKey =>
    "'$foreignKey' expects \x7b'$columns': [...], '$references': \x7b'$table': ..., "
      ++ "'$columns': [...]\x7d\x7d."
  | .partialReference => "'$references' needs '$table' and '$columns'."
  | .badType got => "Invalid column type " ++ got.literal ++ "."
  | .badLength got =>
    "'$length' expects a positive integer or [precision, scale], got " ++ got.literal ++ "."
  | .notAComment => "'$comment' must be a String."
  | .notAnIdentity => "'$identity' must either be a Boolean or the String 'default'."
  | .notACollation => "'$collate' must be a String."
  | .notAReference =>
    "'$references' expects a table name or \x7b'$table': ..., '$columns': [...]\x7d."
  | .notAnOidSwitch => "'$oids' must always be a Boolean."
  | .notATablespace => "'$tablespace' must always be a String."
  | .noVariables => "'$into' expects at least one variable."
  | .badVariable got => "Invalid '$into' variable " ++ got.literal ++ "."
  | .notAPath => "'$dumpfile' expects a file path."
  | .notATarget =>
    "'$into' expects a list of variables, \x7b'$outfile': \x7b...\x7d\x7d or "
      ++ "\x7b'$dumpfile': path\x7d."
  | .badBlock operator problems =>
    "Invalid '" ++ operator ++ "' options: " ++ toString problems.length ++ " error(s)."
  | .badSettings problems => settingsMessage problems
  | .missingKey key => "No entry for " ++ Text.quoted key ++ "."
  | .tooDeep => "The query nests too deep."

/-- The operator whose operand was refused. -/
def operator? : Fault → Option String
  | .identifier _ => none
  | .noIdentifiers operator => operator
  | .notIdentifiers operator _ => operator
  | .badAlias operator _ _ => operator
  | .notAQuery _ => none
  | .notABody template _ => template
  | .plainKey template _ => template
  | .missingField _ template => template
  | .missingGuard key _ => key
  | .unknownOperator operator _ _ => operator
  | .notOneOperator operator _ => operator
  | .plainValueKey operator _ => operator
  | .notAValue operator _ => operator
  | .notAScalar _ => "$val"
  | .notAnAggregate operator _ => operator
  | .notAFlag operator _ => operator
  | .badColumn _ => "$columns"
  | .notColumns _ => "$columns"
  | .noColumns => "$columns"
  | .operatorColumn _ => "$columns"
  | .badColumnSpec _ _ => "$columns"
  | .notAFilter _ => "$where"
  | .noOperands combinator => combinator
  | .emptyColumnFilter _ => "$where"
  | .plainFilterKey _ _ => "$where"
  | .noColumn operator => operator
  | .noMembers operator => operator
  | .notAPair => "$between"
  | .notANullTest => "$isNull"
  | .notAnExpression => "$expr"
  | .badExpression _ => "$expr"
  | .unknownCombinator _ => none
  | .twoTables => "$from"
  | .badDirection _ => "$sort"
  | .badSortItem _ => "$sort"
  | .notASort _ => "$sort"
  | .notALimit _ => "$limit"
  | .offsetAlone => "$offset"
  | .notAnOffset _ => "$offset"
  | .notAssignments => "$set"
  | .notDocuments => "$documents"
  | .notADocument => "$documents"
  | .raggedDocument _ _ => "$documents"
  | .notDefinitions => "$define"
  | .badColumnDefinition _ _ => "$define"
  | .notConstraints => "$constraint"
  | .badConstraint _ _ => "$constraint"
  | .notAForeignKey => "$foreignKey"
  | .partialReference => "$foreignKey"
  | .badType _ => "$type"
  | .badLength _ => "$length"
  | .notAComment => "$comment"
  | .notAnIdentity => "$identity"
  | .notACollation => "$collate"
  | .notAReference => "$references"
  | .notAnOidSwitch => "$oids"
  | .notATablespace => "$tablespace"
  | .noVariables => "$into"
  | .badVariable _ => "$into"
  | .notAPath => "$dumpfile"
  | .notATarget => "$into"
  | .badBlock operator _ => operator
  | .badSettings _ => none
  | .missingKey _ => none
  | .tooDeep => none

/-- Whether a fault has a class that it is reported by.  A connective without a joining word, a
lookup of a key that is not there and the bound of nested calls have none. -/
def isClassified : Fault → Bool
  | .unknownCombinator _ => false
  | .missingKey _ => false
  | .tooDeep => false
  | _ => true

end Fault

end QueryTree
