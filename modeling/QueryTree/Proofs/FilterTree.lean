import QueryTree.Operator.Comparison
import QueryTree.Proofs.ExpressionClauses
import QueryTree.Proofs.Reading

/-!
# Filters as trees

A filter is given as an object of a query.  The filters that are made of comparisons of columns with
scalars are written here as trees, with what they mean and with the tokens of their comparisons.

* `Filter.Test` is a comparison, `Filter.Atom` a comparison of a column, and `Filter.Spec` what can
  be said of a column in one entry.
* **`Filter.Tree`** is a filter or an entry of one, and `Tree.value` the value that writes it.
* **`Tree.formula`** is the Boolean expression that a filter stands for.
* **`Tree.guarded`** : no conjunction of several parts has a part whose alternatives are written
  without parentheses (`Tree.isOpen`).
-/

namespace QueryTree.Filter

open Sql (Token normal tokensOf nameTokens)

/-! ## Comparisons -/

/-- A scalar, `null` included. -/
abbrev Scalar := { v : Value // v.isScalar = true }

/-- The two tests for membership and how they are written in SQL. -/
def membershipWords : List (String × String) := [("$in", "IN"), ("$nin", "NOT IN")]

/-- A comparison with scalars. -/
inductive Test where
  | compare (operator word : String) (known : (operator, word) ∈ comparisonWords)
      (operand : Scalar)
  | member (operator word : String) (known : (operator, word) ∈ membershipWords)
      (first : Scalar) (rest : List Scalar)
  | between (low high : Scalar)
  | missing (flag : Bool)

namespace Test

/-- The entry that writes a comparison. -/
def entry : Test → String × Value
  | .compare operator _ _ operand => (operator, operand)
  | .member operator _ _ first rest => (operator, .list (first :: rest.map Subtype.val))
  | .between low high => ("$between", .list [low, high])
  | .missing flag => ("$isNull", .bool flag)

/-- The tokens of a test for a missing value. -/
def missingTokens (flag : Bool) : List Token :=
  normal (tokensOf (if flag then "IS NULL" else "IS NOT NULL"))

/-- The tokens of a placeholder and of `more` others after it. -/
def slotTokens (more : Nat) : List Token :=
  .symbol '?' :: (List.replicate more [Token.symbol ',', Token.symbol '?']).flatten

/-- The tokens of a comparison after its column. -/
def tokens : Test → List Token
  | .compare operator word _ operand =>
    if operand.val.isNull && operator == "$eq" then missingTokens true
    else if operand.val.isNull && operator == "$ne" then missingTokens false
    else normal (tokensOf word) ++ [.symbol '?']
  | .member _ word _ _ rest =>
    normal (tokensOf word) ++ .symbol '(' :: slotTokens rest.length ++ [.symbol ')']
  | .between _ _ => [.keyword "BETWEEN", .symbol '?', .keyword "AND", .symbol '?']
  | .missing flag => missingTokens flag

end Test

/-- The name of a column. -/
structure ColumnName where
  text : String
  isColumn : isOperatorKey text = false
  isName : (QuoteStyle.segments text.toList).any List.isEmpty = false

/-- A comparison of a column. -/
structure Atom where
  column : ColumnName
  test : Test

/-- The tokens of a comparison. -/
def Atom.tokens (a : Atom) : List Token :=
  nameTokens (QuoteStyle.segments a.column.text.toList) ++ a.test.tokens

/-- What an entry says of a column: that it is missing, its value, a list of its values, or one or
several comparisons. -/
inductive Spec where
  | missing
  | equal (operand : Scalar) (present : operand.val.isNull = false)
  | among (first : Scalar) (rest : List Scalar)
  | tests (first : Test) (rest : List Test)

namespace Spec

/-- The value that writes what is said of a column. -/
def value : Spec → Value
  | .missing => .null
  | .equal operand _ => operand
  | .among first rest => .list (first :: rest.map Subtype.val)
  | .tests first rest => .object (first.entry :: rest.map Test.entry)

/-- The comparisons that are said of a column. -/
def comparisons : Spec → List Test
  | .missing => [.missing true]
  | .equal operand _ => [.compare "$eq" "=" (by decide) operand]
  | .among first rest => [.member "$in" "IN" (by decide) first rest]
  | .tests first rest => first :: rest

end Spec

/-! ## Trees -/

/-- A connective of a filter. -/
inductive Junction where
  | and
  | or
  deriving DecidableEq

namespace Junction

def combinator : Junction → Combinator
  | .and => .and
  | .or => .or

/-- The expression of a combination. -/
def formula {α : Type} : Junction → List (Formula α) → Formula α
  | .and => .all
  | .or => .any

end Junction

/-- What a tree stands for: a whole filter, or an entry of one. -/
inductive Place where
  | object
  | entry

/-- A filter, or an entry of one. -/
inductive Tree : Place → Type where
  | column (name : ColumnName) (spec : Spec) : Tree .entry
  | negation (operand : Tree .object) : Tree .entry
  | combination (kind : Junction) (first : Tree .object) (rest : List (Tree .object)) : Tree .entry
  | object (first : Tree .entry) (rest : List (Tree .entry)) : Tree .object

namespace Tree

/-- The key of an entry. -/
def key : Tree .entry → String
  | .column name _ => name.text
  | .negation _ => "$not"
  | .combination kind _ _ => kind.combinator.key

/-- The value that writes a filter, or the value of an entry. -/
def value : {place : Place} → Tree place → Value
  | _, .column _ spec => spec.value
  | _, .negation operand => operand.value
  | _, .combination _ first rest => .list (first.value :: rest.map fun t => t.value)
  | _, .object first rest =>
    .object ((first.key, first.value) :: rest.map fun t => (t.key, t.value))

/-- The Boolean expression that a filter stands for. -/
def formula : {place : Place} → Tree place → Formula Atom
  | _, .column name spec => .all (spec.comparisons.map fun test => .atom ⟨name, test⟩)
  | _, .negation operand => .neg operand.formula
  | _, .combination kind first rest => kind.formula (first.formula :: rest.map fun t => t.formula)
  | _, .object first rest => .all (first.formula :: rest.map fun t => t.formula)

/-- Whether a filter is written as several alternatives without parentheses around them.  Several
alternatives stand in parentheses inside AND, but what stands alone in a combination is written as
if it stood in that combination. -/
def isOpen : {place : Place} → Tree place → Option Junction → Bool
  | _, .combination .or _ (_ :: _), parent => parent != some .and
  | _, .combination kind first [], _ => first.isOpen (some kind)
  | _, .object first [], parent => first.isOpen parent
  | _, _, _ => false

/-- Whether parts are kept apart where a connective joins them. -/
def keepsApart {place : Place} (kind : Junction) (parts : List (Tree place)) : Bool :=
  kind == .or || parts.length == 1 || parts.all fun t => !t.isOpen (some .and)

/-- No conjunction of several parts has a part that is open. -/
def guarded : {place : Place} → Tree place → Bool
  | _, .column _ _ => true
  | _, .negation operand => operand.guarded
  | _, .combination kind first rest =>
    keepsApart kind (first :: rest) && first.guarded && (rest.map fun t => t.guarded).all id
  | _, .object first rest =>
    keepsApart .and (first :: rest) && first.guarded && (rest.map fun t => t.guarded).all id

end Tree

end QueryTree.Filter
