import QueryTree.Value
import QueryTree.Text.Quoted
import QueryTree.Number.Shortest

/-!
# Values in messages

Messages quote the value they complain about.

* `Value.literal` writes a value out in full: texts quoted, lists in brackets, objects in braces
  with `key: value` entries.
* `Value.plain` is the same but for a bare text, which stands without quotes.
* `namesLiteral` writes a list of names.
-/

namespace QueryTree

/-- Items between commas. -/
def commaList (parts : List String) : String :=
  ", ".intercalate parts

/-- A list of names as messages give it. -/
def namesLiteral (names : List String) : String :=
  "[" ++ commaList (names.map Text.quoted) ++ "]"

namespace Value

mutual

/-- The full text of a value. -/
def literal : Value → String
  | .null => "None"
  | .bool flag => if flag then "True" else "False"
  | .int number => toString number
  | .float number => floatText number
  | .str text => Text.quoted text
  | .list items => "[" ++ commaList (literalItems items) ++ "]"
  | .object fields => "\x7b" ++ commaList (literalFields fields) ++ "\x7d"
termination_by structural v => v

/-- The texts of the items of a list. -/
def literalItems : List Value → List String
  | [] => []
  | v :: rest => v.literal :: literalItems rest
termination_by structural vs => vs

/-- The texts of the entries of an object. -/
def literalFields : List (String × Value) → List String
  | [] => []
  | (key, v) :: rest => (Text.quoted key ++ ": " ++ v.literal) :: literalFields rest
termination_by structural fields => fields

end

/-- The text of a value where a text itself stands without quotes. -/
def plain : Value → String
  | .str text => text
  | v => v.literal

end Value

end QueryTree
