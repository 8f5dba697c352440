/-!
# Writing a grammar

Grammars of several rows are put together from their words and groups.

* `Layout.word` is a part of a grammar as it is written, `Layout.optional` an optional group and
  `Layout.clause` the usual one, a keyword and a reference.
* `Layout.row` puts single spaces between parts, `Layout.rows` writes each row on a line of its own.
-/

namespace QueryTree.Layout

/-- A part of a grammar as it is written. -/
def word (text : String) : List Char :=
  text.toList

/-- Parts with single spaces between them. -/
def row (parts : List (List Char)) : List Char :=
  [' '].intercalate parts

/-- An optional group. -/
def optional (parts : List (List Char)) : List Char :=
  '\x7b' :: ' ' :: row parts ++ [' ', '\x7d']

/-- An optional group of a keyword and the reference that it stands before. -/
def clause (keyword reference : String) : List Char :=
  optional [word keyword, word reference]

/-- Rows on lines of their own, each with its indentation. -/
def rows (lines : List (Nat × List (List Char))) : List Char :=
  lines.flatMap (fun line => '\n' :: List.replicate line.1 ' ' ++ row line.2) ++ ['\n']

end QueryTree.Layout
