import QueryTree.Options.Block

/-!
# The options of a result file

A result set can be written to a file.  The block names the file and may say how columns and rows
are written.

* `FieldOptions`, `LineOptions` and `OutfileOptions` are the three blocks.
* `OutfileOptions.check` reads a block from a value.
-/

namespace QueryTree

/-- How the columns of a row are written. -/
structure FieldOptions where
  terminatedBy : Option String
  enclosedBy : Option String
  escapedBy : Option String
  deriving Repr, DecidableEq

/-- How rows are written. -/
structure LineOptions where
  startingBy : Option String
  terminatedBy : Option String
  deriving Repr, DecidableEq

/-- The file, and how columns and rows are written to it. -/
structure OutfileOptions where
  file : String
  fields : Option FieldOptions
  lines : Option LineOptions
  deriving Repr, DecidableEq

/-- Reads the block of column options. -/
def FieldOptions.checkFields (block : Fields) : Checked FieldOptions :=
  (((optionalText block "$terminatedBy").and
      ((optionalText block "$enclosedBy").and (optionalText block "$escapedBy"))).guardedBy
    (unexpectedKeys block ["$terminatedBy", "$enclosedBy", "$escapedBy"])).map
    fun (terminated, enclosed, escaped) => ⟨terminated, enclosed, escaped⟩

/-- Reads the block of row options. -/
def LineOptions.checkFields (block : Fields) : Checked LineOptions :=
  (((optionalText block "$startingBy").and (optionalText block "$terminatedBy")).guardedBy
    (unexpectedKeys block ["$startingBy", "$terminatedBy"])).map
    fun (starting, terminated) => ⟨starting, terminated⟩

/-- Reads the block of file options. -/
def OutfileOptions.checkFields (block : Fields) : Checked OutfileOptions :=
  (((requiredText block "$file").and
      ((optionalBlock block "$fields" "FieldsOptions" FieldOptions.checkFields).and
        (optionalBlock block "$lines" "LinesOptions" LineOptions.checkFields))).guardedBy
    (unexpectedKeys block ["$file", "$fields", "$lines"])).map
    fun (file, fields, lines) => ⟨file, fields, lines⟩

/-- Reads column options from a value. -/
def FieldOptions.check : Value → Checked FieldOptions :=
  wholeBlock "FieldsOptions" FieldOptions.checkFields

/-- Reads row options from a value. -/
def LineOptions.check : Value → Checked LineOptions :=
  wholeBlock "LinesOptions" LineOptions.checkFields

/-- Reads file options from a value. -/
def OutfileOptions.check : Value → Checked OutfileOptions :=
  wholeBlock "OutfileOptions" OutfileOptions.checkFields

end QueryTree
