import QueryTree.Text.Split
import QueryTree.Value

/-!
# Quoted identifiers

A name such as `schema.table.column` is quoted segment by segment, and a lone star is never
quoted.  Inside a segment the quote mark is doubled.

* `QuoteStyle` holds the mark of a dialect.
* `QuoteStyle.segment` quotes one segment, dots included.
* **`QuoteStyle.identifier`** splits a name at its dots and quotes the segments; it refuses the
  empty name and a name with an empty segment.
-/

namespace QueryTree

/-- How a dialect quotes names. -/
structure QuoteStyle where
  mark : Char
  deriving Repr, DecidableEq

/-- Why a name cannot be quoted. -/
inductive IdentifierFault where
  | notAName (got : Value)
  | emptySegment (name : String)

namespace QuoteStyle

/-- Names between backticks. -/
def backtick : QuoteStyle := ⟨'\x60'⟩

/-- Names between double quotes. -/
def doubleQuote : QuoteStyle := ⟨'"'⟩

/-- The text with every mark doubled. -/
def double (mark : Char) : List Char → List Char
  | [] => []
  | c :: rest => if c = mark then c :: c :: double mark rest else c :: double mark rest

/-- One segment of a name, quoted unless it is a star. -/
def segmentChars (style : QuoteStyle) (cs : List Char) : List Char :=
  if cs = ['*'] then cs else style.mark :: double style.mark cs ++ [style.mark]

/-- One segment of a name, quoted unless it is a star. -/
def segment (style : QuoteStyle) (text : String) : String :=
  String.ofList (style.segmentChars text.toList)

/-- The segments of a name: the parts between its dots. -/
def segments (cs : List Char) : List (List Char) :=
  Text.split '.' cs

/-- The quoted segments with dots between them. -/
def joinSegments (style : QuoteStyle) (parts : List (List Char)) : List Char :=
  ['.'].intercalate (parts.map style.segmentChars)

/-- A name, quoted segment by segment. -/
def name (style : QuoteStyle) (text : String) : Except IdentifierFault String :=
  if text.isEmpty then .error (.notAName (.str text))
  else
    let parts := segments text.toList
    if parts.any List.isEmpty then .error (.emptySegment text)
    else .ok (String.ofList (style.joinSegments parts))

/-- A value that has to be a name, quoted segment by segment. -/
def identifier (style : QuoteStyle) : Value → Except IdentifierFault String
  | .str text => style.name text
  | v => .error (.notAName v)

end QuoteStyle

end QueryTree
