import QueryTree.Template.Basic
import QueryTree.Text.Blank
import QueryTree.Value.Literal

/-!
# Reading a grammar

A grammar is the text of a template: words, `<$key>` for a reference that has to be given, `[$key]`
for one that may be left out, `<$key, ...>` and `[$key, ...]` for lists, and braces around an
optional group.

* `GrammarFault` says what is wrong with a grammar and where.
* `referenceNode` reads what stands between the brackets of a reference.
* `Reader` is the state between two characters, and `Reader.step` the effect of one of them.
* **`parse`** reads a grammar from left to right and reports the first fault.
-/

namespace QueryTree

namespace Template

/-- What is wrong at a place of a grammar. -/
inductive GrammarFault where
  | unbalanced
  | groupWithoutReference
  | unterminatedGroup
  | unterminatedReference (bracket : Char)
  | malformedReference (body : String)
  | unexpectedText (rest key : String)
  deriving Repr, DecidableEq

/-- The wording of a fault of a grammar. -/
def GrammarFault.message : GrammarFault → String
  | .unbalanced => "unbalanced '\x7d'"
  | .groupWithoutReference => "optional group without a reference"
  | .unterminatedGroup => "unterminated '\x7b'"
  | .unterminatedReference bracket => "unterminated '" ++ String.singleton bracket ++ "'"
  | .malformedReference body => "malformed reference " ++ Text.quoted body
  | .unexpectedText rest key => "unexpected " ++ Text.quoted rest ++ " after " ++ key

/-! ## References -/

/-- Whether a character can start a key, after its dollar sign. -/
def isKeyStart (c : Char) : Bool :=
  c.isAlpha || c == '_'

/-- Whether a character can go on in a key. -/
def isKeyChar (c : Char) : Bool :=
  c.isAlphanum || c == '_'

/-- The key at the start of a text and what follows it. -/
def takeKey? : List Char → Option (List Char × List Char)
  | '$' :: c :: rest =>
    if isKeyStart c then some ('$' :: c :: rest.takeWhile isKeyChar, rest.dropWhile isKeyChar)
    else none
  | _ => none

/-- The separator that is written before the dots of a list. -/
def separatorOf (text : List Char) : String :=
  if text.isEmpty then " " else if text = [','] then ", " else String.ofList (' ' :: text ++ [' '])

/-- The text before three dots at its end. -/
def beforeDots? (text : List Char) : Option (List Char) :=
  match text.reverse with
  | '.' :: '.' :: '.' :: rest => some rest.reverse
  | _ => none

/-- The part that a reference stands for; `inside` is the text between its brackets. -/
def referenceNode (required spaced : Bool) (inside : List Char) : Except GrammarFault Node :=
  let body := Text.trim inside
  match takeKey? body with
  | none => .error (.malformedReference (String.ofList body))
  | some (key, after) =>
    let key := String.ofList key
    let rest := Text.trim after
    if rest.isEmpty then .ok (if required then .required key spaced else .inline key spaced)
    else
      match beforeDots? rest with
      | none => .error (.unexpectedText (String.ofList rest) key)
      | some separator => .ok (.series key (separatorOf (Text.trim separator)) required spaced)

/-! ## The reader -/

/-- A group that is open: the parts before it, last one first, and whether a space stands before
it. -/
structure OpenGroup where
  before : List Node
  spaced : Bool

/-- What is being read. -/
inductive Reading where
  /-- Nothing; `spaced` tells whether a blank was just read. -/
  | gap (spaced : Bool)
  /-- A word, its characters read so far, last one first. -/
  | word (chars : List Char) (spaced : Bool)
  /-- A reference that started at `start`, its characters read so far, last one first. -/
  | reference (required : Bool) (start : Nat) (chars : List Char) (spaced : Bool)

/-- The state of the reader between two characters: the parts of the innermost group, last one
first, the groups around it, and what is being read. -/
structure Reader where
  parts : List Node
  groups : List OpenGroup
  reading : Reading

namespace Reader

/-- The reader at the start of a grammar. -/
def start : Reader := ⟨[], [], .gap false⟩

/-- Finish the word that is being read. -/
def endWord (r : Reader) : Reader :=
  match r.reading with
  | .word chars spaced =>
    ⟨.word (String.ofList chars.reverse) spaced :: r.parts, r.groups, .gap false⟩
  | _ => r

/-- Whether a blank was just read. -/
def spaced (r : Reader) : Bool :=
  match r.reading with
  | .gap spaced => spaced
  | _ => false

/-- The effect of a character outside references; `offset` is its place and `next?` the character
after it. -/
def stepOutside (r : Reader) (offset : Nat) (c : Char) (next? : Option Char) :
    Except (Nat × GrammarFault) Reader :=
  if Text.isBlank c then
    let r := r.endWord
    .ok { r with reading := .gap true }
  else if c = '\x7d' then
    let r := r.endWord
    match r.groups with
    | [] => .error (offset, .unbalanced)
    | outer :: groups =>
      let children := r.parts.reverse
      match firstKey? children with
      | none => .error (offset + 1, .groupWithoutReference)
      | some guard => .ok ⟨.group children guard outer.spaced :: outer.before, groups, .gap false⟩
  else if c = '\x7b' then
    let r := r.endWord
    .ok ⟨[], ⟨r.parts, r.spaced⟩ :: r.groups, .gap false⟩
  else if (c = '<' || c = '[') && next? = some '$' then
    let r := r.endWord
    .ok { r with reading := .reference (c = '<') offset [] r.spaced }
  else
    match r.reading with
    | .word chars spaced => .ok { r with reading := .word (c :: chars) spaced }
    | _ => .ok { r with reading := .word [c] r.spaced }

/-- The effect of one character. -/
def step (r : Reader) (offset : Nat) (c : Char) (next? : Option Char) :
    Except (Nat × GrammarFault) Reader :=
  match r.reading with
  | .reference required start chars spaced =>
    if c = (if required then '>' else ']') then
      match referenceNode required spaced chars.reverse with
      | .ok node => .ok ⟨node :: r.parts, r.groups, .gap false⟩
      | .error fault => .error (offset + 1, fault)
    else .ok { r with reading := .reference required start (c :: chars) spaced }
  | _ => r.stepOutside offset c next?

/-- The parts that were read, at the end of the grammar. -/
def finish (r : Reader) (offset : Nat) : Except (Nat × GrammarFault) (List Node) :=
  match r.reading with
  | .reference required start _ _ =>
    .error (start, .unterminatedReference (if required then '<' else '['))
  | _ =>
    let r := r.endWord
    if r.groups.isEmpty then .ok r.parts.reverse else .error (offset, .unterminatedGroup)

/-- Read the rest of a grammar. -/
def run (r : Reader) (offset : Nat) : List Char → Except (Nat × GrammarFault) (List Node)
  | [] => r.finish offset
  | c :: rest =>
    match r.step offset c rest.head? with
    | .ok r => r.run (offset + 1) rest
    | .error fault => .error fault

end Reader

/-- The parts of a grammar, or the first fault and its offset. -/
def parseNodes (grammar : List Char) : Except (Nat × GrammarFault) (List Node) :=
  Reader.start.run 0 grammar

end Template

/-- Why a template cannot be read. -/
inductive TemplateFault where
  | empty (name : String) (grammar : Value)
  | invalid (name grammar : String) (offset : Nat) (fault : Template.GrammarFault)

namespace TemplateFault

/-- The wording of a fault of a template. -/
def message : TemplateFault → String
  | .empty name _ => "Empty grammar for '" ++ name ++ "'."
  | .invalid name _ offset fault =>
    "Invalid grammar for '" ++ name ++ "' at offset " ++ toString offset ++ ": " ++ fault.message

/-- The grammar that could not be read. -/
def grammar : TemplateFault → Value
  | .empty _ grammar => grammar
  | .invalid _ grammar _ _ => .str grammar

end TemplateFault

namespace Template

/-- Reads the grammar of the template `name`; it has to hold more than blanks. -/
def parse (grammar : List Char) (name : String) : Except TemplateFault Template :=
  let text := String.ofList grammar
  if grammar.all Text.isBlank then .error (.empty name (.str text))
  else
    match parseNodes grammar with
    | .ok nodes => .ok ⟨name, text, nodes⟩
    | .error (offset, fault) => .error (.invalid name text offset fault)

/-- Reads the grammar of the template `name` from a value, which has to be a text. -/
def ofValue (grammar : Value) (name : String) : Except TemplateFault Template :=
  match grammar with
  | .str text => parse text.toList name
  | v => .error (.empty name v)

/-- A template as messages give it. -/
def literal (t : Template) : String :=
  "SyntaxTemplate(" ++ Text.quoted t.name ++ ", " ++ Text.quoted t.grammar ++ ")"

end Template

end QueryTree
