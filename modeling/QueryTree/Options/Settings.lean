import QueryTree.Options.Block
import QueryTree.Number.Binary64

/-!
# Settings of a compiler

A compiler is opened for a dialect by name, and may be told to fall back to the base dialect if
the name is unknown.

* `Settings` holds the two options, with their defaults.
* `readSwitch` reads a Boolean generously: numbers one and zero and a few words are accepted.
* `Settings.check` reads the settings from a value.
-/

namespace QueryTree

/-- The name of the dialect that every other one is derived from. -/
def baseDialectName : String := "ansi"

/-- Which dialect to compile for, and whether an unknown one is replaced by the base dialect. -/
structure Settings where
  dialect : String := baseDialectName
  fallback : Bool := false
  deriving Repr, DecidableEq

/-- The words that read as false. -/
def offWords : List String := ["0", "off", "f", "false", "n", "no"]

/-- The words that read as true. -/
def onWords : List String := ["1", "on", "t", "true", "y", "yes"]

/-- Small letters for the capitals of ASCII. -/
def asciiLower (text : String) : String :=
  String.ofList (text.toList.map Char.toLower)

/-- A whole number read as a Boolean. -/
def switchOfInt (key : String) (input : Value) (number : Int) : Checked Bool :=
  if number = 0 then .ok false
  else if number = 1 then .ok true
  else .problem .unreadableBoolean [key] input

/-- The first whole number above the signed ones of sixty-four bits. -/
def wordLimit : Int := 9223372036854775808

/-- Reads a Boolean.  A number has to be zero or one; one outside sixty-four bits, or with a
fraction, is not taken for a Boolean at all. -/
def readSwitch (key : String) : Value → Checked Bool
  | .bool flag => .ok flag
  | .int number =>
    if -wordLimit ≤ number && number < wordLimit then switchOfInt key (.int number) number
    else .problem .notBoolean [key] (.int number)
  | .float number =>
    match (Binary64.ofFloat number).toInt? with
    | some whole =>
      if -wordLimit < whole && whole < wordLimit then switchOfInt key (.float number) whole
      else .problem .notBoolean [key] (.float number)
    | none => .problem .notBoolean [key] (.float number)
  | .str text =>
    if offWords.contains (asciiLower text) then .ok false
    else if onWords.contains (asciiLower text) then .ok true
    else .problem .unreadableBoolean [key] (.str text)
  | v => .problem .notBoolean [key] v

namespace Settings

/-- Reads settings from the entries of an object; a missing key takes its default. -/
def checkFields (block : Fields) : Checked Settings :=
  let dialect : Checked String :=
    match block.get? "dialect" with
    | none => .ok baseDialectName
    | some v => filledText "dialect" v
  let fallback : Checked Bool :=
    match block.get? "fallback_to_ansi" with
    | none => .ok false
    | some v => readSwitch "fallback_to_ansi" v
  ((dialect.and fallback).guardedBy (unexpectedKeys block ["dialect", "fallback_to_ansi"])).map
    fun (name, flag) => ⟨name, flag⟩

/-- Reads settings from a value. -/
def check : Value → Checked Settings :=
  wholeBlock "BuilderOptions" checkFields

end Settings

end QueryTree
