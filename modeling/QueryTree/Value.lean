/-!
# Query trees

A query is a tree of JSON values.  Objects keep their keys in the order they were written, and
integers and floating-point numbers are different kinds of value, because both facts can be seen
in the compiled statement.

* `Value` is the tree, and `Fields` the ordered entries of an object.
* `Fields.get?` and `Fields.valueOf` look a key up; `valueOf` reads a missing key as `null`.
* **`Value.isPresent`** says which values switch an optional part of a statement on.
* **`Value.size`** counts the nodes of a tree.  Every step of a compilation goes to a smaller
  tree, so it bounds how deep a compilation can nest.
-/

namespace QueryTree

/-- A node of a query tree. -/
inductive Value where
  | null
  | bool (flag : Bool)
  | int (number : Int)
  | float (number : Float)
  | str (text : String)
  | list (items : List Value)
  | object (fields : List (String × Value))
  deriving Inhabited

/-- The entries of an object, in the order they were written. -/
abbrev Fields := List (String × Value)

namespace Value

/-! ## Size -/

mutual

/-- The number of nodes of a tree, a key counting as one. -/
def size : Value → Nat
  | .list items => sizeItems items + 1
  | .object fields => sizeFields fields + 1
  | _ => 1
termination_by structural v => v

/-- The number of nodes of the items of a list. -/
def sizeItems : List Value → Nat
  | [] => 0
  | v :: rest => v.size + sizeItems rest
termination_by structural vs => vs

/-- The number of nodes of the entries of an object. -/
def sizeFields : List (String × Value) → Nat
  | [] => 0
  | (_, v) :: rest => v.size + 1 + sizeFields rest
termination_by structural fields => fields

end

/-! ## Kinds of value -/

/-- The name of a value's type as messages give it. -/
def typeName : Value → String
  | .null => "NoneType"
  | .bool _ => "bool"
  | .int _ => "int"
  | .float _ => "float"
  | .str _ => "str"
  | .list _ => "list"
  | .object _ => "dict"

/-- Scalars can be bound to a placeholder: everything but lists and objects, `null` included. -/
def isScalar : Value → Bool
  | .list _ => false
  | .object _ => false
  | _ => true

/-- A missing value: `null` stands for "not given". -/
def isNull : Value → Bool
  | .null => true
  | _ => false

/-- Whether a value switches on an optional part of a statement.  `null`, `false` and everything
empty leave it off; the number zero switches it on. -/
def isPresent : Value → Bool
  | .null => false
  | .bool flag => flag
  | .str text => !text.isEmpty
  | .list items => !items.isEmpty
  | .object fields => !fields.isEmpty
  | _ => true

/-- Whether a value is the switch `on`: that very Boolean, or the integer one or zero for it. -/
def isSwitch (on : Bool) : Value → Bool
  | .bool flag => flag == on
  | .int number => number == (if on then 1 else 0)
  | _ => false

/-- A number of rows: an integer that is not negative. -/
def isCount : Value → Bool
  | .int number => decide (0 ≤ number)
  | _ => false

end Value

namespace Fields

/-! ## Entries of an object -/

/-- The value of `key`, if the object has it. -/
def get? (fields : Fields) (key : String) : Option Value :=
  fields.lookup key

/-- The value of `key`, a missing key reading as `null`. -/
def valueOf (fields : Fields) (key : String) : Value :=
  (fields.lookup key).getD .null

/-- The keys, in order. -/
def keys (fields : Fields) : List String :=
  fields.map Prod.fst

/-- Give `key` a value: in place if the object has the key, at the end if not. -/
def set : Fields → String → Value → Fields
  | [], key, value => [(key, value)]
  | (k, v) :: rest, key, value =>
    if k = key then (k, value) :: rest else (k, v) :: set rest key value

/-- Every key that is missing or `null` takes its value from `defaults`. -/
def withDefaults (fields defaults : Fields) : Fields :=
  defaults.foldl
    (fun merged entry =>
      if (merged.valueOf entry.1).isNull then merged.set entry.1 entry.2 else merged)
    fields

end Fields

/-- Operator keys are written with a leading dollar sign; every other key names a column. -/
def isOperatorKey (key : String) : Bool :=
  key.toList.head? == some '$'

end QueryTree
