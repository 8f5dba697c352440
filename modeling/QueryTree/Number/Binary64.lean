/-!
# The parts of a floating-point number

A finite number of double precision is `± m · 2 ^ q` with a natural number `m` below `2 ^ 53`.

* `Binary64.ofFloat` reads sign, `m` and `q` off the bits of a number.
* `Binary64.toInt?` is its value if that is a whole number.
-/

namespace QueryTree

/-- A number of double precision: `± significand · 2 ^ exponent`, an infinity or no number. -/
inductive Binary64 where
  | finite (negative : Bool) (significand : Nat) (exponent : Int)
  | infinite (negative : Bool)
  | notANumber
  deriving Repr, DecidableEq

namespace Binary64

/-- Sign, significand and exponent of a number given by its sixty-four bits. -/
def ofBits (bits : Nat) : Binary64 :=
  let negative := bits / Nat.pow 2 63 % 2 == 1
  let biased : Nat := bits / Nat.pow 2 52 % Nat.pow 2 11
  let fraction := bits % Nat.pow 2 52
  if biased = 2047 then
    if fraction = 0 then .infinite negative else .notANumber
  else if biased = 0 then .finite negative fraction (-1074)
  else .finite negative (fraction + Nat.pow 2 52) ((biased : Int) - 1075)

/-- Sign, significand and exponent of a number. -/
def ofFloat (x : Float) : Binary64 :=
  ofBits x.toBits.toNat

/-- The value, if it is a whole number. -/
def toInt? : Binary64 → Option Int
  | .finite negative significand exponent =>
    let whole : Option Nat :=
      if 0 ≤ exponent then some (significand * Nat.pow 2 exponent.toNat)
      else if significand % Nat.pow 2 (-exponent).toNat = 0 then
        some (significand / Nat.pow 2 (-exponent).toNat)
      else none
    whole.map fun n => if negative then -(n : Int) else n
  | _ => none

end Binary64

end QueryTree
