import QueryTree.Number.Binary64

/-!
# The shortest decimal text of a floating-point number

A number is written with the fewest digits that read back to it, and of those with the digits
nearest to it.

* `Shortest.interval` is the set of reals that round to `m · 2 ^ q`, as exact fractions with one
  denominator.
* **`Shortest.digits?`** tries the decimal grids of one digit, two digits and so on up to
  seventeen; on each grid only the two neighbours of the number have to be tested.
* `Shortest.positional` and `Shortest.scientific` lay the digits out, and **`floatText`** chooses:
  positional if the decimal exponent is at least -4 and below 16, scientific outside.
-/

namespace QueryTree

namespace Shortest

/-- The reals that round to a number: a fraction `value / unit` for the number itself, `low / unit`
and `high / unit` for the ends, which belong to the set exactly if `closed`. -/
structure Interval where
  value : Nat
  low : Nat
  high : Nat
  unit : Nat
  closed : Bool

/-- The reals that round to `significand · 2 ^ exponent`.  Half a step separates the number from
its ends, a quarter below a power of two, where the lower neighbours lie twice as close. -/
def interval (significand : Nat) (exponent : Int) : Interval :=
  let up := Nat.pow 2 exponent.toNat
  let down := if significand = Nat.pow 2 52 && exponent != -1074 then 1 else 2
  { value := 4 * significand * up
    low := (4 * significand - down) * up
    high := (4 * significand + 2) * up
    unit := 4 * Nat.pow 2 (-exponent).toNat
    closed := significand % 2 = 0 }

/-- The number of decimal digits of a positive number. -/
def digitCount (n : Nat) : Nat :=
  (Nat.toDigits 10 n).length

/-- The exponent of the first decimal digit of a positive fraction. -/
def leadingExponent (value unit : Nat) : Int :=
  if unit ≤ value then digitCount (value / unit) - 1
  else -(digitCount ((unit - 1) / value) : Int)

/-- Whether `count · 10 ^ place` lies in the interval. -/
def Interval.contains (i : Interval) (count : Nat) (place : Int) : Bool :=
  let point := count * Nat.pow 10 place.toNat * i.unit
  let scale := Nat.pow 10 (-place).toNat
  if i.closed then i.low * scale ≤ point && point ≤ i.high * scale
  else i.low * scale < point && point < i.high * scale

/-- The multiple of `10 ^ place` in the interval that is nearest to its number, of two equally
near ones the even one. -/
def Interval.nearest? (i : Interval) (place : Int) : Option Nat :=
  let value := i.value * Nat.pow 10 (-place).toNat
  let step := Nat.pow 10 place.toNat * i.unit
  let below := value / step
  let excess := value - below * step
  match i.contains below place, i.contains (below + 1) place with
  | true, true =>
    if 2 * excess < step then some below
    else if step < 2 * excess then some (below + 1)
    else if below % 2 = 0 then some below else some (below + 1)
  | true, false => some below
  | false, true => some (below + 1)
  | false, false => none

/-- The first hit on the grids of `digits` digits, of one digit more and so on, `tries` in all. -/
def Interval.search (i : Interval) (leading : Int) (digits : Nat) : Nat → Option (Nat × Int)
  | 0 => none
  | tries + 1 =>
    let place := leading - digits + 1
    match i.nearest? place with
    | some count => some (count, place)
    | none => i.search leading (digits + 1) tries

/-- The shortest digits of a positive number, as a count and the power of ten it counts. -/
def digits? (significand : Nat) (exponent : Int) : Option (Nat × Int) :=
  let i := interval significand exponent
  i.search (leadingExponent i.value i.unit) 1 17

/-- The decimal digits of `count` without the zeros at the end, and the place of the point: the
number is `0.d₁d₂… · 10 ^ point`. -/
def layout (count : Nat) (place : Int) : List Char × Int :=
  let all := Nat.toDigits 10 count
  ((all.reverse.dropWhile (· == '0')).reverse, all.length + place)

/-- Digits around the point, at least one on each side of it. -/
def positional (digits : List Char) (point : Int) : List Char :=
  if point ≤ 0 then '0' :: '.' :: List.replicate (-point).toNat '0' ++ digits
  else
    let before := digits.take point.toNat
    let after := digits.drop point.toNat
    let zeros := List.replicate (point.toNat - before.length) '0'
    before ++ zeros ++ '.' :: (if after.isEmpty then ['0'] else after)

/-- One digit, the point if more digits follow it, and an exponent of at least two digits. -/
def scientific (digits : List Char) (exponent : Int) : List Char :=
  let mantissa :=
    match digits with
    | [] => []
    | [d] => [d]
    | d :: rest => d :: '.' :: rest
  let size := Nat.toDigits 10 exponent.natAbs
  mantissa ++ 'e' :: (if exponent < 0 then '-' else '+')
    :: (if size.length < 2 then '0' :: size else size)

end Shortest

/-- The text of a floating-point number. -/
def floatText (x : Float) : String :=
  match Binary64.ofFloat x with
  | .notANumber => "nan"
  | .infinite negative => if negative then "-inf" else "inf"
  | .finite negative significand exponent =>
    let body :=
      if significand = 0 then "0.0".toList
      else
        match Shortest.digits? significand exponent with
        | none => []
        | some (count, place) =>
          let (digits, point) := Shortest.layout count place
          if -4 ≤ point - 1 && point - 1 < 16 then Shortest.positional digits point
          else Shortest.scientific digits (point - 1)
    String.ofList (if negative then '-' :: body else body)

end QueryTree
