/-!
# Letter case

Names are looked up by their small letters and keywords by their capitals.

* `lower` writes a name in small letters.  It covers the letters of the Latin alphabet with and
  without marks (up to U+017F); the capital I with a dot becomes two characters, an `i` and the
  dot.
* `upper` writes a word in capitals for comparison with an ASCII keyword.  Outside ASCII only the
  dotless `ı` and the long `ſ` have a capital in ASCII, so no other letter can take part in a match.
-/

namespace QueryTree.Text

/-- The small form of a Latin letter up to U+017F, as a list because one capital has a small form of
two characters.  Every other character stays as it is. -/
def lowerChar (c : Char) : List Char :=
  let n := c.toNat
  if 0x41 ≤ n && n ≤ 0x5a then [Char.ofNat (n + 0x20)]
  else if 0xc0 ≤ n && n ≤ 0xde && n != 0xd7 then [Char.ofNat (n + 0x20)]
  else if n == 0x130 then ['i', Char.ofNat 0x307]
  else if ((0x100 ≤ n && n ≤ 0x137) || (0x14a ≤ n && n ≤ 0x177)) && n % 2 == 0 then
    [Char.ofNat (n + 1)]
  else if ((0x139 ≤ n && n ≤ 0x148) || (0x179 ≤ n && n ≤ 0x17e)) && n % 2 == 1 then
    [Char.ofNat (n + 1)]
  else if n == 0x178 then [Char.ofNat 0xff]
  else [c]

/-- A name in small letters. -/
def lower (text : String) : String :=
  String.ofList (text.toList.flatMap lowerChar)

/-- The capital of a letter whose capital is in ASCII. -/
def upperChar (c : Char) : Char :=
  let n := c.toNat
  if 0x61 ≤ n && n ≤ 0x7a then Char.ofNat (n - 0x20)
  else if n == 0x131 then 'I'
  else if n == 0x17f then 'S'
  else c

/-- A word in capitals. -/
def upper (text : String) : String :=
  String.ofList (text.toList.map upperChar)

end QueryTree.Text
