/-!
# Identifiers

Identifiers are numbers of 128 bits written with 26 digits of a base of 32.  A sequence of them never
goes backwards: a candidate that is not above the last number gives way to its successor, so the
texts rise in the order of code points.
-/

namespace ComponentBuilder

namespace Identifier

/-- The digits in rising order: no letter that looks like another digit. -/
def digits : List Char :=
  "0123456789ABCDEFGHJKMNPQRSTVWXYZ".toList

/-- The digit of a number below 32. -/
def digit (n : Nat) : Char :=
  digits.getD n '0'

/-- The last `width` digits of a number. -/
def encode : Nat → Nat → List Char
  | 0, _ => []
  | width + 1, n => encode width (n / 32) ++ [digit (n % 32)]

/-- How many digits an identifier has. -/
def width : Nat := 26

/-- The first number that is too large. -/
def limit : Nat := Nat.pow 2 128

/-- The text of a number. -/
def text (n : Nat) : String :=
  String.ofList (encode width n)

/-- The text of a number with a word for the kind of thing it names. -/
def tagged (kind text : String) : String :=
  kind ++ "_" ++ text

/-- A sequence of identifiers, known by its last number. -/
structure Sequence where
  last : Nat := 0
deriving DecidableEq, Repr

/-- The number after the last one that a candidate leads to. -/
def Sequence.value (s : Sequence) (candidate : Int) : Nat :=
  if candidate ≤ s.last then s.last + 1 else candidate.toNat

/-- The next identifier, unless its number is too large, and the sequence after it. -/
def Sequence.next (s : Sequence) (candidate : Int) : Option String × Sequence :=
  let n := s.value candidate
  (if n < limit then some (text n) else none, ⟨n⟩)

/-- The wording for a number that is too large. -/
def overflowMessage : String :=
  "int too big to convert"

end Identifier

end ComponentBuilder
