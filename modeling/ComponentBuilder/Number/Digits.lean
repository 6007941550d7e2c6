import ComponentBuilder.Number.Double

/-!
# Decimal digits of a double

Two ways to choose digits: the fewest that read back as the same double, and a fixed number of
significant digits.  `NumberStyle` then lays the digits out as text.
-/

namespace ComponentBuilder

/-- The decimal number `digits * 10 ^ power`. -/
structure Decimal where
  digits : Nat
  power : Int
deriving DecidableEq, Repr

namespace Decimal

/-- Take zeros off the end of the digits, at most `fuel` of them. -/
def trimFuel : Nat → Nat → Int → Decimal
  | 0, digits, power => ⟨digits, power⟩
  | fuel + 1, digits, power =>
      if digits % 10 = 0 then trimFuel fuel (digits / 10) (power + 1) else ⟨digits, power⟩

/-- The same number without zeros at the end of its digits. -/
def trimZeros (d : Decimal) : Decimal :=
  if d.digits = 0 then d else trimFuel (toString d.digits).length d.digits d.power

end Decimal

namespace Double

/-- Whether `10 ^ power` is at most the quotient. -/
def reaches (num den : Nat) (power : Int) : Bool :=
  den * Nat.pow 10 power.toNat ≤ num * Nat.pow 10 (-power).toNat

/-- The power of ten of the first digit of a positive quotient. -/
def leadingPower (num den : Nat) : Int :=
  let guess : Int := ((num.log2 : Int) - (den.log2 : Int) - 1) * 30103 / 100000
  if reaches num den (guess + 2) then guess + 2
  else if reaches num den (guess + 1) then guess + 1
  else guess

/--
The decimal with digits at or above `10 ^ power` that is nearest to the double among those that read
back as it, if there is one.

In units of a quarter of the last place the double is `4 m`, and the numbers that read back as it lie
between `4 m - below` and `4 m + 2`, the ends belonging to it when `m` is even.
-/
def nearestOnGrid? (x : Double) (power : Int) : Option Decimal :=
  let m := x.significand
  let q := x.exponent - 2
  let below := if m = Nat.pow 2 52 && x.exponentField ≠ 1 then 1 else 2
  let unit := Nat.pow 10 power.toNat * Nat.pow 2 (-q).toNat
  let scale := Nat.pow 10 (-power).toNat * Nat.pow 2 q.toNat
  let inside (c : Nat) : Bool :=
    let low := (4 * m - below) * scale
    let high := (4 * m + 2) * scale
    if m % 2 = 0 then low ≤ c * unit && c * unit ≤ high
    else low < c * unit && c * unit < high
  let floor := 4 * m * scale / unit
  let nearest := roundQuotient (4 * m * scale) unit
  let other := if nearest = floor then floor + 1 else floor
  if inside nearest then some ⟨nearest, power⟩
  else if inside other then some ⟨other, power⟩
  else none

/-- The first grid, from coarse to fine, on which a decimal reads back; `fuel` grids are tried. -/
def shortestFrom (x : Double) : Nat → Int → Decimal
  | 0, power => ⟨0, power⟩
  | fuel + 1, power =>
      match x.nearestOnGrid? power with
      | some d => d.trimZeros
      | none => shortestFrom x fuel (power - 1)

/-- The fewest digits that read back as the magnitude of a finite double. -/
def shortest (x : Double) : Decimal :=
  if x.isZero then ⟨0, 0⟩
  else
    let (num, den) := x.magnitude
    shortestFrom x 18 (leadingPower num den)

/-- The magnitude of a finite double rounded to `count` significant digits. -/
def significant (x : Double) (count : Nat) : Decimal :=
  if x.isZero then ⟨0, 0⟩
  else
    let (num, den) := x.magnitude
    let power := leadingPower num den - (count - 1 : Nat)
    let digits := roundQuotient (num * Nat.pow 10 (-power).toNat) (den * Nat.pow 10 power.toNat)
    (⟨digits, power⟩ : Decimal).trimZeros

end Double

/-- How decimal digits are laid out as text. -/
structure NumberStyle where
  /-- The least power of ten of the first digit that is written without an exponent. -/
  lowest : Int
  /-- The greatest power of ten of the first digit that is written without an exponent. -/
  highest : Int
  /-- Whether an integral value ends in a point and a zero. -/
  keepPoint : Bool
  /-- How many digits the exponent has at least. -/
  exponentDigits : Nat

namespace NumberStyle

/-- A text of at least `width` characters, filled up with zeros in front. -/
def padZeros (width : Nat) (text : String) : String :=
  String.ofList (List.replicate (width - text.length) '0') ++ text

/-- The text of a decimal. -/
def layOut (style : NumberStyle) (d : Decimal) : String :=
  let digits := toString d.digits
  let count : Int := digits.length
  let first := d.power + count - 1
  let zeros (n : Int) : String := String.ofList (List.replicate n.toNat '0')
  if d.digits = 0 then (if style.keepPoint then "0.0" else "0")
  else if style.lowest ≤ first && first ≤ style.highest then
    if 0 ≤ d.power then
      digits ++ zeros d.power ++ (if style.keepPoint then ".0" else "")
    else if 0 ≤ first then
      String.ofList (digits.toList.take (first + 1).toNat) ++ "." ++
        String.ofList (digits.toList.drop (first + 1).toNat)
    else
      "0." ++ zeros (-first - 1) ++ digits
  else
    let fraction := String.ofList (digits.toList.drop 1)
    let size := padZeros style.exponentDigits (toString first.natAbs)
    String.ofList (digits.toList.take 1) ++ (if fraction.isEmpty then "" else "." ++ fraction) ++
      "e" ++ (if first < 0 then "-" else "+") ++ size

/-- Numbers in documents: positional from 1e-5 to below 1e16. -/
def document : NumberStyle := ⟨-5, 15, true, 1⟩

/-- Numbers in messages: positional from 1e-4 to below 1e16, exponents of at least two digits. -/
def display : NumberStyle := ⟨-4, 15, true, 2⟩

/-- Six significant digits, without a point where none is needed. -/
def general : NumberStyle := ⟨-4, 5, false, 2⟩

end NumberStyle

namespace Double

/-- The sign of a double in front of the text of its magnitude. -/
def signed (x : Double) (text : String) : String :=
  if x.isNegative then "-" ++ text else text

/-- The shortest text of a finite double in a style. -/
def shortestText (x : Double) (style : NumberStyle) : String :=
  x.signed (style.layOut x.shortest)

/-- The text of a double in a message. -/
def displayText (x : Double) : String :=
  if x.isNaN then "nan"
  else if x.isFinite then x.shortestText .display
  else x.signed "inf"

/-- The text of a double with six significant digits. -/
def generalText (x : Double) : String :=
  if x.isNaN then "nan"
  else if x.isFinite then x.signed (NumberStyle.general.layOut (x.significant 6))
  else x.signed "inf"

end Double

end ComponentBuilder
