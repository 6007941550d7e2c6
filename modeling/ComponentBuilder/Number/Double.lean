/-!
# Binary64 numbers

A double is kept as its sixty-four bits, so that equal values are equal as data and nothing depends
on how a machine computes.  The magnitude of a finite double is `significand * 2 ^ exponent`; the
nearest double to a quotient of naturals is found in exact arithmetic, ties going to the even
significand.
-/

namespace ComponentBuilder

/-- A binary64 number, by its bits. -/
structure Double where
  bits : UInt64
deriving DecidableEq, Repr, Inhabited

/-- The quotient of two naturals rounded to the nearest natural, a tie going to the even one. -/
def roundQuotient (num den : Nat) : Nat :=
  let quotient := num / den
  let twice := 2 * (num % den)
  if twice < den then quotient
  else if twice = den then quotient + quotient % 2
  else quotient + 1

namespace Double

/-- Whether the sign bit is set. -/
def isNegative (x : Double) : Bool :=
  Nat.pow 2 63 ≤ x.bits.toNat

/-- The eleven bits of the exponent field. -/
def exponentField (x : Double) : Nat :=
  x.bits.toNat / Nat.pow 2 52 % Nat.pow 2 11

/-- The fifty-two bits of the fraction field. -/
def fractionField (x : Double) : Nat :=
  x.bits.toNat % Nat.pow 2 52

/-- Whether the double is neither infinite nor a NaN. -/
def isFinite (x : Double) : Bool :=
  x.exponentField < 2047

/-- Whether the double is not a number. -/
def isNaN (x : Double) : Bool :=
  x.exponentField == 2047 && x.fractionField != 0

/-- The natural number that the magnitude is a multiple of a power of two of. -/
def significand (x : Double) : Nat :=
  if x.exponentField = 0 then x.fractionField else Nat.pow 2 52 + x.fractionField

/-- The power of two that goes with the significand. -/
def exponent (x : Double) : Int :=
  if x.exponentField = 0 then -1074 else (x.exponentField : Int) - 1075

/-- Whether the double is a zero of either sign. -/
def isZero (x : Double) : Bool :=
  x.exponentField == 0 && x.fractionField == 0

/-- Numerator and denominator of the magnitude of a finite double. -/
def magnitude (x : Double) : Nat × Nat :=
  (x.significand * Nat.pow 2 x.exponent.toNat, Nat.pow 2 (-x.exponent).toNat)

/-- The double with the given sign and the bits of its magnitude. -/
def withSign (negative : Bool) (magnitudeBits : Nat) : Double :=
  ⟨UInt64.ofNat (magnitudeBits + if negative then Nat.pow 2 63 else 0)⟩

/-- The bits of an infinite magnitude. -/
def infiniteBits : Nat :=
  2047 * Nat.pow 2 52

/-- The bits of a magnitude that is no number. -/
def undefinedBits : Nat :=
  infiniteBits + Nat.pow 2 51

/-- The double nearest to a quotient of naturals; too large a quotient gives an infinity. -/
def ofRatio (negative : Bool) (num den : Nat) : Double :=
  if num = 0 then withSign negative 0
  else
    let guess : Int := max (-1074) ((num.log2 : Int) - (den.log2 : Int) - 53)
    let scaled (q : Int) : Nat × Nat := (num * Nat.pow 2 (-q).toNat, den * Nat.pow 2 q.toNat)
    let (n, d) := scaled guess
    let q := if Nat.pow 2 53 ≤ n / d then guess + 1 else guess
    let (n, d) := scaled q
    let m := roundQuotient n d
    if m < Nat.pow 2 52 then withSign negative m
    else
      let magnitudeBits := (q + 1075).toNat * Nat.pow 2 52 + (m - Nat.pow 2 52)
      withSign negative (min magnitudeBits infiniteBits)

/-- The double nearest to an integer. -/
def ofInt (n : Int) : Double :=
  ofRatio (n < 0) n.natAbs 1

/-- The double nearest to `mantissa * 10 ^ exponent`. -/
def ofDecimal (negative : Bool) (mantissa : Nat) (exponent : Int) : Double :=
  let size : Int := (toString mantissa).length
  if mantissa = 0 || exponent + size < -400 then withSign negative 0
  else if 400 < exponent + size then withSign negative infiniteBits
  else ofRatio negative (mantissa * Nat.pow 10 exponent.toNat) (Nat.pow 10 (-exponent).toNat)

/-- The machine number with these bits. -/
def toFloat (x : Double) : Float :=
  Float.ofBits x.bits

/-- The double of a machine number. -/
def ofFloat (x : Float) : Double :=
  ⟨x.toBits⟩

/-- Sum. -/
def add (x y : Double) : Double :=
  ofFloat (x.toFloat + y.toFloat)

/-- Difference. -/
def sub (x y : Double) : Double :=
  ofFloat (x.toFloat - y.toFloat)

/-- Product. -/
def mul (x y : Double) : Double :=
  ofFloat (x.toFloat * y.toFloat)

/-- The numeric order; false when one side is not a number. -/
def lt (x y : Double) : Bool :=
  x.toFloat < y.toFloat

/-- The numeric order or equality; false when one side is not a number. -/
def le (x y : Double) : Bool :=
  x.toFloat ≤ y.toFloat

/-- Whether a finite double is an integer. -/
def isIntegral (x : Double) : Bool :=
  x.isFinite && (x.magnitude.1 % x.magnitude.2 == 0)

/-- The integer part of a finite double. -/
def truncate (x : Double) : Int :=
  let whole : Int := (x.magnitude.1 / x.magnitude.2 : Nat)
  if x.isNegative then -whole else whole

end Double

end ComponentBuilder
