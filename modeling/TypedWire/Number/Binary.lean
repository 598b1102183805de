import TypedWire.Number.Digits

/-!
# Binary floating-point numbers

Numbers in a binary interchange format, held as their bits and read as a sign, a significand and an
exponent. Every operation computes with exact ratios and rounds once, to the nearest number with a half
going to the even significand.
-/

namespace TypedWire

/-- The shape of a binary format: bits of the significand, the hidden one included, and bits of the
    exponent field. -/
structure BinaryFormat where
  precision : Nat
  exponentBits : Nat
  deriving DecidableEq, Repr

namespace BinaryFormat

def binary64 : BinaryFormat := ⟨53, 11⟩

def binary32 : BinaryFormat := ⟨24, 8⟩

/-- The bits of a number: the sign, the exponent field and the significand without its hidden bit. -/
def width (f : BinaryFormat) : Nat :=
  f.exponentBits + f.precision

/-- The least significand that has its hidden bit. -/
def hiddenBit (f : BinaryFormat) : Nat :=
  2 ^ (f.precision - 1)

/-- The bits of positive infinity; greater ones without the sign are NaNs. -/
def infinityBits (f : BinaryFormat) : Nat :=
  (2 ^ f.exponentBits - 1) * f.hiddenBit

/-- The exponent of the least positive number. -/
def minExponent (f : BinaryFormat) : Int :=
  3 - 2 ^ (f.exponentBits - 1) - (f.precision : Int)

end BinaryFormat

/-- A number in a binary format. -/
structure Binary (f : BinaryFormat) where
  bits : BitVec f.width
  deriving DecidableEq

/-- A number in the 64-bit format. -/
abbrev Binary64 := Binary .binary64

/-- A number in the 32-bit format. -/
abbrev Binary32 := Binary .binary32

/-- The quotient rounded to the nearest integer, a half to the even one. -/
def roundDiv (num den : Nat) : Nat :=
  let q := num / den
  let r := num % den
  if 2 * r < den then q else if den < 2 * r then q + 1 else q + q % 2

/-- A numerator and a denominator, for `num / den · base ^ e`. -/
def scaleRatio (base num den : Nat) (e : Int) : Nat × Nat :=
  if 0 ≤ e then (num * base ^ e.toNat, den) else (num, den * base ^ (-e).toNat)

/-- The greatest `k` with `base ^ k ≤ num / den`, where `size` counts the digits of a number in that
    base and both numbers are positive. -/
def floorLog (base : Nat) (size : Nat → Nat) (num den : Nat) : Int :=
  let k : Int := (size num : Int) - size den
  let (n, d) := scaleRatio base num den (-k)
  if d ≤ n then k else k - 1

namespace Binary
variable {f : BinaryFormat}

def magnitude (x : Binary f) : Nat :=
  x.bits.toNat % 2 ^ (f.width - 1)

/-- Whether the sign bit is set, as it is for `-0.0`. -/
def isNegative (x : Binary f) : Bool :=
  2 ^ (f.width - 1) ≤ x.bits.toNat

/-- Neither infinite nor a NaN. -/
def isFinite (x : Binary f) : Bool :=
  x.magnitude < f.infinityBits

def isInfinite (x : Binary f) : Bool :=
  x.magnitude == f.infinityBits

def isNaN (x : Binary f) : Bool :=
  f.infinityBits < x.magnitude

def isZero (x : Binary f) : Bool :=
  x.magnitude == 0

/-- The number with the given sign and the given bits beside it. -/
def ofMagnitude (negative : Bool) (m : Nat) : Binary f :=
  ⟨BitVec.ofNat f.width (m + if negative then 2 ^ (f.width - 1) else 0)⟩

def zero (negative : Bool) : Binary f :=
  ofMagnitude negative 0

def infinity (negative : Bool) : Binary f :=
  ofMagnitude negative f.infinityBits

/-- A quiet NaN. -/
def nan : Binary f :=
  ofMagnitude false (f.infinityBits + f.hiddenBit / 2)

/-- The integer significand of a finite number. -/
def significand (x : Binary f) : Nat :=
  if x.magnitude < f.hiddenBit then x.magnitude else f.hiddenBit + x.magnitude % f.hiddenBit

/-- The power of two that goes with the significand of a finite number. -/
def exponent (x : Binary f) : Int :=
  f.minExponent + (x.magnitude / f.hiddenBit - 1 : Nat)

/-- A finite number without its sign, as numerator and denominator. -/
def ratio (x : Binary f) : Nat × Nat :=
  scaleRatio 2 x.significand 1 x.exponent

/-- The number nearest to `num / den` with a sign, for a positive `den`. Past the greatest finite number
    it is the infinity. -/
def ofRatio (negative : Bool) (num den : Nat) : Binary f :=
  if num = 0 then zero negative
  else
    let e := max f.minExponent (floorLog 2 (Nat.log2 · + 1) num den - ((f.precision : Int) - 1))
    let (n, d) := scaleRatio 2 num den (-e)
    let m := (e - f.minExponent).toNat * f.hiddenBit + roundDiv n d
    ofMagnitude negative (min m f.infinityBits)

/-- The number nearest to an integer. -/
def ofInt (n : Int) : Binary f :=
  ofRatio (n < 0) n.natAbs 1

/-- The product. It is a NaN where a factor is one, and for an infinity times a zero. -/
def mul (x y : Binary f) : Binary f :=
  let negative := x.isNegative != y.isNegative
  if x.isNaN || y.isNaN then nan
  else if x.isInfinite || y.isInfinite then
    if x.isZero || y.isZero then nan else infinity negative
  else
    let (n, d) := x.ratio
    let (n', d') := y.ratio
    ofRatio negative (n * n') (d * d')

/-- Multiplies by a power by repeated squaring, where each product is rounded. -/
def mulPow (r x : Binary f) (e : Nat) : Binary f :=
  if e = 0 then r
  else mulPow (if e % 2 = 1 then r.mul x else r) (x.mul x) (e / 2)

/-- The power by repeated squaring. As each product is rounded, a great one need not be the number nearest
    to the power itself. -/
def pow (x : Binary f) (e : Nat) : Binary f :=
  mulPow (ofInt 1) x e

/-- The quotient of a finite number and a finite one that is not zero; any other pair gives a NaN. -/
def div (x y : Binary f) : Binary f :=
  if x.isFinite && y.isFinite && !y.isZero then
    let (n, d) := x.ratio
    let (n', d') := y.ratio
    ofRatio (x.isNegative != y.isNegative) (n * d') (d * n')
  else nan

def neg (x : Binary f) : Binary f :=
  ofMagnitude (!x.isNegative) x.magnitude

/-- Numeric equality: the two zeros are equal and a NaN equals nothing. -/
def equal (x y : Binary f) : Bool :=
  !x.isNaN && !y.isNaN && (x.bits == y.bits || (x.isZero && y.isZero))

/-- The nearest number in another format; infinities and NaNs stay what they are. -/
def convert {g : BinaryFormat} (x : Binary f) : Binary g :=
  if x.isNaN then nan
  else if x.isInfinite then infinity x.isNegative
  else ofRatio x.isNegative x.ratio.1 x.ratio.2

end Binary

end TypedWire
