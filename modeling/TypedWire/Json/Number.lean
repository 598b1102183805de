import TypedWire.Json
import TypedWire.Number.Digits
import TypedWire.Text.Ascii

/-!
# Numbers in JSON text

A number is a sign, digits without a leading zero, a fraction and an exponent. Without fraction and
exponent it is an integer as long as that fits; all else is a double.

The digits of a double are gathered in 64 bits, and those that do not fit only move the exponent. The
gathered integer is rounded to a double and then multiplied or divided by the double nearest to the power
of ten, so the result may differ from the nearest double in its last place.
-/

namespace TypedWire.Json
open Text

/-- The greatest integer in which digits are gathered. -/
def gatherLimit : Nat :=
  2 ^ 64 - 1

/-- The greatest power of ten that is a double. -/
def greatestPower : Nat :=
  308

/-- The double nearest to a power of ten. -/
def power (n : Nat) : Binary64 :=
  .ofRatio false (10 ^ n) 1

/-- A double times a power of ten, with a rounding for each step; an overflow is no number. -/
def applyExponent (x : Binary64) (exponent : Int) : Option Binary64 :=
  if exponent.natAbs ≤ greatestPower then
    if 0 ≤ exponent then
      let y := x.mul (power exponent.toNat)
      if y.isFinite then some y else none
    else some (x.div (power exponent.natAbs))
  else if x.isZero then some x
  else if 0 ≤ exponent then none
  else applyExponent (x.div (power greatestPower)) (exponent + greatestPower)
termination_by (-exponent).toNat
decreasing_by
  simp only [greatestPower] at *
  omega

/-- Gathers digits while they fit: the integer so far, how many have been taken, and the rest. -/
def gather (significand taken : Nat) : List Char → Nat × Nat × List Char
  | [] => (significand, taken, [])
  | c :: cs =>
    if isDigit c && 10 * significand + digitValue c ≤ gatherLimit then
      gather (10 * significand + digitValue c) (taken + 1) cs
    else (significand, taken, c :: cs)

/-- An exponent kept within 32 bits. -/
def clampExponent (e : Int) : Int :=
  max (-(2 ^ 31)) (min e (2 ^ 31 - 1))

/-- Reads an exponent behind its letter: the sign, the digits, which have to be there, and the rest. -/
def readExponent? (cs : List Char) : Option (Bool × Nat × List Char) :=
  let (negative, digits) := match cs with
    | '-' :: rest => (true, rest)
    | '+' :: rest => (false, rest)
    | _ => (false, cs)
  let ds := digits.takeWhile isDigit
  if ds.isEmpty then none else some (negative, ofDigits ds, digits.dropWhile isDigit)

/-- A double from the gathered digits, the places they have to be moved, and the text from the exponent
    on. An exponent past 32 bits gives zero, or nothing where the number would be too large. -/
def finishFloat (significand : Nat) (places : Int) (cs : List Char) :
    Option (Binary64 × List Char) :=
  let x : Binary64 := .ofInt significand
  match cs with
  | [] => (applyExponent x places).map (·, [])
  | c :: rest =>
    if c = 'e' || c = 'E' then
      match readExponent? rest with
      | none => none
      | some (negative, e, rest) =>
        if 2 ^ 31 - 1 < e then
          if significand ≠ 0 && !negative then none else some (.zero false, rest)
        else
          let exponent := clampExponent (if negative then places - e else places + e)
          (applyExponent x exponent).map (·, rest)
    else (applyExponent x places).map (·, c :: rest)

/-- A double from the digits before the point, the places that some of them have to be moved, and the
    text behind them. A point has to be followed by a digit. -/
def readFloat (significand : Nat) (moved : Nat) (cs : List Char) :
    Option (Binary64 × List Char) :=
  match cs with
  | '.' :: rest =>
    if rest.head?.any isDigit then
      let (significand, taken, rest) := gather significand 0 rest
      finishFloat significand (moved - taken) (rest.dropWhile isDigit)
    else none
  | _ => finishFloat significand moved cs

/-- Whether a text goes on with a fraction or an exponent. -/
def continuesFloat (cs : List Char) : Bool :=
  cs.head?.any fun c => c = '.' || c = 'e' || c = 'E'

/-- Reads a number without its sign. A negative integer is one as long as it fits in 64 bits with its
    sign, and not zero. -/
def readMagnitude (negative : Bool) (cs : List Char) : Option (Json × List Char) :=
  let signed (x : Binary64) : Json := float (if negative then x.neg else x)
  let wellBegun := match cs with
    | '0' :: c :: _ => !isDigit c
    | c :: _ => isDigit c
    | [] => false
  if !wellBegun then none
  else
    let (significand, _, rest) := gather 0 0 cs
    let skipped := (rest.takeWhile isDigit).length
    let rest := rest.dropWhile isDigit
    if skipped ≠ 0 || continuesFloat rest then
      (readFloat significand skipped rest).map fun (x, rest) => (signed x, rest)
    else if !negative then some (integer significand, rest)
    else if significand = 0 || 2 ^ 63 < significand then some (signed (.ofInt significand), rest)
    else some (integer (-significand), rest)

def readNumber (cs : List Char) : Option (Json × List Char) :=
  match cs with
  | '-' :: rest => readMagnitude true rest
  | _ => readMagnitude false cs

end TypedWire.Json
