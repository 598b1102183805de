import TypedWire.Number.Binary
import TypedWire.Number.Digits

/-!
# Shortest decimal text of a binary number

The decimal that stands for a binary number in text is the one with the fewest digits that reads back as
that number, and among those the nearest to it. It is found by exact arithmetic: for one digit, two, and
so on, the two neighbours of the number on that decimal grid are tried against the interval of all reals
that round to the number.

Two layouts use it: the plain one, which never has an exponent, and the one of JSON text.
-/

namespace TypedWire

/-- Which of two equally near decimals is taken. -/
inductive Tie where
  | even
  | up
  deriving DecidableEq, Repr

/-- Decimal digits of which the first counts `10 ^ exponent`; the last is not zero, except in zero. -/
structure Scientific where
  digits : List Char
  exponent : Int
  deriving DecidableEq, Repr

namespace Binary
variable {f : BinaryFormat}

/-- The reals that round to a positive finite number, in quarters of its last place: the lower end,
    the number itself and the upper end. Below a power of two the numbers lie twice as close. -/
def roundingInterval (x : Binary f) : Nat × Nat × Nat :=
  let m := 4 * x.significand
  let below := if x.significand = f.hiddenBit && f.minExponent < x.exponent then 1 else 2
  (m - below, m, m + 2)

/-- The multiple of `10 ^ q` that stands for a positive finite number, if one of its two neighbours on
    that grid rounds to it: both ends of the interval round to an even significand only. -/
def onGrid? (tie : Tie) (x : Binary f) (q : Int) : Option Nat :=
  let (lo, mid, hi) := x.roundingInterval
  let (binary, one) := scaleRatio 2 1 4 x.exponent
  let (unit, scale) := scaleRatio 10 one 1 q
  let down := (mid * binary * scale) / unit
  let closed := x.significand % 2 == 0
  let inside (d : Nat) : Bool :=
    if closed then lo * binary * scale ≤ d * unit && d * unit ≤ hi * binary * scale
    else lo * binary * scale < d * unit && d * unit < hi * binary * scale
  let twice := 2 * (mid * binary * scale)
  let middle := (2 * down + 1) * unit
  match inside down, inside (down + 1) with
  | true, true =>
    if twice < middle then some down
    else if middle < twice then some (down + 1)
    else match tie with
      | .up => some (down + 1)
      | .even => some (down + down % 2)
  | true, false => some down
  | false, true => some (down + 1)
  | false, false => none

/-- Tries the grids from `10 ^ q` downwards. -/
def shortestFrom (tie : Tie) (x : Binary f) : Nat → Int → Nat × Int
  | 0, q => ((x.onGrid? tie q).getD 0, q)
  | n + 1, q =>
    match x.onGrid? tie q with
    | some d => (d, q)
    | none => shortestFrom tie x n (q - 1)

/-- The shortest decimal of a finite number without its sign. Twenty digits are more than either format
    needs. -/
def shortest (tie : Tie) (x : Binary f) : Scientific :=
  if x.isZero then ⟨['0'], 0⟩
  else
    let (n, d) := x.ratio
    let (c, q) := shortestFrom tie x 20 (floorLog 10 digitCount n d)
    let ds := decimalDigits c
    ⟨(ds.reverse.dropWhile (· == '0')).reverse, q + ((ds.length : Int) - 1)⟩

/-- The plain text of a number: the shortest digits without an exponent, a half going up; no point
    behind an integer. -/
def plainText (x : Binary f) : String :=
  if x.isNaN then "NaN"
  else
    let sign := if x.isNegative then "-" else ""
    if x.isInfinite then sign ++ "inf"
    else
      let s := x.shortest .up
      sign ++ String.ofList (positional s.digits s.exponent)

/-- The exponents of the first digit for which a JSON number is written positionally. -/
def jsonPositional (exponent : Int) : Bool :=
  -5 ≤ exponent && exponent ≤ 15

/-- The text of a finite number in JSON: the shortest digits, a half going to the even digit. It shows
    by a point or an exponent that it is no integer. -/
def jsonText (x : Binary f) : String :=
  let s := x.shortest .even
  let sign := if x.isNegative then "-" else ""
  if jsonPositional s.exponent then
    let body := positional s.digits s.exponent
    sign ++ String.ofList (if '.' ∈ body then body else body ++ ['.', '0'])
  else
    let mantissa := match s.digits with
      | [] => []
      | [d] => [d]
      | d :: ds => d :: '.' :: ds
    let mark := if s.exponent < 0 then "e-" else "e+"
    sign ++ String.ofList mantissa ++ mark ++ integerText s.exponent.natAbs

end Binary

end TypedWire
