import TypedWire.Number.BigInteger
import TypedWire.Number.Binary

/-!
# Decimal numbers

A decimal is an integer and a scale: the number of places that the point stands left of its last digit.
Different pairs may be one number, as `10` at scale `1` and `1` at scale `0`; the pair is kept as read.
-/

namespace TypedWire

/-- The number `unscaled · 10 ^ (-scale)`. -/
structure Decimal where
  unscaled : Int
  scale : Int64
  deriving DecidableEq, Repr

/-- Why a text is no decimal. -/
inductive DecimalFault where
  /-- Nothing stands before the exponent. -/
  | empty
  /-- The digits or the exponent are no integer. -/
  | number (fault : NumberFault)
  /-- The scale does not fit. -/
  | scale (text : String)
  deriving DecidableEq, Repr

def DecimalFault.message : DecimalFault → String
  | .empty => "Failed to parse empty string"
  | .number fault => fault.message
  | .scale text => "Exponent overflow when parsing '" ++ text ++ "'"

/-- The integer in 64 bits that equals `n`, if there is one. -/
def int64? (n : Int) : Option Int64 :=
  if -(2 ^ 63) ≤ n ∧ n < 2 ^ 63 then some (Int64.ofInt n) else none

theorem int64?_toInt (n : Int64) : int64? n.toInt = some n := by
  rw [int64?, if_pos ⟨n.le_toInt, n.toInt_lt⟩, Int64.ofInt_toInt]

namespace Decimal

def ofInt (n : Int) : Decimal :=
  ⟨n, 0⟩

/-- Reads the digits of an exponent after those already read. The first character that is no digit, or
    the first digit past `limit`, ends it. -/
def exponentDigits (limit : Nat) (past : NumberFault) : Nat → List Char → Except NumberFault Nat
  | n, [] => .ok n
  | n, c :: cs =>
    if c.isDigit then
      let n := 10 * n + digitValue c
      if limit < n then .error past else exponentDigits limit past n cs
    else .error .badDigit

/-- Reads the exponent of a decimal, an integer of 128 bits. -/
def exponent? : List Char → Except NumberFault Int
  | [] => .error .empty
  | ['+'] | ['-'] => .error .badDigit
  | '-' :: cs => (exponentDigits (2 ^ 127) .tooSmall 0 cs).map fun n => -(n : Int)
  | '+' :: cs => (exponentDigits (2 ^ 127 - 1) .tooLarge 0 cs).map Int.ofNat
  | cs => (exponentDigits (2 ^ 127 - 1) .tooLarge 0 cs).map Int.ofNat

/-- The part of a list before the first character that satisfies `p`, and what follows that character if
    it is there. -/
def cut (p : Char → Bool) (cs : List Char) : List Char × Option (List Char) :=
  match cs.dropWhile (fun c => !p c) with
  | [] => (cs, none)
  | _ :: rest => (cs.takeWhile (fun c => !p c), some rest)

/-- Reads a decimal: digits with a point among them, then an exponent behind `e` or `E`. -/
def parse (s : String) : Except DecimalFault Decimal := do
  let (mantissa, tail) := cut (fun c => c = 'e' || c = 'E') s.toList
  let exponent ← match tail with
    | none => pure 0
    | some cs => (exponent? cs).mapError .number
  if mantissa.isEmpty then throw .empty
  let (lead, trail) := cut (· = '.') mantissa
  let fraction := trail.getD []
  let places := (fraction.filter (· ≠ '_')).length
  match int64? (places - exponent) with
  | none => throw (.scale s)
  | some scale =>
    let n ← (BigInteger.parse (String.ofList (lead ++ fraction))).mapError .number
    return ⟨n, scale⟩

/-- The text of a decimal. Very small numbers and numbers with many zeros before the point have an
    exponent; all others are written out with all their places. -/
def text (d : Decimal) : String :=
  let digits := decimalDigits d.unscaled.natAbs
  let scale := if d.unscaled = 0 then 0 else d.scale.toInt
  let sign := if d.unscaled < 0 then "-" else ""
  let first := (digits.length : Int) - 1 - scale
  if 5 < scale - digits.length then
    let mantissa := match digits with
      | [] => []
      | [c] => [c]
      | c :: cs => c :: '.' :: cs
    sign ++ String.ofList mantissa ++ "E" ++ integerText first
  else if 15 < -scale then
    sign ++ String.ofList digits ++ "e+" ++ integerText (-scale)
  else
    sign ++ String.ofList (positional digits first)

/-- Numeric equality, whatever the scales. The power of ten between the two scales is only formed where
    the other number has as many digits. -/
def equal (a b : Decimal) : Bool :=
  let shifted (n : Int) (k : Nat) (m : Int) : Bool :=
    -- whether `n = m · 10 ^ k`
    if m = 0 then n = 0 else k ≤ digitCount n.natAbs && n == m * 10 ^ k
  let k := a.scale.toInt - b.scale.toInt
  if 0 ≤ k then shifted a.unscaled k.toNat b.unscaled else shifted b.unscaled (-k).toNat a.unscaled

/-- The powers of ten that a conversion to a double takes on, and their inverses. -/
def readableScale : Int :=
  2 ^ 31 - 1

/-- The count of digits of an integer, estimated from its bits. It is exact or one too small. -/
def estimateDigits (n : Nat) : Nat :=
  digitCount (2 ^ (n.log2 + 2)) - 1

/-- The count of digits at the end that a double has no room for. Nineteen are dropped at a time, and at
    least twenty-five stay. -/
def spareDigits (n : Nat) : Nat :=
  19 * ((estimateDigits n - 25) / 19)

/-- A double close to the decimal, without its spare digits. An integer at scale zero and a number with
    places are rounded once. Where zeros stand before the point, the digits and the power of ten are
    rounded each and then multiplied. Past the readable scales it is an infinity, and far below the least
    number it is a zero. -/
def toBinary64 (d : Decimal) : Binary64 :=
  let negative := decide (d.unscaled < 0)
  let n := d.unscaled.natAbs
  if n = 0 then .zero false
  else if d.scale = 0 then .ofInt d.unscaled
  else
    let spare := spareDigits n
    let n := n / 10 ^ spare
    let scale := d.scale.toInt - spare
    if readableScale < scale || scale < -readableScale then .infinity negative
    else if scale ≤ 0 then
      (Binary.ofRatio negative n 1).mul ((Binary.ofInt 10).pow (-scale).toNat)
    else if (digitCount n : Int) - scale < -330 then .zero negative
    else .ofRatio negative n (10 ^ scale.toNat)

end Decimal

end TypedWire
