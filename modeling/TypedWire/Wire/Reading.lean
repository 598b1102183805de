import TypedWire.Error
import TypedWire.Number.Shortest
import TypedWire.Wire
import TypedWire.Wire.Decoder

/-!
# Reading wire values as scalars

What a wire value is as a scalar of a given kind, as a string or as a big number. An integer is taken from
either carrier and has to fit; a floating-point kind takes every number and rounds it; a character is a
string of one or a code point; the big numbers also come as text. A decoder takes the value only where
this succeeds.
-/

namespace TypedWire

namespace Wire

/-- The value is not what was asked for. -/
def unexpected {α : Type} (expected : String) (w : Wire) : Except CodecError α :=
  .error (.unexpectedToken expected w.token)

/-- An integer of 64 bits from either carrier; `target` is the kind that was asked for. -/
def readInt64 (target : Kind) : Wire → Except CodecError Int64
  | leaf (.integer n) => .ok n
  | leaf (.bigInteger n) =>
    match int64? n with
    | some n => .ok n
    | none => .error (.outOfRange target (integerText n))
  | w => w.unexpected target.name

/-- An integer in the range of a kind, brought to its width. -/
def readWidth {α : Type} (target : Kind) (bits : Nat) (narrow : Int → α) (w : Wire) :
    Except CodecError α := do
  let n := (← w.readInt64 target).toInt
  if -(2 ^ (bits - 1)) ≤ n ∧ n < 2 ^ (bits - 1) then return narrow n
  else throw (.outOfRange target (integerText n))

/-- The double nearest to a number of whatever carrier. -/
def readBinary64 (target : Kind) : Wire → Except CodecError Binary64
  | leaf (.integer n) => .ok (.ofInt n.toInt)
  | leaf (.float x) => .ok x
  | leaf (.bigInteger n) => .ok (.ofInt n)
  | leaf (.bigDecimal d) => .ok d.toBinary64
  | w => w.unexpected target.name

/-- A number of 32 bits: the double nearest to the number, rounded again. A finite double past the
    greatest finite result is refused. -/
def readBinary32 (w : Wire) : Except CodecError Binary32 := do
  let wide ← w.readBinary64 .float
  let narrow : Binary32 := wide.convert
  if wide.isFinite && !narrow.isFinite then throw (.outOfRange .float wide.plainText)
  return narrow

/-- The character of a code point; surrogates are none. -/
def charOfCode? (n : Int) : Option Char :=
  if 0 ≤ n ∧ n.toNat.isValidChar then some (Char.ofNat n.toNat) else none

/-- A character: a string of one, or a code point in 64 bits. -/
def readChar : Wire → Except CodecError Char
  | leaf (.string s) =>
    match s.toList with
    | [c] => .ok c
    | _ => .error (.parse Kind.char.name s "expected exactly one character")
  | leaf (.integer n) =>
    match charOfCode? n.toInt with
    | some c => .ok c
    | none => .error (.outOfRange .char (integerText n.toInt))
  | w => w.unexpected Kind.char.name

def readBoolean : Wire → Except CodecError Bool
  | leaf (.boolean b) => .ok b
  | w => w.unexpected Kind.boolean.name

def readScalar : (k : Kind) → Wire → Except CodecError k.Carrier
  | .boolean, w => w.readBoolean
  | .byte, w => w.readWidth .byte 8 Int8.ofInt
  | .short, w => w.readWidth .short 16 Int16.ofInt
  | .int, w => w.readWidth .int 32 Int32.ofInt
  | .long, w => w.readInt64 .long
  | .float, w => w.readBinary32
  | .double, w => w.readBinary64 .double
  | .char, w => w.readChar

def readString : Wire → Except CodecError String
  | leaf (.string s) => .ok s
  | w => w.unexpected "string"

/-- A big integer from an integer or from text. -/
def readBigInteger : Wire → Except CodecError Int
  | leaf (.integer n) => .ok n.toInt
  | leaf (.bigInteger n) => .ok n
  | leaf (.string s) => (BigInteger.parse s).mapError fun e => .parse "BigInteger" s e.message
  | w => w.unexpected "big integer"

def decimalOfText (s : String) : Except CodecError Decimal :=
  (Decimal.parse s).mapError fun e => .parse "BigDecimal" s e.message

/-- A decimal from any number or from text. A double is taken by its shortest text, so that `0.1` is one
    tenth. -/
def readBigDecimal : Wire → Except CodecError Decimal
  | leaf (.integer n) => .ok (.ofInt n.toInt)
  | leaf (.float x) => decimalOfText x.plainText
  | leaf (.bigInteger n) => .ok (.ofInt n)
  | leaf (.bigDecimal d) => .ok d
  | leaf (.string s) => decimalOfText s
  | w => w.unexpected "big decimal"

end Wire

namespace DecoderM

def scalar (k : Kind) : DecoderM k.Carrier :=
  takeWith (Wire.readScalar k)

def string : DecoderM String :=
  takeWith Wire.readString

def bigInteger : DecoderM Int :=
  takeWith Wire.readBigInteger

def bigDecimal : DecoderM Decimal :=
  takeWith Wire.readBigDecimal

end DecoderM

end TypedWire
