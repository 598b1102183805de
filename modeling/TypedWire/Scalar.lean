import TypedWire.Kind
import TypedWire.Number.Binary
import TypedWire.Number.Decimal

/-!
# Scalars

What a primitive of each kind holds: words of the kind's width, binary floating-point numbers and
characters.
-/

namespace TypedWire

@[reducible] def Kind.Carrier : Kind → Type
  | .boolean => Bool
  | .byte => Int8
  | .short => Int16
  | .int => Int32
  | .long => Int64
  | .float => Binary32
  | .double => Binary64
  | .char => Char

namespace Scalar

/-- The zero of a kind, which fills the place of a null in a primitive array. -/
def zero : (k : Kind) → k.Carrier
  | .boolean => false
  | .byte => 0
  | .short => 0
  | .int => 0
  | .long => 0
  | .float => Binary.zero false
  | .double => Binary.zero false
  | .char => '\x00'

/-- Equality of two scalars of a kind; floating-point numbers are compared as numbers. -/
def same : (k : Kind) → k.Carrier → k.Carrier → Bool
  | .boolean, x, y => x == y
  | .byte, x, y => x == y
  | .short, x, y => x == y
  | .int, x, y => x == y
  | .long, x, y => x == y
  | .float, x, y => x.equal y
  | .double, x, y => x.equal y
  | .char, x, y => x == y

/-- Equality of two rows of scalars, place by place. -/
def sameRow (k : Kind) (xs ys : List k.Carrier) : Bool :=
  xs.length == ys.length && (xs.zip ys).all fun (x, y) => same k x y

def toInt64? : (k : Kind) → k.Carrier → Option Int64
  | .byte, x => some x.toInt64
  | .short, x => some x.toInt64
  | .int, x => some x.toInt64
  | .long, x => some x
  | _, _ => none

def toBinary64? : (k : Kind) → k.Carrier → Option Binary64
  | .float, x => some x.convert
  | .double, x => some x
  | _, _ => none

end Scalar

/-- The kinds that have an optional form. -/
inductive OptionalKind where
  | int
  | long
  | double
  deriving DecidableEq, Repr

namespace OptionalKind

def kind : OptionalKind → Kind
  | int => .int
  | long => .long
  | double => .double

end OptionalKind

end TypedWire
