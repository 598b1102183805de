import TypedWire.Scalar
import TypedWire.Token

/-!
# Leaves of wire trees

What a wire tree holds at its ends. An integer travels in 64 bits or as a big integer, a number with a
fraction as a double or as a decimal; either way it shows the same token. Scalars of the smaller kinds are
widened when they are written, and a character becomes a string.
-/

namespace TypedWire

/-- A wire value that holds no other. -/
inductive Leaf where
  | null
  | boolean (b : Bool)
  | integer (n : Int64)
  | float (x : Binary64)
  | bigInteger (n : Int)
  | bigDecimal (d : Decimal)
  | string (s : String)
  deriving DecidableEq

namespace Leaf

def token : Leaf → Token
  | null => .null
  | boolean _ => .boolean
  | integer _ => .integer
  | float _ => .decimal
  | bigInteger _ => .integer
  | bigDecimal _ => .decimal
  | string _ => .string

/-- Equality by content: doubles and decimals as numbers. -/
def same : Leaf → Leaf → Bool
  | null, null => true
  | boolean a, boolean b => a == b
  | integer m, integer n => m == n
  | float x, float y => x.equal y
  | bigInteger m, bigInteger n => m == n
  | bigDecimal d, bigDecimal e => d.equal e
  | string s, string t => s == t
  | _, _ => false

/-- The leaf that a scalar is written as. -/
def ofScalar : (k : Kind) → k.Carrier → Leaf
  | .boolean, b => boolean b
  | .byte, n => integer n.toInt64
  | .short, n => integer n.toInt64
  | .int, n => integer n.toInt64
  | .long, n => integer n
  | .float, x => float x.convert
  | .double, x => float x
  | .char, c => string c.toString

end Leaf

end TypedWire
