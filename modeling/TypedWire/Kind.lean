/-!
# Scalar kinds

The eight kinds of primitive scalar. Each one exists unboxed, as `int`, and boxed, as `Integer`; the
names of both forms are fixed here.
-/

namespace TypedWire

/-- A kind of primitive scalar. -/
inductive Kind where
  | boolean
  | byte
  | short
  | int
  | long
  | float
  | double
  | char
  deriving DecidableEq, Repr

namespace Kind

def all : List Kind :=
  [boolean, byte, short, int, long, float, double, char]

theorem mem_all (k : Kind) : k ∈ all := by
  cases k <;> decide

def name : Kind → String
  | boolean => "boolean"
  | byte => "byte"
  | short => "short"
  | int => "int"
  | long => "long"
  | float => "float"
  | double => "double"
  | char => "char"

def boxedName : Kind → String
  | boolean => "Boolean"
  | byte => "Byte"
  | short => "Short"
  | int => "Integer"
  | long => "Long"
  | float => "Float"
  | double => "Double"
  | char => "Character"

/-- A numeric kind has a boxed form below `Number`. -/
def isNumeric : Kind → Bool
  | boolean | char => false
  | _ => true

end Kind

end TypedWire
