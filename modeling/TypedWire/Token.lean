/-!
# Tokens

The kind of the next wire value, as a reader sees it before taking the value.
-/

namespace TypedWire

/-- The kind of a wire value. Integers of any size are one kind, and so are numbers with a fraction or
    an exponent. -/
inductive Token where
  | null
  | boolean
  | integer
  | decimal
  | string
  | array
  | object
  deriving DecidableEq, Repr

def Token.text : Token → String
  | .null => "null"
  | .boolean => "boolean"
  | .integer => "integer"
  | .decimal => "decimal"
  | .string => "string"
  | .array => "array"
  | .object => "object"

instance : ToString Token := ⟨Token.text⟩

end TypedWire
