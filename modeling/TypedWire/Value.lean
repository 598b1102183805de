import TypedWire.Descriptor
import TypedWire.Members
import TypedWire.Scalar
import TypedWire.TextType

/-!
# Values

The values that codecs write and read. A value knows its natural type: the type it is written as where
nothing says more. A scalar is boxed there, for a value reached through a container is a reference.

Values are compared by content: floating-point numbers and decimals as numbers, so that a NaN differs from
itself, and objects without regard to the order of their members.
-/

namespace TypedWire

/-- A value of one of the types that codecs know. -/
inductive Value where
  | null
  | scalar (k : Kind) (x : k.Carrier)
  | string (s : String)
  | bigInteger (n : Int)
  | bigDecimal (d : Decimal)
  | textual (t : TextType) (x : t.Carrier)
  | optional (o : OptionalKind) (x : Option o.kind.Carrier)
  | primitiveArray (k : Kind) (xs : List k.Carrier)
  | array (items : List Value)
  | list (items : List Value)
  | object (members : List (String × Value))

namespace OptionalKind

def toClass : OptionalKind → Class
  | int => Class.optionalInt
  | long => Class.optionalLong
  | double => Class.optionalDouble

/-- The name of an optional type, as errors give it. -/
def name (o : OptionalKind) : String :=
  o.toClass.name

end OptionalKind

namespace Value

def isNull : Value → Bool
  | null => true
  | _ => false

def kindName : Value → String
  | null => "null"
  | scalar k _ => k.name
  | string _ => "string"
  | bigInteger _ => "big integer"
  | bigDecimal _ => "big decimal"
  | textual t _ => t.noun
  | optional o _ => "optional " ++ o.kind.name
  | primitiveArray k _ => k.name ++ "[]"
  | array _ => "array"
  | list _ => "list"
  | object _ => "object"

/-- The type of an array of unboxed scalars. -/
def primitiveArrayType (k : Kind) : Descriptor :=
  .arrayOf (.primitive k)

/-- The type that a value is written as where nothing says more. -/
def naturalType : Value → Descriptor
  | null => .object
  | scalar k _ => .boxed k
  | string _ => .string
  | bigInteger _ => .ofClass Class.bigInteger
  | bigDecimal _ => .ofClass Class.bigDecimal
  | textual t _ => .ofClass t.toClass
  | optional o _ => .ofClass o.toClass
  | primitiveArray k _ => primitiveArrayType k
  | array _ => .arrayOf .object
  | list _ => .ofClass Class.list
  | object _ => .object

def bool? : Value → Option Bool
  | scalar .boolean b => some b
  | _ => none

def int64? : Value → Option Int64
  | scalar k x => Scalar.toInt64? k x
  | _ => none

def binary64? : Value → Option Binary64
  | scalar k x => Scalar.toBinary64? k x
  | _ => none

def string? : Value → Option String
  | string s => some s
  | _ => none

/-- The items of an array of references or a list. -/
def items? : Value → Option (List Value)
  | array items => some items
  | list items => some items
  | _ => none

def member? (v : Value) (key : String) : Option Value :=
  match v with
  | object members => Members.find? key members
  | _ => none

mutual
/-- Equality by content. -/
def same : Value → Value → Bool
  | null, null => true
  | scalar k x, scalar k' y => if h : k = k' then Scalar.same k' (h ▸ x) y else false
  | string s, string t => s == t
  | bigInteger m, bigInteger n => m == n
  | bigDecimal d, bigDecimal e => d.equal e
  | textual t x, textual t' y => if h : t = t' then (h ▸ x) == y else false
  | optional o x, optional o' y =>
    if h : o = o' then
      match (h ▸ x : Option o'.kind.Carrier), y with
      | none, none => true
      | some x, some y => Scalar.same o'.kind x y
      | _, _ => false
    else false
  | primitiveArray k xs, primitiveArray k' ys =>
    if h : k = k' then Scalar.sameRow k' (h ▸ xs) ys else false
  | array xs, array ys => sameItems xs ys
  | list xs, list ys => sameItems xs ys
  | object ms, object ns => ms.length == ns.length && sameMembers ms ns
  | _, _ => false

/-- Equality of two rows of values, place by place. -/
def sameItems : List Value → List Value → Bool
  | [], [] => true
  | x :: xs, y :: ys => same x y && sameItems xs ys
  | _, _ => false

/-- Whether every member has an equal one of its key among the others. -/
def sameMembers : List (String × Value) → List (String × Value) → Bool
  | [], _ => true
  | (key, x) :: rest, others =>
    (match Members.find? key others with
      | some y => same x y
      | none => false) && sameMembers rest others
end

mutual
/-- No object in a value has a key twice. -/
def WellFormed : Value → Prop
  | array items => WellFormedItems items
  | list items => WellFormedItems items
  | object members => Members.Distinct members ∧ WellFormedMembers members
  | _ => True

def WellFormedItems : List Value → Prop
  | [] => True
  | v :: vs => WellFormed v ∧ WellFormedItems vs

def WellFormedMembers : List (String × Value) → Prop
  | [] => True
  | (_, v) :: ms => WellFormed v ∧ WellFormedMembers ms
end

mutual
/-- No decimal stands anywhere in a value. -/
def FreeOfDecimals : Value → Prop
  | bigDecimal _ => False
  | array items => ItemsFreeOfDecimals items
  | list items => ItemsFreeOfDecimals items
  | object members => MembersFreeOfDecimals members
  | _ => True

def ItemsFreeOfDecimals : List Value → Prop
  | [] => True
  | v :: vs => FreeOfDecimals v ∧ ItemsFreeOfDecimals vs

def MembersFreeOfDecimals : List (String × Value) → Prop
  | [] => True
  | (_, v) :: ms => FreeOfDecimals v ∧ MembersFreeOfDecimals ms
end

end Value

end TypedWire
