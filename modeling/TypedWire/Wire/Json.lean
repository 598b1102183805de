import TypedWire.Error
import TypedWire.Json.Printer
import TypedWire.Json.Reader
import TypedWire.Wire

/-!
# Wire trees as JSON

A big number that a JSON number cannot carry exactly becomes a string of its text, which the readers of
big numbers take back. A double that is not finite becomes null. On the way back an integer beyond 64
signed bits is a big integer.
-/

namespace TypedWire.Wire

/-- A decimal in JSON: its double if the shortest text of that is the decimal again, else a string. -/
def decimalToJson (d : Decimal) : Json :=
  let x := d.toBinary64
  match Decimal.parse x.plainText with
  | .ok e => if e.equal d then .float x else .string d.text
  | .error _ => .string d.text

def leafToJson : Leaf → Json
  | .null => .null
  | .boolean b => .boolean b
  | .integer n => .integer n.toInt
  | .float x => if x.isFinite then .float x else .null
  | .bigInteger n => if Json.isInteger n then .integer n else .string (integerText n)
  | .bigDecimal d => decimalToJson d
  | .string s => .string s

mutual
def toJson : Wire → Json
  | leaf l => leafToJson l
  | array items => .array (itemsToJson items)
  | object members => .object (Json.sortMembers (membersToJson members))

def itemsToJson : List Wire → List Json
  | [] => []
  | w :: ws => toJson w :: itemsToJson ws

/-- The members of an object in JSON, in their own order. -/
def membersToJson : List (String × Wire) → List (String × Json)
  | [] => []
  | (key, w) :: ms => (key, toJson w) :: membersToJson ms
end

/-- An integer from JSON: in 64 bits if it fits. -/
def integerOfJson (n : Int) : Leaf :=
  match int64? n with
  | some n => .integer n
  | none => .bigInteger n

mutual
def ofJson : Json → Wire
  | .null => null
  | .boolean b => leaf (.boolean b)
  | .integer n => leaf (integerOfJson n)
  | .float x => leaf (.float x)
  | .string s => leaf (.string s)
  | .array items => array (itemsOfJson items)
  | .object members => object (membersOfJson members)

/-- The trees of a row of JSON trees. -/
def itemsOfJson : List Json → List Wire
  | [] => []
  | j :: js => ofJson j :: itemsOfJson js

def membersOfJson : List (String × Json) → List (String × Wire)
  | [] => []
  | (key, j) :: ms => (key, ofJson j) :: membersOfJson ms
end

def jsonText (w : Wire) : String :=
  w.toJson.text

def ofJsonText (s : String) : Except CodecError Wire :=
  match Json.parse? s with
  | some j => .ok (ofJson j)
  | none => .error .json

end TypedWire.Wire
