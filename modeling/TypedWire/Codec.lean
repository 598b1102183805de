import TypedWire.Inclusion
import TypedWire.Value

/-!
# Codecs

A serializer writes values of one type and a deserializer reads them. Most serve one type each; the object
codecs take whatever comes. What a serializer writes and a deserializer reads is defined with the binding
of values to trees; here stands what can be asked of a codec without a tree.
-/

namespace TypedWire

/-- What writes values of a type. -/
inductive Serializer where
  /-- Writes any value by its shape, and the parts of containers by their natural types. -/
  | object
  | bigInteger
  | bigDecimal
  | text (t : TextType)
  | optional (o : OptionalKind)
  | primitiveArray (k : Kind)
  /-- Writes an array, each item as the first parameter of the type that is asked for. -/
  | elements
  /-- Writes one text whatever the value, and may say of every value whether it is empty or absent. -/
  | constant (tag : String) (empty absent : Option Bool)

/-- How values of a type are read where they are not null. -/
inductive ValueReader where
  | scalar (k : Kind)
  | string
  | bigInteger
  | bigDecimal
  | text (t : TextType)
  | optional (o : OptionalKind)
  | primitiveArray (k : Kind)
  /-- Reads any value by its token. -/
  | object
  /-- Reads an array of references, each item as the component of the type that is asked for. -/
  | objectArray
  /-- Reads an array into a list, each item as the first parameter of the type that is asked for. -/
  | elements
  /-- Skips the value and gives one text; may take a null and have a default. -/
  | constant (tag : String) (allowsNull : Bool) (default : Option Value)

/-- What reads values of a type. Where it is aware of nulls, a wire null is the null value, whatever the
    reader behind it would make of it. -/
structure Deserializer where
  reader : ValueReader
  nullAware : Bool

namespace Serializer

def isEmpty : Serializer → Value → Bool
  | object, .null => true
  | object, .string s => s.isEmpty
  | object, .array items => items.isEmpty
  | object, .list items => items.isEmpty
  | object, .object members => members.isEmpty
  | object, _ => false
  | optional o, .optional o' x => o = o' && x.isNone
  | primitiveArray k, .primitiveArray k' xs => k = k' && xs.isEmpty
  | constant _ empty _, v => empty.getD v.isNull
  | _, v => v.isNull

def isAbsent : Serializer → Value → Bool
  | optional o, .optional o' x => o = o' && x.isNone
  | constant _ _ absent, v => absent.getD v.isNull
  | _, v => v.isNull

end Serializer

/-- Whether a policy lets a member be written that has this serializer. -/
def Inclusion.includes : Inclusion → Serializer → Value → Bool
  | always, _, _ => true
  | nonNull, _, v => !v.isNull
  | nonAbsent, s, v => !s.isAbsent v
  | nonEmpty, s, v => !s.isEmpty v

namespace Deserializer

/-- A reader without a null of its own. -/
def plain (r : ValueReader) : Deserializer :=
  ⟨r, false⟩

def nullable (d : Deserializer) : Deserializer :=
  { d with nullAware := true }

def allowsNull (d : Deserializer) : Bool :=
  d.nullAware ||
    match d.reader with
    | .scalar _ | .string | .elements => false
    | .constant _ allows _ => allows
    | _ => true

/-- The value of a member that is missing on the wire. -/
def default? (d : Deserializer) : Option Value :=
  match d.reader with
  | .optional o => some (.optional o none)
  | .constant _ _ default => default
  | _ => none

end Deserializer

/-- The type of the elements that an element codec writes and reads: the first parameter, or `Object`. -/
def Descriptor.elementType (ty : Descriptor) : Descriptor :=
  ty.params.headD .object

end TypedWire
