import TypedWire.Buffer
import TypedWire.Session
import TypedWire.Wire.Reading

/-!
# Reading values

How each deserializer reads a value. The object reader goes by the next token; the readers of containers
read the parts with the deserializers of their types; every other reader takes one value, and most of them
make the null value of a wire null. A primitive array has no nulls: a null on the wire is the zero of its
kind there.

Scopes are entered to the depth of the tree that is read and no further, so a bound on the depth bounds
the recursion, and the parts that are left of a scope bound each loop.
-/

namespace TypedWire

namespace DecoderM

/-- How many parts of the innermost scope are left. -/
def remaining : DecoderM Nat := fun d =>
  (.ok d.remaining, d)

/-- Takes a scalar of a kind; a null is the zero. -/
def scalarOrZero (k : Kind) : DecoderM k.Carrier := do
  if ← takeNull then return Scalar.zero k
  scalar k

/-- Takes a scalar of a kind, or a null for none. -/
def optionalScalar (k : Kind) : DecoderM (Option k.Carrier) := do
  if ← takeNull then return none
  some <$> scalar k

/-- Adds the scalars that are left of the innermost array to a buffer. -/
def fillRow (k : Kind) : Nat → Buffer k.Carrier → DecoderM (Buffer k.Carrier)
  | 0, _ => throw .unexpectedEnd
  | n + 1, row => do
    if ← hasNext then
      let x ← scalarOrZero k
      fillRow k n (row.push (Scalar.zero k) x)
    else return row

def scalarRow (k : Kind) : DecoderM (List k.Carrier) := do
  openArray
  let n ← remaining
  let row ← fillRow k (n + 1) (.ofCapacity k.rowCapacity k.rowCapacity_pos (Scalar.zero k))
  close
  return row.toList

/-- Takes a text and makes a value of a type of it. -/
def textual (t : TextType) : DecoderM t.Carrier := do
  let s ← string
  match t.parse s with
  | .ok x => return x
  | .error reason => throw (.parse t.name s reason)

end DecoderM

/-- What reads: a session with a decoder. -/
abbrev ReadM := SessionM Decoder

namespace ReadM

/-- Takes a null as the null value, and what is not null with `read`. -/
def unlessNull (read : ReadM Value) : ReadM Value := do
  if ← SessionM.drive DecoderM.takeNull then return .null
  read

/-- Reads the items that are left of the innermost array. -/
def readItems (item : ReadM Value) : Nat → ReadM (List Value)
  | 0 => throw .unexpectedEnd
  | n + 1 => do
    if ← SessionM.drive DecoderM.hasNext then
      let v ← item
      return v :: (← readItems item n)
    else return []

/-- Reads the members that are left of the innermost object, after those read so far. A repeated key keeps
    its place and takes the later value. -/
def readMembers (member : ReadM Value) : Nat → List (String × Value) → ReadM (List (String × Value))
  | 0, _ => throw .unexpectedEnd
  | n + 1, members => do
    match ← SessionM.drive DecoderM.nextKey with
    | some key =>
      let v ← member
      readMembers member n (Members.insert key v members)
    | none => return members

/-- Enters an array, reads its items and leaves it. -/
def arrayOf (item : ReadM Value) : ReadM (List Value) := do
  SessionM.drive DecoderM.openArray
  let n ← SessionM.drive DecoderM.remaining
  let items ← readItems item (n + 1)
  SessionM.drive DecoderM.close
  return items

/-- Enters an object, reads its members and leaves it. -/
def objectOf (member : ReadM Value) : ReadM (List (String × Value)) := do
  SessionM.drive DecoderM.openObject
  let n ← SessionM.drive DecoderM.remaining
  let members ← readMembers member (n + 1) []
  SessionM.drive DecoderM.close
  return members

/-- An integer of whatever size, in 64 bits if it fits. -/
def readInteger : ReadM Value := fun s =>
  match SessionM.drive (DecoderM.scalar .long) s with
  | (.ok n, s) => (.ok (.scalar .long n), s)
  | (.error (.outOfRange _ _), s) => (Value.bigInteger <$> SessionM.drive DecoderM.bigInteger) s
  | (.error e, s) => (.error e, s)

/-- A value of whatever shape, by its token; `part` reads what a scope holds. -/
def readAny (part : Deserializer → Descriptor → ReadM Value) : ReadM Value := do
  match ← SessionM.drive DecoderM.peekToken with
  | .null => do
    SessionM.drive DecoderM.skip
    return .null
  | .boolean => Value.scalar .boolean <$> SessionM.drive (DecoderM.scalar .boolean)
  | .integer => readInteger
  | .decimal => Value.scalar .double <$> SessionM.drive (DecoderM.scalar .double)
  | .string => Value.string <$> SessionM.drive DecoderM.string
  | .array => do
    let found ← SessionM.ask (RegistryM.findDeserializer .object)
    Value.list <$> arrayOf (part found.codec .object)
  | .object => do
    let found ← SessionM.ask (RegistryM.findDeserializer .object)
    Value.object <$> objectOf (part found.codec .object)

/-- Reads a value of a type with a reader; `part` reads what a scope holds. -/
def readBy (part : Deserializer → Descriptor → ReadM Value) (r : ValueReader) (ty : Descriptor) :
    ReadM Value :=
  match r with
  | .scalar k => Value.scalar k <$> SessionM.drive (DecoderM.scalar k)
  | .string => Value.string <$> SessionM.drive DecoderM.string
  | .bigInteger => unlessNull (Value.bigInteger <$> SessionM.drive DecoderM.bigInteger)
  | .bigDecimal => unlessNull (Value.bigDecimal <$> SessionM.drive DecoderM.bigDecimal)
  | .text t => unlessNull (Value.textual t <$> SessionM.drive (DecoderM.textual t))
  | .optional o => Value.optional o <$> SessionM.drive (DecoderM.optionalScalar o.kind)
  | .primitiveArray k => unlessNull (Value.primitiveArray k <$> SessionM.drive (DecoderM.scalarRow k))
  | .object => readAny part
  | .objectArray => unlessNull do
    let component := ty.component?.getD .object
    let found ← SessionM.ask (RegistryM.findDeserializer component)
    Value.array <$> arrayOf (part found.codec component)
  | .elements => do
    let found ← SessionM.ask (RegistryM.findDeserializer ty.elementType)
    Value.list <$> arrayOf (part found.codec ty.elementType)
  | .constant tag _ _ => do
    SessionM.drive DecoderM.skip
    return .string tag

/-- Reads a value of a type with a deserializer; `part` reads what a scope holds. -/
def readWith (part : Deserializer → Descriptor → ReadM Value) (d : Deserializer) (ty : Descriptor) :
    ReadM Value :=
  if d.nullAware then unlessNull (readBy part d.reader ty) else readBy part d.reader ty

/-- Reads a value of a type through so many nested scopes at most. -/
def readWithin : Nat → Deserializer → Descriptor → ReadM Value
  | 0 => readWith fun _ _ => throw .unexpectedEnd
  | depth + 1 => readWith (readWithin depth)

/-- Reads a value of a type, through as many scopes as it has. -/
def read (d : Deserializer) (ty : Descriptor) : ReadM Value := do
  let w ← SessionM.drive DecoderM.peek
  readWithin w.depth d ty

end ReadM

end TypedWire
