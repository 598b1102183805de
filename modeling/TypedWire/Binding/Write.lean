import TypedWire.Session
import TypedWire.Wire.Encoder

/-!
# Writing values

How each serializer writes a value. The object serializer goes by the shape of the value: it writes the
parts of a container with the serializers of their natural types, leaves out the members that the policy
excludes, and hands what is no container, scalar or string to the serializer of its natural type. Every
other serializer of a single type takes the values of that type and null.
-/

namespace TypedWire

/-- What writes: a session with an encoder. -/
abbrev WriteM := SessionM Encoder

namespace WriteM

def put (event : WireEvent) : WriteM Unit :=
  SessionM.drive (emit event)

def leaf (l : Leaf) : WriteM Unit :=
  put (.leaf l)

/-- The value is none that the serializer writes. -/
def mismatch (expected : String) (v : Value) : WriteM Unit :=
  throw (.valueMismatch expected v.kindName)

/-- What a serializer writes, as errors give it. -/
def expectation : Serializer → String
  | .object => "a value with a registered codec"
  | .bigInteger => Class.bigInteger.name
  | .bigDecimal => Class.bigDecimal.name
  | .text t => t.name
  | .optional o => o.name
  | .primitiveArray k => k.name ++ "[]"
  | .elements => "elements"
  | .constant tag _ _ => tag

/-- Opens a scope, fills it and closes it. -/
def scope (opening : WireEvent) (parts : WriteM Unit) : WriteM Unit := do
  put opening
  parts
  put .close

def scalarRow (k : Kind) (xs : List k.Carrier) : WriteM Unit :=
  scope .openArray (SessionM.drive (EncoderM.leaves (xs.map (Leaf.ofScalar k))))

/-- Writes a value with the serializer of a single type. -/
def writeOwn (s : Serializer) (v : Value) : WriteM Unit :=
  match s, v with
  | .constant tag _ _, _ => leaf (.string tag)
  | .object, _ | .elements, _ => mismatch (expectation s) v
  | _, .null => leaf .null
  | .bigInteger, .bigInteger n => leaf (.bigInteger n)
  | .bigDecimal, .bigDecimal d => leaf (.bigDecimal d)
  | .text t, .textual t' x =>
    if t = t' then leaf (.string (t'.render x)) else mismatch (expectation s) v
  | .optional o, .optional o' x =>
    if o = o' then
      match x with
      | some x => leaf (.ofScalar o'.kind x)
      | none => leaf .null
    else mismatch (expectation s) v
  | .primitiveArray k, .primitiveArray k' xs =>
    if k = k' then scalarRow k' xs else mismatch (expectation s) v
  | _, _ => mismatch (expectation s) v

/-- Writes a value that is no container by its shape. -/
def writePlain (v : Value) : WriteM Unit :=
  match v with
  | .null => leaf .null
  | .scalar k x => leaf (.ofScalar k x)
  | .string s => leaf (.string s)
  | _ => do
    let found ← SessionM.ask (RegistryM.findSerializer v.naturalType)
    if found.origin.isFallback then mismatch (expectation .object) v
    else writeOwn found.codec v

mutual
/-- Writes a value with a serializer, as a value of a type. -/
def write (policy : Inclusion) (s : Serializer) (ty : Descriptor) : Value → WriteM Unit
  | v@(.array items) | v@(.list items) =>
    match s with
    | .object => scope .openArray (writeItems policy items)
    | .elements => do
      let found ← SessionM.ask (RegistryM.findSerializer ty.elementType)
      scope .openArray (writeEach policy found.codec ty.elementType items)
    | _ => writeOwn s v
  | v@(.object members) =>
    match s with
    | .object => scope .openObject (writeMembers policy members)
    | _ => writeOwn s v
  | v =>
    match s with
    | .object => writePlain v
    | _ => writeOwn s v

/-- Writes each item with the serializer of its natural type. -/
def writeItems (policy : Inclusion) : List Value → WriteM Unit
  | [] => pure ()
  | v :: vs => do
    let found ← SessionM.ask (RegistryM.findSerializer v.naturalType)
    write policy found.codec v.naturalType v
    writeItems policy vs

/-- Writes each item with one serializer, as a value of one type. -/
def writeEach (policy : Inclusion) (s : Serializer) (ty : Descriptor) : List Value → WriteM Unit
  | [] => pure ()
  | v :: vs => do
    write policy s ty v
    writeEach policy s ty vs

/-- Writes the members that the policy includes, each with the serializer of its natural type. -/
def writeMembers (policy : Inclusion) : List (String × Value) → WriteM Unit
  | [] => pure ()
  | (key, v) :: ms => do
    let found ← SessionM.ask (RegistryM.findSerializer v.naturalType)
    if policy.includes found.codec v then
      put (.key key)
      write policy found.codec v.naturalType v
    writeMembers policy ms
end

end WriteM

end TypedWire
