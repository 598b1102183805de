import TypedWire.Error
import TypedWire.Wire

/-!
# Decoders

A decoder walks a tree. It stands before a value, at the root, in an array or behind a key of an object;
it takes the value, skips it or enters it. A step that fails leaves the decoder as it is, except for the
closing of a scope: the scope is left first, so a closing that finds unread parts loses them.
-/

namespace TypedWire

/-- An open scope: the items still to read, or the members still to read with the value whose key has been
    read. -/
inductive ReadFrame where
  | array (rest : List Wire)
  | object (rest : List (String × Wire)) (pending : Option Wire)

/-- The tree if it has not been read, and the open scopes, the innermost first. -/
structure Decoder where
  root : Option Wire
  stack : List ReadFrame

namespace Decoder

/-- A decoder before the root of a tree. -/
def ofWire (w : Wire) : Decoder :=
  ⟨some w, []⟩

/-- The value that the decoder stands before. -/
def current (d : Decoder) : Except CodecError Wire :=
  match d.stack with
  | [] =>
    match d.root with
    | some w => .ok w
    | none => .error .unexpectedEnd
  | .array (w :: _) :: _ => .ok w
  | .array [] :: _ => .error .unexpectedEnd
  | .object _ (some w) :: _ => .ok w
  | .object _ none :: _ => .error (.decoderContract .valueBeforeKey)

/-- The decoder behind the value that it stands before. -/
def drop (d : Decoder) : Decoder :=
  match d.stack with
  | [] => { d with root := none }
  | .array rest :: frames => { d with stack := .array rest.tail :: frames }
  | .object rest _ :: frames => { d with stack := .object rest none :: frames }

/-- The decoder inside a scope that it has taken. -/
def enter (d : Decoder) (frame : ReadFrame) : Decoder :=
  { d with stack := frame :: d.stack }

/-- How many parts of the innermost scope are left: items, or members whose key has not been read. -/
def remaining (d : Decoder) : Nat :=
  match d.stack with
  | .array rest :: _ => rest.length
  | .object rest _ :: _ => rest.length
  | [] => 0

def finish (d : Decoder) : Except DecoderFault Unit :=
  match d.stack, d.root with
  | _ :: _, _ => .error .notFinished
  | [], some _ => .error .rootNotRead
  | [], none => .ok ()

end Decoder

/-- What drives a decoder: it may fail, and the decoder stays. -/
abbrev DecoderM := ExceptT CodecError (StateM Decoder)

namespace DecoderM

/-- The value that the decoder stands before; nothing is taken. -/
def peek : DecoderM Wire := fun d =>
  (d.current, d)

def peekToken : DecoderM Token :=
  Wire.token <$> peek

/-- Takes the next value if `read` makes something of it. -/
def takeWith {α : Type} (read : Wire → Except CodecError α) : DecoderM α := fun d =>
  match d.current.bind read with
  | .ok x => (.ok x, d.drop)
  | .error e => (.error e, d)

def skip : DecoderM Unit :=
  takeWith fun _ => .ok ()

def isNull : DecoderM Bool :=
  (· == .null) <$> peekToken

/-- Takes a null, if one is next, and says whether it did. -/
def takeNull : DecoderM Bool := do
  if ← isNull then
    skip
    return true
  return false

def openArray : DecoderM Unit := fun d =>
  match d.current with
  | .ok (.array items) => (.ok (), d.drop.enter (.array items))
  | .ok w => (.error (.unexpectedToken "array" w.token), d)
  | .error e => (.error e, d)

def openObject : DecoderM Unit := fun d =>
  match d.current with
  | .ok (.object members) => (.ok (), d.drop.enter (.object members none))
  | .ok w => (.error (.unexpectedToken "object" w.token), d)
  | .error e => (.error e, d)

/-- Whether the innermost array has another item. -/
def hasNext : DecoderM Bool := fun d =>
  match d.stack with
  | .array rest :: _ => (.ok !rest.isEmpty, d)
  | _ => (.error (.decoderContract .notInArray), d)

/-- The next key of the innermost object, if one is left. -/
def nextKey : DecoderM (Option String) := fun d =>
  match d.stack with
  | .object _ (some _) :: _ => (.error (.decoderContract .memberNotRead), d)
  | .object ((key, w) :: rest) none :: frames =>
    (.ok (some key), { d with stack := .object rest (some w) :: frames })
  | .object [] none :: _ => (.ok none, d)
  | _ => (.error (.decoderContract .notInObject), d)

/-- Succeeds if the whole tree has been read. -/
def finish : DecoderM Unit := fun d =>
  (d.finish.mapError .decoderContract, d)

/-- Leaves the innermost scope, which has to be read to its end. -/
def close : DecoderM Unit := fun d =>
  match d.stack with
  | [] => (.error (.decoderContract .nothingToFinish), d)
  | .array rest :: frames =>
    (if rest.isEmpty then .ok () else .error (.decoderContract .unreadElements),
      { d with stack := frames })
  | .object rest pending :: frames =>
    (if pending.isNone && rest.isEmpty then .ok () else .error (.decoderContract .unreadMembers),
      { d with stack := frames })

end DecoderM

end TypedWire
