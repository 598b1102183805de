import TypedWire.Error
import TypedWire.Wire

/-!
# Encoders

An encoder builds one tree from events: a scope is opened, filled and closed, each value of an object
comes after its key, and one value is written at the root. An event out of order is refused and leaves the
encoder as it is, except for the closing of a scope: the scope is left first, so a refused closing loses
it.
-/

namespace TypedWire

/-- What is told to an encoder. -/
inductive WireEvent where
  | openArray
  | openObject
  | key (name : String)
  | leaf (l : Leaf)
  | close
  deriving DecidableEq

/-- An open scope: the items so far, the latest first, or the members so far with the key that waits for
    its value. -/
inductive WriteFrame where
  | array (latest : List Wire)
  | object (members : List (String × Wire)) (key : Option String)

/-- The scopes that are open, the innermost first, and the tree if it is complete. -/
structure Encoder where
  root : Option Wire
  stack : List WriteFrame

namespace Encoder

/-- An encoder to which nothing has been told. -/
def start : Encoder :=
  ⟨none, []⟩

/-- Why no value may be written here, if none may. -/
def blocked? (e : Encoder) : Option EncoderFault :=
  match e.stack with
  | .object _ none :: _ => some .memberWithoutKey
  | _ :: _ => none
  | [] => if e.root.isSome then some .rootWritten else none

def put (e : Encoder) (w : Wire) : Encoder :=
  match e.stack with
  | .array latest :: rest => { e with stack := .array (w :: latest) :: rest }
  | .object members (some key) :: rest =>
    { e with stack := .object (Members.insert key w members) none :: rest }
  | .object members none :: rest => { e with stack := .object members none :: rest }
  | [] => { e with root := some w }

/-- Writes a value, if one may be written here. -/
def push (e : Encoder) (w : Wire) : Except EncoderFault Unit × Encoder :=
  match e.blocked? with
  | some fault => (.error fault, e)
  | none => (.ok (), e.put w)

/-- Opens a scope, if a value may be written here. -/
def enter (e : Encoder) (frame : WriteFrame) : Except EncoderFault Unit × Encoder :=
  match e.blocked? with
  | some fault => (.error fault, e)
  | none => (.ok (), { e with stack := frame :: e.stack })

/-- Takes one event: whether it is allowed, and the encoder after it. -/
def step (e : Encoder) : WireEvent → Except EncoderFault Unit × Encoder
  | .openArray => e.enter (.array [])
  | .openObject => e.enter (.object [] none)
  | .key name =>
    match e.stack with
    | .object members none :: rest =>
      (.ok (), { e with stack := .object members (some name) :: rest })
    | .object _ (some _) :: _ => (.error .twoKeys, e)
    | _ => (.error .keyOutsideObject, e)
  | .leaf l => e.push (.leaf l)
  | .close =>
    match e.stack with
    | [] => (.error .nothingToFinish, e)
    | .array latest :: rest => push { e with stack := rest } (.array latest.reverse)
    | .object members none :: rest => push { e with stack := rest } (.object members)
    | .object _ (some key) :: rest => (.error (.danglingKey key), { e with stack := rest })

def finish (e : Encoder) : Except EncoderFault Wire :=
  match e.stack, e.root with
  | _ :: _, _ => .error .notFinished
  | [], some w => .ok w
  | [], none => .error .nothingWritten

end Encoder

/-- What drives an encoder: it may fail, and the encoder stays. -/
abbrev EncoderM := ExceptT CodecError (StateM Encoder)

def emit (event : WireEvent) : EncoderM Unit := fun e =>
  let (answer, e) := e.step event
  (answer.mapError .encoderContract, e)

namespace EncoderM

/-- Tells leaves to the encoder, one after the other. -/
def leaves (row : List Leaf) : EncoderM Unit :=
  row.forM fun l => emit (.leaf l)

def finish : EncoderM Wire := fun e =>
  (e.finish.mapError .encoderContract, e)

end EncoderM

end TypedWire
