import TypedWire.Codec
import TypedWire.Error

/-!
# Components

The codecs that a program registers. Each has a name and the type it is declared for; a codec without a
type can be registered but not indexed. A registered codec is created when it is chosen for the first
time, and shared from then on. A program may also bring components of its own making, which say themselves
how a candidate is created and which deserializer serves a type.
-/

namespace TypedWire

/-- A codec by its name and its declared type. -/
structure Candidate where
  name : String
  declared : Option Descriptor

/-- How a candidate is shown: its name with its type. -/
def Candidate.text (c : Candidate) : String :=
  c.name ++ "<" ++ (c.declared.map Descriptor.text).getD "?" ++ ">"

/-- Who has made an instance of a codec. -/
inductive Maker where
  | registry
  | components
  deriving DecidableEq, Repr

/-- What tells instances of codecs apart. -/
structure Identity where
  maker : Maker
  number : Nat
  deriving DecidableEq, Repr

/-- A codec that has been created. -/
structure Instance (C : Type) where
  id : Identity
  codec : C

/-- Where a codec that serves a type comes from. -/
inductive Origin where
  | builtIn
  | registered (name : String)
  | objectFallback
  | objectArrayFallback
  deriving DecidableEq, Repr

namespace Origin

/-- Whether no codec of the type's own was found. -/
def isFallback : Origin → Bool
  | objectFallback => true
  | objectArrayFallback => true
  | _ => false

def candidateName? : Origin → Option String
  | registered name => some name
  | _ => none

def text : Origin → String
  | builtIn => "built-in"
  | registered name => "registered(" ++ name ++ ")"
  | objectFallback => "object fallback"
  | objectArrayFallback => "object-array fallback"

end Origin

/-- A codec that serves a type, with its origin. -/
structure Resolved (C : Type) where
  origin : Origin
  inst : Instance C

namespace Resolved
variable {C : Type}

def codec (r : Resolved C) : C :=
  r.inst.codec

/-- Whether two of them are one instance. -/
def sameCodec {D : Type} (a : Resolved C) (b : Resolved D) : Bool :=
  a.inst.id = b.inst.id

end Resolved

/-- A registered codec: how it is made, how often it has been made, and the instance that is shared. -/
structure Registration (C : Type) where
  candidate : Candidate
  make : C
  runs : Nat
  inst : Option (Instance C)

namespace Registration
variable {C : Type}

/-- A codec that has not been made yet. -/
def pending (name : String) (declared : Option Descriptor) (make : C) : Registration C :=
  ⟨⟨name, declared⟩, make, 0, none⟩

/-- The shared instance and the registration that holds it, made with a fresh number if it was not there. -/
def use (fresh : Nat) (r : Registration C) : Instance C × Registration C :=
  match r.inst with
  | some i => (i, r)
  | none =>
    let i : Instance C := ⟨⟨.components, fresh⟩, r.make⟩
    (i, { r with runs := r.runs + 1, inst := some i })

/-- The first name that stands twice in a list of registrations, found where it stands again. -/
def repeated? (seen : List String) : List (Registration C) → Option String
  | [] => none
  | r :: rest =>
    if r.candidate.name ∈ seen then some r.candidate.name
    else repeated? (r.candidate.name :: seen) rest

/-- Uses the first registration that satisfies `p`. -/
def useFirst (fresh : Nat) (p : Registration C → Bool) :
    List (Registration C) → Option (Instance C × Candidate × List (Registration C))
  | [] => none
  | r :: rest =>
    if p r then
      let (i, r) := r.use fresh
      some (i, r.candidate, r :: rest)
    else (useFirst fresh p rest).map fun (i, c, rest) => (i, c, r :: rest)

end Registration

/-- Components that are registered one by one. -/
structure StaticComponents where
  serializers : List (Registration Serializer)
  deserializers : List (Registration Deserializer)
  /-- The number of the next instance. -/
  fresh : Nat

namespace StaticComponents

def empty : StaticComponents :=
  ⟨[], [], 0⟩

/-- Components under names of their own. A serializer that is registered twice is found before a
    deserializer that is. -/
def build (serializers : List (Registration Serializer))
    (deserializers : List (Registration Deserializer)) : Except CodecError StaticComponents :=
  match Registration.repeated? [] serializers, Registration.repeated? [] deserializers with
  | some name, _ => .error (.configuration (.registeredTwice .serializer name))
  | none, some name => .error (.configuration (.registeredTwice .deserializer name))
  | none, none => .ok ⟨serializers, deserializers, 0⟩

def size (s : StaticComponents) : Nat :=
  s.serializers.length + s.deserializers.length

/-- The shared instance of the serializer of a name. -/
def instantiate (s : StaticComponents) (c : Candidate) :
    Except CodecError (Instance Serializer) × StaticComponents :=
  match Registration.useFirst s.fresh (·.candidate.name = c.name) s.serializers with
  | some (i, _, rest) => (.ok i, { s with serializers := rest, fresh := s.fresh + 1 })
  | none => (.error (.instantiation c.name "not registered with this component registry"), s)

/-- Whether a deserializer is declared for exactly this type. -/
def declares (ty : Descriptor) (r : Registration Deserializer) : Bool :=
  r.candidate.declared.any (· == ty)

/-- Whether a deserializer is declared with parameters for the raw type and accepts those of the type. -/
def acceptsParams (ty : Descriptor) (r : Registration Deserializer) : Bool :=
  r.candidate.declared.any fun d => d.raw == ty.raw && d.hasParams && d.paramsAccept ty

/-- The deserializer for a type: the first that is declared for it, else the only one whose parameters
    accept it. -/
def findDeserializer (s : StaticComponents) (ty : Descriptor) :
    Option (Resolved Deserializer) × StaticComponents :=
  let chosen :=
    if s.deserializers.any (declares ty) then
      Registration.useFirst s.fresh (declares ty) s.deserializers
    else if s.deserializers.countP (acceptsParams ty) = 1 then
      Registration.useFirst s.fresh (acceptsParams ty) s.deserializers
    else none
  match chosen with
  | some (i, c, rest) =>
    (some ⟨.registered c.name, i⟩, { s with deserializers := rest, fresh := s.fresh + 1 })
  | none => (none, s)

end StaticComponents

/-- Components of a program's own making. An instance that cannot be created has a reason. -/
structure CustomComponents where
  serializers : List Candidate
  deserializers : List Candidate
  instantiate : Candidate → Except String (Instance Serializer)
  findDeserializer : Descriptor → Option (Resolved Deserializer)

namespace CustomComponents

/-- Components that list their candidates as they are, names repeated or not, and look a serializer up by
    its name; one that is broken gives its reason. They offer no deserializer. -/
def listing (serializers : List (Candidate × Except String Serializer))
    (deserializers : List Candidate) : CustomComponents where
  serializers := serializers.map Prod.fst
  deserializers := deserializers
  instantiate c :=
    match serializers.findIdx? (·.1.name = c.name) with
    | none => .error "unknown"
    | some i =>
      match serializers[i]? with
      | none => .error "unknown"
      | some (_, made) => made.map fun codec => ⟨⟨.components, i⟩, codec⟩
  findDeserializer _ := none

end CustomComponents

/-- The components of a registry. -/
inductive Components where
  | static (components : StaticComponents)
  | custom (components : CustomComponents)

namespace Components

def serializers : Components → List Candidate
  | static s => s.serializers.map (·.candidate)
  | custom c => c.serializers

def deserializers : Components → List Candidate
  | static s => s.deserializers.map (·.candidate)
  | custom c => c.deserializers

def instantiate (components : Components) (c : Candidate) :
    Except CodecError (Instance Serializer) × Components :=
  match components with
  | static s =>
    let (answer, s) := s.instantiate c
    (answer, static s)
  | custom o => ((o.instantiate c).mapError (.instantiation c.name ·), components)

/-- A deserializer registered for exactly this type. -/
def findDeserializer (components : Components) (ty : Descriptor) :
    Option (Resolved Deserializer) × Components :=
  match components with
  | static s =>
    let (answer, s) := s.findDeserializer ty
    (answer, static s)
  | custom o => (o.findDeserializer ty, components)

end Components

end TypedWire
