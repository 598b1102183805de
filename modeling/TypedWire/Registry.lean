import TypedWire.Index

/-!
# Registries

A registry finds the codec that serves a type. It knows the built-in codecs, the candidates of its
components by their raw types, and codecs for what nothing else serves; and it remembers what it has
found. A type stands for its key: variables do not count.

A serializer is sought in the bucket of the raw type or in one that accepts it. If the type has
parameters, only candidates stay whose parameters accept them, and exactly one has to stay. A type without
any bucket is written by the object serializer. A deserializer is sought among those declared for the type
itself, and a type without one is read by the object-array or the object deserializer, so this never
fails.
-/

namespace TypedWire

/-- Answers that a registry remembers, by key. -/
abbrev Cache (C : Type) := List (Descriptor × Resolved C)

namespace Cache
variable {C : Type}

def find? (ty : Descriptor) (cache : Cache C) : Option (Resolved C) :=
  cache.lookup ty

/-- Remembers the answer for a key that is not there yet. -/
def add (ty : Descriptor) (answer : Resolved C) (cache : Cache C) : Cache C :=
  cache ++ [(ty, answer)]

end Cache

/-- The codecs for what nothing else serves. -/
structure Fallbacks where
  serializer : Serializer
  deserializer : Deserializer
  arrayDeserializer : Deserializer

def Fallbacks.standard : Fallbacks :=
  ⟨.object, .plain .object, .plain .objectArray⟩

/-- The types that have a built-in deserializer and no serializer, for scalars are written by the object
    serializer. An unboxed scalar takes no null. -/
def readOnlyBuiltIns : List (Descriptor × Deserializer) :=
  Kind.all.flatMap (fun k =>
    [(.primitive k, .plain (.scalar k)), (.boxed k, (Deserializer.plain (.scalar k)).nullable)]) ++
  [(.string, (Deserializer.plain .string).nullable)]

/-- The types that have a built-in codec for both ways. -/
def sharedBuiltIns : List (Descriptor × Serializer × Deserializer) :=
  [(.ofClass Class.optionalInt, .optional .int, .plain (.optional .int)),
    (.ofClass Class.optionalDouble, .optional .double, .plain (.optional .double)),
    (.ofClass Class.optionalLong, .optional .long, .plain (.optional .long)),
    (.ofClass Class.bigDecimal, .bigDecimal, .plain .bigDecimal),
    (.ofClass Class.bigInteger, .bigInteger, .plain .bigInteger)] ++
  [TextType.uuid, .url, .uri, .charset, .timeZone, .locale].map (fun t =>
    (.ofClass t.toClass, .text t, .plain (.text t))) ++
  [Kind.int, .long, .float, .short, .double, .boolean, .byte, .char].map (fun k =>
    (Value.primitiveArrayType k, .primitiveArray k, .plain (.primitiveArray k)))

/-- A registry: its settings, its components with their index, the classes it knows, and what it
    remembers. -/
structure Registry where
  config : Config
  components : Components
  known : List Class
  index : Index
  serializers : Cache Serializer
  deserializers : Cache Deserializer
  objectSerializer : Resolved Serializer
  objectDeserializer : Resolved Deserializer
  arrayDeserializer : Resolved Deserializer

namespace Registry

def own {C : Type} (origin : Origin) (number : Nat) (codec : C) : Resolved C :=
  ⟨origin, ⟨⟨.registry, number⟩, codec⟩⟩

/-- A registry that remembers the built-in codecs. A codec for both ways is one instance. -/
def assemble (config : Config) (components : Components) (known : List Class) (index : Index)
    (fallbacks : Fallbacks) : Registry :=
  let shared := sharedBuiltIns.length
  let all := shared + readOnlyBuiltIns.length
  { config, components, known, index
    serializers := sharedBuiltIns.mapIdx fun i b => (b.1, own .builtIn i b.2.1)
    deserializers :=
      readOnlyBuiltIns.mapIdx (fun i b => (b.1, own .builtIn (shared + i) b.2)) ++
        sharedBuiltIns.mapIdx fun i b => (b.1, own .builtIn i b.2.2)
    objectSerializer := own .objectFallback all fallbacks.serializer
    objectDeserializer := own .objectFallback (all + 1) fallbacks.deserializer
    arrayDeserializer := own .objectArrayFallback (all + 2) fallbacks.arrayDeserializer }

/-- A registry with the built-in codecs and nothing registered. -/
def builtInOnly : Registry :=
  assemble .standard (.static .empty) [] .empty .standard

/-- Builds a registry: the settings have to be valid, and every candidate has to declare a type. -/
def build (config : Config) (components : Components) (known : List Class) (fallbacks : Fallbacks) :
    Except CodecError Registry := do
  if !config.isValid then throw (.configuration .zeroCapacity)
  let index ← Index.build components.serializers components.deserializers
  return assemble config components known index fallbacks

/-- The candidates of a bucket that may write a type: with parameters, those that accept them. -/
def survivors (ty : Descriptor) (bucket : List Candidate) : List Candidate :=
  if ty.hasParams then bucket.filter fun c => c.declared.any (·.paramsAccept ty) else bucket

/-- The candidate that writes a type, or none where no bucket serves it. -/
def chooseSerializer (r : Registry) (ty : Descriptor) : Except CodecError (Option Candidate) :=
  match r.index.findSerializerBucket ty.raw r.config.selection with
  | none => .ok none
  | some (_, bucket) =>
    match survivors ty bucket with
    | [only] => .ok (some only)
    | [] => .error (.noSerializer ty)
    | several => .error (.ambiguousSerializer ty (several.map (·.name)))

/-- The registry with the serializer of a type remembered. -/
def rememberSerializer (r : Registry) (ty : Descriptor) (found : Resolved Serializer) : Registry :=
  { r with serializers := r.serializers.add ty found }

/-- The registry with the deserializer of a type remembered. -/
def rememberDeserializer (r : Registry) (ty : Descriptor) (found : Resolved Deserializer) : Registry :=
  { r with deserializers := r.deserializers.add ty found }

/-- The candidates of serializers that are indexed under a raw type. -/
def serializerCandidates (r : Registry) (raw : RawType) : List Candidate :=
  (Buckets.find? raw r.index.serializers).getD []

/-- The candidates of deserializers that are indexed under a raw type. -/
def deserializerCandidates (r : Registry) (raw : RawType) : List Candidate :=
  (Buckets.find? raw r.index.deserializers).getD []

/-- The known classes strictly below a class. -/
def deserializableSubtypes (r : Registry) (c : Class) : List Class :=
  r.known.filter fun k => k ≠ c && k.isSubclassOf c

end Registry

/-- What asks a registry: it may fail, and the registry stays. -/
abbrev RegistryM := ExceptT CodecError (StateM Registry)

namespace RegistryM

/-- The serializer of a type. A failure is not remembered. -/
def findSerializer (ty : Descriptor) : RegistryM (Resolved Serializer) := fun r =>
  match Cache.find? ty r.serializers with
  | some found => (.ok found, r)
  | none =>
    match r.chooseSerializer ty with
    | .error e => (.error e, r)
    | .ok none => (.ok r.objectSerializer, r.rememberSerializer ty r.objectSerializer)
    | .ok (some c) =>
      match r.components.instantiate c with
      | (.error e, components) => (.error e, { r with components })
      | (.ok inst, components) =>
        let found : Resolved Serializer := ⟨.registered c.name, inst⟩
        (.ok found, { r with components }.rememberSerializer ty found)

def findDeserializer (ty : Descriptor) : RegistryM (Resolved Deserializer) := fun r =>
  match Cache.find? ty r.deserializers with
  | some found => (.ok found, r)
  | none =>
    let (registered, components) := r.components.findDeserializer ty
    let found := registered.getD (if ty.isArray then r.arrayDeserializer else r.objectDeserializer)
    (.ok found, { r with components }.rememberDeserializer ty found)

/-- The value of a member of a type that is missing on the wire. -/
def missingValue (ty : Descriptor) : RegistryM (Option Value) := do
  return (← findDeserializer ty).codec.default?

end RegistryM

end TypedWire
