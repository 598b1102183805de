import TypedWire.Proofs.History

/-! # The codecs of a registry without components

Where nothing is registered, a type is written by the built-in serializer for its key or by the object
serializer, and read by the built-in deserializer for its key or by one of the object deserializers. No
request changes that, so a whole way between a value and its tree can be told by the types alone. -/

namespace TypedWire

def writtenBuiltIns : List (Descriptor × Serializer) :=
  sharedBuiltIns.map fun b => (b.1, b.2.1)

def readBuiltIns : List (Descriptor × Deserializer) :=
  readOnlyBuiltIns ++ sharedBuiltIns.map fun b => (b.1, b.2.2)

namespace Descriptor

/-- What writes a type where nothing is registered. -/
def builtInSerializer (ty : Descriptor) : Serializer :=
  (writtenBuiltIns.lookup ty).getD .object

def builtInDeserializer (ty : Descriptor) : Deserializer :=
  (readBuiltIns.lookup ty).getD (.plain (if ty.isArray then .objectArray else .object))

section Keys
variable {a b : Descriptor}

theorem builtInSerializer_congr (h : (a == b) = true) : a.builtInSerializer = b.builtInSerializer := by
  rw [builtInSerializer, builtInSerializer, lookup_congr h]

theorem builtInDeserializer_congr (h : (a == b) = true) : a.builtInDeserializer = b.builtInDeserializer := by
  rw [builtInDeserializer, builtInDeserializer, lookup_congr h, isArray_congr h]

/-- A type without parameters is served as its raw type is, whatever variable it stands for. -/
theorem beq_ofRaw {ty : Descriptor} (h : ty.params = []) : (ty == ofRaw ty.raw) = true := by
  obtain ⟨raw, params, variableName?⟩ := ty
  obtain rfl : params = [] := h
  exact beq_iff_unmarked.mpr rfl

end Keys

theorem builtInSerializer_induction {p : Serializer → Prop} (hobject : p .object)
    (hlisted : ∀ b ∈ writtenBuiltIns, p b.2) (ty : Descriptor) : p ty.builtInSerializer := by
  unfold builtInSerializer
  cases hl : writtenBuiltIns.lookup ty with
  | none => exact hobject
  | some s =>
    obtain ⟨b, hb, -, rfl⟩ := mem_of_lookup hl
    exact hlisted b hb

theorem builtInSerializer_text (t : TextType) : (ofClass t.toClass).builtInSerializer = .text t := by
  cases t <;> rfl

theorem builtInSerializer_optional (o : OptionalKind) : (ofClass o.toClass).builtInSerializer = .optional o := by
  cases o <;> rfl

theorem builtInSerializer_primitiveArray (k : Kind) :
    (Value.primitiveArrayType k).builtInSerializer = .primitiveArray k := by
  cases k <;> rfl

end Descriptor

namespace Registry

/-! ### The caches of a registry without components -/

/-- A cache of the registry's own codecs finds what the list of them finds. -/
theorem find?_own {B C : Type} (key : B → Descriptor) (codec : B → C) (number : Nat → Nat) (bs : List B)
    (ty : Descriptor) :
    (Cache.find? ty (bs.mapIdx fun i b => (key b, own .builtIn (number i) (codec b)))).map
        (fun found => (found.origin, found.codec)) =
      ((bs.map fun b => (key b, codec b)).lookup ty).map fun codec => (.builtIn, codec) := by
  unfold Cache.find?
  induction bs generalizing number with
  | nil => rfl
  | cons b rest ih =>
    rw [List.mapIdx_cons, List.map_cons, List.lookup_cons, List.lookup_cons]
    cases ty == key b with
    | true => rfl
    | false => exact ih fun i => number (i + 1)

section Assembled
variable (config : Config) (components : Components) (known : List Class) (index : Index) (fallbacks : Fallbacks)
  (ty : Descriptor)

theorem find?_serializers_assembled :
    (Cache.find? ty (assemble config components known index fallbacks).serializers).map
        (fun found => (found.origin, found.codec)) =
      (writtenBuiltIns.lookup ty).map fun codec => (Origin.builtIn, codec) := by
  have hshared := find?_own (fun b => b.1) (fun b => b.2.1) (fun i => i) sharedBuiltIns ty
  unfold writtenBuiltIns assemble
  dsimp only
  rw [hshared]

theorem find?_deserializers_assembled :
    (Cache.find? ty (assemble config components known index fallbacks).deserializers).map
        (fun found => (found.origin, found.codec)) =
      (readBuiltIns.lookup ty).map fun codec => (Origin.builtIn, codec) := by
  have hread := find?_own (fun b => b.1) (fun b => b.2) (fun i => sharedBuiltIns.length + i) readOnlyBuiltIns ty
  have hshared := find?_own (fun b => b.1) (fun b => b.2.2) (fun i => i) sharedBuiltIns ty
  rw [List.map_id'] at hread
  unfold Cache.find? at *
  unfold readBuiltIns assemble
  dsimp only
  rw [List.lookup_append, List.lookup_append, Option.map_or, Option.map_or, hread, hshared]

variable {config components known index fallbacks ty}

theorem origin_serializer_assembled {found : Resolved Serializer}
    (h : Cache.find? ty (assemble config components known index fallbacks).serializers = some found) :
    found.origin = .builtIn := by
  have hlisted := find?_serializers_assembled config components known index fallbacks ty
  rw [h] at hlisted
  obtain ⟨codec, -, he⟩ := Option.map_eq_some_iff.mp hlisted.symm
  exact (congrArg Prod.fst he).symm

theorem origin_deserializer_assembled {found : Resolved Deserializer}
    (h : Cache.find? ty (assemble config components known index fallbacks).deserializers = some found) :
    found.origin = .builtIn := by
  have hlisted := find?_deserializers_assembled config components known index fallbacks ty
  rw [h] at hlisted
  obtain ⟨codec, -, he⟩ := Option.map_eq_some_iff.mp hlisted.symm
  exact (congrArg Prod.fst he).symm

end Assembled

/-! ### Requests to a registry without components -/

/-- A registry without components, after any requests. -/
abbrev Bare (r : Registry) : Prop :=
  Settled .empty builtInOnly r

theorem Bare.after (history : List Lookup) : Bare (builtInOnly.after history) :=
  (Settled.refl rfl).after history

/-- A cache that holds what a list says gives what the list says, and the fallback for the rest. -/
theorem answer_of_listed {C : Type} {cache : Cache C} {table : List (Descriptor × C)} {ty : Descriptor}
    (hcache : (cache.find? ty).map (fun found => (found.origin, found.codec)) =
      (table.lookup ty).map fun codec => (Origin.builtIn, codec))
    {fallback answer : Answer C} (h : answer = ((cache.find? ty).map Resolved.answer).getD fallback) :
    (answer.origin, answer.codec) =
      ((table.lookup ty).map fun codec => (Origin.builtIn, codec)).getD (fallback.origin, fallback.codec) := by
  rw [h, ← hcache]
  cases cache.find? ty <;> rfl

section Requests
variable {r : Registry} (h : Bare r) (ty : Descriptor)
include h

/-- A bare registry finds a serializer for every type: the built-in one, or as a fallback that for
    objects. -/
theorem Bare.findSerializer : ∃ found r', RegistryM.findSerializer ty r = (.ok found, r') ∧ Bare r' ∧
    found.codec = ty.builtInSerializer ∧ found.origin.isFallback = (writtenBuiltIns.lookup ty).isNone := by
  have hstart : builtInOnly.serializerAnswer ty =
      .ok (((Cache.find? ty builtInOnly.serializers).map Resolved.answer).getD builtInOnly.objectSerializer.answer) := by
    cases hc : Cache.find? ty builtInOnly.serializers with
    | some found => exact serializerAnswer_hit hc
    | none => exact serializerAnswer_miss (s := .empty) rfl hc
  have hnow := h.serializerAnswer_eq ty
  rw [hstart] at hnow
  have hkept := Settled.findSerializer h ty
  unfold serializerAnswer at hnow
  cases hf : RegistryM.findSerializer ty r with
  | mk answer r' =>
    rw [hf] at hnow hkept
    cases answer with
    | error e => cases hnow
    | ok found =>
      have hanswer := answer_of_listed (find?_serializers_assembled ..) (Except.ok.inj hnow)
      refine ⟨found, r', rfl, hkept, ?_⟩
      unfold Descriptor.builtInSerializer
      cases hl : writtenBuiltIns.lookup ty with
      | some codec | none =>
        rw [hl] at hanswer
        obtain ⟨ho, hcodec⟩ := Prod.mk.inj hanswer
        exact ⟨hcodec, congrArg Origin.isFallback ho⟩

/-- A bare registry finds the built-in deserializer of a type, or that for arrays or objects. -/
theorem Bare.findDeserializer : ∃ found r', RegistryM.findDeserializer ty r = (.ok found, r') ∧ Bare r' ∧
    found.codec = ty.builtInDeserializer := by
  have hstart := @deserializerAnswer_static .empty builtInOnly rfl ty
  have hnow := h.deserializerAnswer_eq ty
  rw [hstart] at hnow
  have hkept := Settled.findDeserializer h ty
  unfold deserializerAnswer at hnow
  cases hf : RegistryM.findDeserializer ty r with
  | mk answer r' =>
    rw [hf] at hnow hkept
    cases answer with
    | error e => cases hnow
    | ok found =>
      have hanswer := answer_of_listed (find?_deserializers_assembled ..) (Except.ok.inj hnow)
      refine ⟨found, r', rfl, hkept, ?_⟩
      unfold Descriptor.builtInDeserializer
      cases hl : readBuiltIns.lookup ty with
      | some codec =>
        rw [hl] at hanswer
        exact (Prod.mk.inj hanswer).2
      | none =>
        rw [hl] at hanswer
        refine (Prod.mk.inj hanswer).2.trans ?_
        cases ty.isArray <;> rfl

end Requests

end Registry

end TypedWire
