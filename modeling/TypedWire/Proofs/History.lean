import TypedWire.Proofs.Components
import TypedWire.Proofs.Keys
import TypedWire.Proofs.SerializerChoice

/-! # Answers do not depend on earlier requests

A registry remembers what it has found, and components remember what they have made. Neither shows in an
answer: what a registry says after any requests is what it says when it has just been built, and equal keys
get equal answers. What is remembered stays, and only a request for a new key that succeeds adds to it. -/

namespace TypedWire

/-- What a registry is asked for. -/
inductive Lookup where
  | serializer (ty : Descriptor)
  | deserializer (ty : Descriptor)

/-- What an answer says: the origin and the codec, and which instance it is where the registry has made it.
    The instances of registered codecs are numbered as they are made, and the number says nothing. -/
structure Answer (C : Type) where
  origin : Origin
  codec : C
  id? : Option Identity

def Resolved.answer {C : Type} (found : Resolved C) : Answer C :=
  ⟨found.origin, found.codec, if found.origin.candidateName?.isSome then none else some found.inst.id⟩

/-! ### What a cache holds -/

section Caches
variable {C : Type} {cache cache' : Cache C} {a k : Descriptor} {found : Resolved C}

theorem Cache.find?_add (a k : Descriptor) (found : Resolved C) (cache : Cache C) :
    (cache.add k found).find? a = (cache.find? a).or (if a == k then some found else none) := by
  unfold find? add
  rw [List.lookup_append, List.lookup_cons]
  cases a == k <;> rfl

/-- What is found after a key has been added was there before, or is the new entry under an equal key. -/
theorem Cache.find?_add_eq_some {new : Resolved C} (h : (cache.add k new).find? a = some found) :
    cache.find? a = some found ∨ (a == k) = true ∧ found = new := by
  rw [Cache.find?_add] at h
  rcases Option.or_eq_some_iff.mp h with old | ⟨-, hnew⟩
  · exact Or.inl old
  · obtain ⟨hkey, rfl⟩ : (a == k) = true ∧ new = found := by simpa using hnew
    exact Or.inr ⟨hkey, rfl⟩

theorem Cache.find?_eq_none_of_grown (h : cache <+: cache') (hf : cache'.find? a = none) : cache.find? a = none :=
  h.lookup_eq_none hf

end Caches

namespace Registry

/-- What a registry answers when it is asked for a serializer. -/
def serializerAnswer (r : Registry) (ty : Descriptor) : Except CodecError (Answer Serializer) :=
  (RegistryM.findSerializer ty r).1.map Resolved.answer

def deserializerAnswer (r : Registry) (ty : Descriptor) : Except CodecError (Answer Deserializer) :=
  (RegistryM.findDeserializer ty r).1.map Resolved.answer

def asked (r : Registry) : Lookup → Registry
  | .serializer ty => (RegistryM.findSerializer ty r).2
  | .deserializer ty => (RegistryM.findDeserializer ty r).2

/-- The registry after requests, one after the other. -/
def after (r : Registry) (history : List Lookup) : Registry :=
  history.foldl asked r

theorem after_append (r : Registry) (history later : List Lookup) :
    r.after (history ++ later) = (r.after history).after later :=
  List.foldl_append

end Registry

/-! ### What a request does -/

namespace RegistryM
open Registry
variable {r : Registry} {s : StaticComponents} {ty : Descriptor}

theorem findSerializer_hit {found : Resolved Serializer} (h : Cache.find? ty r.serializers = some found) :
    findSerializer ty r = (.ok found, r) := by
  simp only [findSerializer, h]

theorem findDeserializer_hit {found : Resolved Deserializer} (h : Cache.find? ty r.deserializers = some found) :
    findDeserializer ty r = (.ok found, r) := by
  simp only [findDeserializer, h]

/-- What a request for a serializer comes to: it is met from what is remembered, the choice fails, the object
    serializer is remembered for the type, or the candidate that is chosen is created, which may fail. -/
theorem findSerializer_cases (ty : Descriptor) (r : Registry) :
    (∃ found, Cache.find? ty r.serializers = some found ∧ findSerializer ty r = (.ok found, r)) ∨
    (∃ e, r.chooseSerializer ty = .error e ∧ findSerializer ty r = (.error e, r)) ∨
    findSerializer ty r = (.ok r.objectSerializer, r.rememberSerializer ty r.objectSerializer) ∨
    (∃ c e components, r.components.instantiate c = (.error e, components) ∧
      findSerializer ty r = (.error e, { r with components })) ∨
    ∃ c inst components, r.components.instantiate c = (.ok inst, components) ∧
      findSerializer ty r =
        (.ok ⟨.registered c.name, inst⟩, { r with components }.rememberSerializer ty ⟨.registered c.name, inst⟩) := by
  unfold findSerializer
  cases Cache.find? ty r.serializers with
  | some found => exact Or.inl ⟨found, rfl, rfl⟩
  | none =>
    refine Or.inr ?_
    cases r.chooseSerializer ty with
    | error e => exact Or.inl ⟨e, rfl, rfl⟩
    | ok chosen =>
      refine Or.inr ?_
      cases chosen with
      | none => exact Or.inl rfl
      | some c =>
        refine Or.inr ?_
        cases hi : r.components.instantiate c with
        | mk answer components =>
          cases answer with
          | error e => exact Or.inl ⟨c, e, components, hi, by simp only [hi]⟩
          | ok inst => exact Or.inr ⟨c, inst, components, hi, by simp only [hi]⟩

/-- Over registered components, a serializer is found in the cache, refused, left to the object serializer or
    made of one of the registrations. -/
theorem findSerializer_static (hs : r.components = .static s) (ty : Descriptor) :
    (∃ found, Cache.find? ty r.serializers = some found ∧ findSerializer ty r = (.ok found, r)) ∨
    (∃ e, findSerializer ty r = (.error e, r)) ∨
    findSerializer ty r = (.ok r.objectSerializer, r.rememberSerializer ty r.objectSerializer) ∨
    ∃ p i c rest, Registration.useFirst s.fresh p s.serializers = some (i, c, rest) ∧
      findSerializer ty r = (.ok ⟨.registered c.name, i⟩,
        { r with components := .static { s with serializers := rest, fresh := s.fresh + 1 } }.rememberSerializer ty
          ⟨.registered c.name, i⟩) := by
  rcases findSerializer_cases ty r with
    hhit | ⟨e, -, hf⟩ | hf | ⟨c, e, components, hi, hf⟩ | ⟨c, inst, components, hi, hf⟩
  · exact Or.inl hhit
  · exact Or.inr (Or.inl ⟨e, hf⟩)
  · exact Or.inr (Or.inr (Or.inl hf))
  · rcases s.instantiate_cases c with ⟨e', hu⟩ | ⟨p, i, c', rest, -, -, hu⟩
    · rw [hs, Components.instantiate, hu] at hi
      obtain ⟨-, rfl⟩ := Prod.mk.inj hi
      exact Or.inr (Or.inl ⟨e, by rw [hf, ← hs]⟩)
    · rw [hs, Components.instantiate, hu] at hi
      cases hi
  · rcases s.instantiate_cases c with ⟨e', hu⟩ | ⟨p, i, c', rest, hused, hname, hu⟩
    · rw [hs, Components.instantiate, hu] at hi
      cases hi
    · rw [hs, Components.instantiate, hu] at hi
      obtain ⟨hinst, rfl⟩ := Prod.mk.inj hi
      obtain rfl := Except.ok.inj hinst
      rw [← hname] at hf
      exact Or.inr (Or.inr (Or.inr ⟨p, i, c', rest, hused, hf⟩))

/-- Over registered components, a deserializer is found in the cache, left to a fallback or made of one of the
    registrations. -/
theorem findDeserializer_static (hs : r.components = .static s) (ty : Descriptor) :
    (∃ found, Cache.find? ty r.deserializers = some found ∧ findDeserializer ty r = (.ok found, r)) ∨
    (∃ fallback, (fallback = r.arrayDeserializer ∨ fallback = r.objectDeserializer) ∧
      findDeserializer ty r = (.ok fallback, r.rememberDeserializer ty fallback)) ∨
    ∃ p i c rest, Registration.useFirst s.fresh p s.deserializers = some (i, c, rest) ∧
      findDeserializer ty r = (.ok ⟨.registered c.name, i⟩,
        { r with components := .static { s with deserializers := rest, fresh := s.fresh + 1 } }.rememberDeserializer ty
          ⟨.registered c.name, i⟩) := by
  cases hc : Cache.find? ty r.deserializers with
  | some found => exact Or.inl ⟨found, rfl, findDeserializer_hit hc⟩
  | none =>
    refine Or.inr ?_
    unfold findDeserializer
    rcases s.findDeserializer_cases ty with hu | ⟨p, i, c, rest, hused, hu⟩
    · simp only [hc, hs, Components.findDeserializer, hu]
      refine Or.inl ⟨if ty.isArray then r.arrayDeserializer else r.objectDeserializer, ?_, by rw [← hs]; rfl⟩
      split
      · exact Or.inl rfl
      · exact Or.inr rfl
    · simp only [hc, hs, Components.findDeserializer, hu]
      exact Or.inr ⟨p, i, c, rest, hused, rfl⟩

/-- A serializer that is not remembered is found and remembered, or nothing happens at all. -/
theorem findSerializer_miss (hs : r.components = .static s) (h : Cache.find? ty r.serializers = none) :
    (∃ e, findSerializer ty r = (.error e, r)) ∨
    ∃ found t, s.SameFaces t ∧
      findSerializer ty r = (.ok found, { r with components := .static t }.rememberSerializer ty found) := by
  rcases findSerializer_static hs ty with ⟨found, hc, -⟩ | hrefused | hf | ⟨p, i, c, rest, hu, hf⟩
  · rw [h] at hc
    cases hc
  · exact Or.inl hrefused
  · exact Or.inr ⟨r.objectSerializer, s, .refl s, by rw [hf, ← hs]⟩
  · exact Or.inr ⟨_, { s with serializers := rest, fresh := s.fresh + 1 }, ⟨Registration.faces_useFirst hu, rfl⟩, hf⟩

theorem findDeserializer_miss (hs : r.components = .static s) (h : Cache.find? ty r.deserializers = none) :
    ∃ found t, s.SameFaces t ∧
      findDeserializer ty r = (.ok found, { r with components := .static t }.rememberDeserializer ty found) := by
  rcases findDeserializer_static hs ty with ⟨found, hc, -⟩ | ⟨fallback, -, hf⟩ | ⟨p, i, c, rest, hu, hf⟩
  · rw [h] at hc
    cases hc
  · exact ⟨fallback, s, .refl s, by rw [hf, ← hs]⟩
  · exact ⟨_, { s with deserializers := rest, fresh := s.fresh + 1 }, ⟨rfl, Registration.faces_useFirst hu⟩, hf⟩

end RegistryM

/-! ### Answers as the fresh registry gives them -/

namespace Registry

/-- A registry that has come from another one by requests: it chooses among the same faces with the same
    index, and what it remembers is what the other one answers. -/
structure Settled (s : StaticComponents) (r₀ r : Registry) : Prop where
  config : r.config = r₀.config
  index : r.index = r₀.index
  objectSerializer : r.objectSerializer = r₀.objectSerializer
  objectDeserializer : r.objectDeserializer = r₀.objectDeserializer
  arrayDeserializer : r.arrayDeserializer = r₀.arrayDeserializer
  start : r₀.components = .static s
  components : ∃ t, r.components = .static t ∧ s.SameFaces t
  serializers_grow : r₀.serializers <+: r.serializers
  deserializers_grow : r₀.deserializers <+: r.deserializers
  serializers_answer : ∀ ty found, Cache.find? ty r.serializers = some found →
    r₀.serializerAnswer ty = .ok found.answer
  deserializers_answer : ∀ ty found, Cache.find? ty r.deserializers = some found →
    r₀.deserializerAnswer ty = .ok found.answer

section Answers
variable {s : StaticComponents} {r₀ r : Registry} {a b ty : Descriptor}

theorem serializerAnswer_hit {found : Resolved Serializer} (h : Cache.find? ty r.serializers = some found) :
    r.serializerAnswer ty = .ok found.answer := by
  rw [serializerAnswer, RegistryM.findSerializer_hit h]
  rfl

theorem deserializerAnswer_hit {found : Resolved Deserializer} (h : Cache.find? ty r.deserializers = some found) :
    r.deserializerAnswer ty = .ok found.answer := by
  rw [deserializerAnswer, RegistryM.findDeserializer_hit h]
  rfl

theorem serializerAnswer_miss (hs : r.components = .static s) (h : Cache.find? ty r.serializers = none) :
    r.serializerAnswer ty = (r.chooseSerializer ty).bind fun
      | none => .ok r.objectSerializer.answer
      | some c =>
        match (s.serializers.map Registration.face).find? fun f => f.1.name = c.name with
        | some f => .ok ⟨.registered c.name, f.2, none⟩
        | none => .error (.instantiation c.name "not registered with this component registry") := by
  unfold serializerAnswer RegistryM.findSerializer
  rw [h]
  cases r.chooseSerializer ty with
  | error e => rfl
  | ok chosen =>
    cases chosen with
    | none => rfl
    | some c =>
      have hcodec := s.codec_instantiate c
      simp only [hs, Components.instantiate, Except.bind]
      cases hi : s.instantiate c with
      | mk answer t =>
        rw [hi] at hcodec
        cases hf : (s.serializers.map Registration.face).find? fun f => f.1.name = c.name with
        | none =>
          rw [hf] at hcodec
          cases answer with
          | error e => simpa [Except.map] using hcodec
          | ok inst => cases hcodec
        | some f =>
          rw [hf] at hcodec
          cases answer with
          | error e => cases hcodec
          | ok inst =>
            have hmade : inst.codec = f.2 := Except.ok.inj hcodec
            exact congrArg (fun codec => Except.ok (⟨.registered c.name, codec, none⟩ : Answer Serializer)) hmade

theorem deserializerAnswer_miss (hs : r.components = .static s) (h : Cache.find? ty r.deserializers = none) :
    r.deserializerAnswer ty =
      .ok (((StaticComponents.readingFace? ty (s.deserializers.map Registration.face)).map fun f =>
        (⟨.registered f.1.name, f.2, none⟩ : Answer Deserializer)).getD
          (if ty.isArray then r.arrayDeserializer.answer else r.objectDeserializer.answer)) := by
  have hface := s.findDeserializer_face ty
  unfold deserializerAnswer RegistryM.findDeserializer
  rw [h, hs]
  simp only [Components.findDeserializer]
  cases hf : StaticComponents.readingFace? ty (s.deserializers.map Registration.face) with
  | none =>
    rw [hf, Option.map_none, Option.map_eq_none_iff] at hface
    rw [hface]
    cases ty.isArray <;> rfl
  | some f =>
    rw [hf] at hface
    obtain ⟨d, hd, he⟩ := Option.map_eq_some_iff.mp hface
    obtain ⟨ho, hc⟩ := Prod.mk.inj he
    rw [hd]
    simp only [Option.getD_some, Option.map_some, Except.map, Resolved.answer, ho, hc, Origin.candidateName?]
    rfl

theorem deserializerAnswer_static (hs : r.components = .static s) (ty : Descriptor) :
    r.deserializerAnswer ty =
      .ok (((Cache.find? ty r.deserializers).map Resolved.answer).getD
        (((StaticComponents.readingFace? ty (s.deserializers.map Registration.face)).map fun f =>
          (⟨.registered f.1.name, f.2, none⟩ : Answer Deserializer)).getD
            (if ty.isArray then r.arrayDeserializer.answer else r.objectDeserializer.answer))) := by
  cases hc : Cache.find? ty r.deserializers with
  | some found => exact deserializerAnswer_hit hc
  | none => exact deserializerAnswer_miss hs hc

theorem Settled.serializerAnswer_eq (h : Settled s r₀ r) (ty : Descriptor) :
    r.serializerAnswer ty = r₀.serializerAnswer ty := by
  cases hc : Cache.find? ty r.serializers with
  | some found => rw [serializerAnswer_hit hc, h.serializers_answer ty found hc]
  | none =>
    obtain ⟨t, ht, hfaces⟩ := h.components
    have hchoice : r.chooseSerializer ty = r₀.chooseSerializer ty := by
      rw [chooseSerializer, chooseSerializer, h.index, h.config]
    rw [serializerAnswer_miss ht hc,
      serializerAnswer_miss h.start (Cache.find?_eq_none_of_grown h.serializers_grow hc), hchoice,
      h.objectSerializer, hfaces.serializers]

theorem Settled.deserializerAnswer_eq (h : Settled s r₀ r) (ty : Descriptor) :
    r.deserializerAnswer ty = r₀.deserializerAnswer ty := by
  cases hc : Cache.find? ty r.deserializers with
  | some found => rw [deserializerAnswer_hit hc, h.deserializers_answer ty found hc]
  | none =>
    obtain ⟨t, ht, hfaces⟩ := h.components
    rw [deserializerAnswer_miss ht hc,
      deserializerAnswer_miss h.start (Cache.find?_eq_none_of_grown h.deserializers_grow hc),
      h.objectDeserializer, h.arrayDeserializer, hfaces.deserializers]

/-- Equal keys get one serializer, or one error but for the type that it shows. -/
theorem serializerAnswer_congr (hs : r.components = .static s) (h : (a == b) = true) :
    r.serializerAnswer b = (r.serializerAnswer a).mapError (·.about b) := by
  cases hc : Cache.find? a r.serializers with
  | some found =>
    rw [serializerAnswer_hit hc, serializerAnswer_hit (Cache.find?_congr h r.serializers ▸ hc)]
    rfl
  | none =>
    rw [serializerAnswer_miss hs hc, serializerAnswer_miss hs (Cache.find?_congr h r.serializers ▸ hc),
      chooseSerializer_congr r h]
    cases r.chooseSerializer a with
    | error e => rfl
    | ok chosen =>
      cases chosen with
      | none => rfl
      | some c =>
        simp only [Except.bind, Except.mapError]
        cases (s.serializers.map Registration.face).find? fun f => f.1.name = c.name <;> rfl

theorem deserializerAnswer_congr (hs : r.components = .static s) (h : (a == b) = true) :
    r.deserializerAnswer b = r.deserializerAnswer a := by
  unfold deserializerAnswer RegistryM.findDeserializer
  rw [hs, Cache.find?_congr h]
  simp only [Components.findDeserializer, s.findDeserializer_congr h, Descriptor.isArray_congr h]
  cases Cache.find? b r.deserializers <;> rfl

end Answers

/-! ### Requests keep a registry settled -/

section Requests
variable {s : StaticComponents} {r₀ r : Registry}

theorem Settled.refl (hs : r₀.components = .static s) : Settled s r₀ r₀ where
  config := rfl
  index := rfl
  objectSerializer := rfl
  objectDeserializer := rfl
  arrayDeserializer := rfl
  start := hs
  components := ⟨s, hs, .refl s⟩
  serializers_grow := List.prefix_rfl
  deserializers_grow := List.prefix_rfl
  serializers_answer _ _ h := serializerAnswer_hit h
  deserializers_answer _ _ h := deserializerAnswer_hit h

/-- A request for a serializer is met from what is remembered, or its answer is remembered, or nothing
    happens. -/
theorem Settled.findSerializer (h : Settled s r₀ r) (ty : Descriptor) :
    Settled s r₀ (RegistryM.findSerializer ty r).2 := by
  obtain ⟨t, ht, hfaces⟩ := h.components
  cases hc : Cache.find? ty r.serializers with
  | some found =>
    rw [RegistryM.findSerializer_hit hc]
    exact h
  | none =>
    rcases RegistryM.findSerializer_miss ht hc with ⟨e, he⟩ | ⟨found, u, hu, hf⟩
    · rw [he]
      exact h
    · rw [hf]
      refine { h with
        components := ⟨u, rfl, hfaces.trans hu⟩
        serializers_grow := h.serializers_grow.trans (List.prefix_append ..)
        serializers_answer := fun k found' hk => ?_ }
      rcases Cache.find?_add_eq_some hk with old | ⟨hkey, rfl⟩
      · exact h.serializers_answer k found' old
      · have hanswer : r.serializerAnswer ty = .ok found'.answer := by rw [serializerAnswer, hf]; rfl
        rw [serializerAnswer_congr h.start (BEq.symm hkey), ← h.serializerAnswer_eq, hanswer]
        rfl

theorem Settled.findDeserializer (h : Settled s r₀ r) (ty : Descriptor) :
    Settled s r₀ (RegistryM.findDeserializer ty r).2 := by
  obtain ⟨t, ht, hfaces⟩ := h.components
  cases hc : Cache.find? ty r.deserializers with
  | some found =>
    rw [RegistryM.findDeserializer_hit hc]
    exact h
  | none =>
    obtain ⟨found, u, hu, hf⟩ := RegistryM.findDeserializer_miss ht hc
    rw [hf]
    refine { h with
      components := ⟨u, rfl, hfaces.trans hu⟩
      deserializers_grow := h.deserializers_grow.trans (List.prefix_append ..)
      deserializers_answer := fun k found' hk => ?_ }
    rcases Cache.find?_add_eq_some hk with old | ⟨hkey, rfl⟩
    · exact h.deserializers_answer k found' old
    · have hanswer : r.deserializerAnswer ty = .ok found'.answer := by rw [deserializerAnswer, hf]; rfl
      rw [deserializerAnswer_congr h.start (BEq.symm hkey), ← h.deserializerAnswer_eq, hanswer]

theorem Settled.asked (h : Settled s r₀ r) (q : Lookup) : Settled s r₀ (r.asked q) := by
  cases q with
  | serializer ty => exact h.findSerializer ty
  | deserializer ty => exact h.findDeserializer ty

theorem Settled.after (h : Settled s r₀ r) (history : List Lookup) : Settled s r₀ (r.after history) := by
  induction history generalizing r with
  | nil => exact h
  | cons q rest ih => exact ih (h.asked q)

/-- What requests do to what a registry remembers. -/
structure Remembers (r : Registry) : Prop where
  serializer_hit : ∀ ty found, Cache.find? ty r.serializers = some found →
    RegistryM.findSerializer ty r = (.ok found, r)
  serializer_new : ∀ ty found, Cache.find? ty r.serializers = none →
    (RegistryM.findSerializer ty r).1 = .ok found →
      (RegistryM.findSerializer ty r).2.serializers = r.serializers ++ [(ty, found)] ∧
      (RegistryM.findSerializer ty r).2.deserializers = r.deserializers
  serializer_failed : ∀ ty e, (RegistryM.findSerializer ty r).1 = .error e →
    (RegistryM.findSerializer ty r).2.serializers = r.serializers ∧
    (RegistryM.findSerializer ty r).2.deserializers = r.deserializers
  deserializer_hit : ∀ ty found, Cache.find? ty r.deserializers = some found →
    RegistryM.findDeserializer ty r = (.ok found, r)
  deserializer_new : ∀ ty, Cache.find? ty r.deserializers = none →
    ∃ found, (RegistryM.findDeserializer ty r).1 = .ok found ∧
      (RegistryM.findDeserializer ty r).2.deserializers = r.deserializers ++ [(ty, found)] ∧
      (RegistryM.findDeserializer ty r).2.serializers = r.serializers

theorem remembers_of_static (hs : r.components = .static s) : r.Remembers where
  serializer_hit _ _ h := RegistryM.findSerializer_hit h
  deserializer_hit _ _ h := RegistryM.findDeserializer_hit h
  serializer_new ty found h hok := by
    rcases RegistryM.findSerializer_miss hs h with ⟨e, he⟩ | ⟨found', t, -, hf⟩
    · rw [he] at hok
      cases hok
    · rw [hf] at hok ⊢
      cases hok
      exact ⟨rfl, rfl⟩
  serializer_failed ty e herr := by
    cases hc : Cache.find? ty r.serializers with
    | some found =>
      rw [RegistryM.findSerializer_hit hc]
      exact ⟨rfl, rfl⟩
    | none =>
      rcases RegistryM.findSerializer_miss hs hc with ⟨e', he⟩ | ⟨found, t, -, hf⟩
      · rw [he]
        exact ⟨rfl, rfl⟩
      · rw [hf] at herr
        cases herr
  deserializer_new ty h := by
    obtain ⟨found, t, -, hf⟩ := RegistryM.findDeserializer_miss hs h
    rw [hf]
    exact ⟨found, rfl, rfl, rfl⟩

/-- A request that has been met is met with the same instance from then on, whatever stands for its key. -/
theorem Remembers.findSerializer_again (h : r.Remembers) {a b : Descriptor} (hkey : (a == b) = true)
    {found : Resolved Serializer} (hok : (RegistryM.findSerializer a r).1 = .ok found) :
    (RegistryM.findSerializer b (RegistryM.findSerializer a r).2).1 = .ok found := by
  have hcached : Cache.find? a (RegistryM.findSerializer a r).2.serializers = some found := by
    cases hc : Cache.find? a r.serializers with
    | some old =>
      rw [h.serializer_hit a old hc] at hok ⊢
      cases hok
      exact hc
    | none =>
      rw [(h.serializer_new a found hc hok).1, ← Cache.add, Cache.find?_add, hc, BEq.rfl]
      rfl
  rw [RegistryM.findSerializer_hit (Cache.find?_congr hkey _ ▸ hcached)]

theorem Remembers.findDeserializer_again (h : r.Remembers) {a b : Descriptor} (hkey : (a == b) = true)
    {found : Resolved Deserializer} (hok : (RegistryM.findDeserializer a r).1 = .ok found) :
    (RegistryM.findDeserializer b (RegistryM.findDeserializer a r).2).1 = .ok found := by
  have hcached : Cache.find? a (RegistryM.findDeserializer a r).2.deserializers = some found := by
    cases hc : Cache.find? a r.deserializers with
    | some old =>
      rw [h.deserializer_hit a old hc] at hok ⊢
      cases hok
      exact hc
    | none =>
      obtain ⟨new, hnew, hcache, -⟩ := h.deserializer_new a hc
      obtain rfl : new = found := Except.ok.inj (hnew.symm.trans hok)
      rw [hcache, ← Cache.add, Cache.find?_add, hc, BEq.rfl]
      rfl
  rw [RegistryM.findDeserializer_hit (Cache.find?_congr hkey _ ▸ hcached)]

end Requests

theorem settled_of_build {config : Config} {s : StaticComponents} {known : List Class} {fallbacks : Fallbacks}
    {r : Registry} (hr : build config (.static s) known fallbacks = .ok r) (history : List Lookup) :
    Settled s r (r.after history) := by
  obtain ⟨-, index, -, rfl⟩ := build_eq_ok_iff.mp hr
  exact (Settled.refl rfl).after history

/-- A registry over registered components answers after any requests as it does when it has just been built;
    equal keys get equal answers, and the same instance once one of them has been met; and along the way
    caches only grow, by the entry of a request for a new key that is met. -/
theorem answers_of_build {config : Config} {s : StaticComponents} {known : List Class} {fallbacks : Fallbacks}
    {r : Registry} (hr : build config (.static s) known fallbacks = .ok r) (history : List Lookup) :
    (∀ ty, (r.after history).serializerAnswer ty = r.serializerAnswer ty ∧
      (r.after history).deserializerAnswer ty = r.deserializerAnswer ty) ∧
    (∀ a b, (a == b) = true →
      (r.after history).serializerAnswer b = ((r.after history).serializerAnswer a).mapError (·.about b) ∧
      (r.after history).deserializerAnswer b = (r.after history).deserializerAnswer a ∧
      (∀ found, (RegistryM.findSerializer a (r.after history)).1 = .ok found →
        (RegistryM.findSerializer b (RegistryM.findSerializer a (r.after history)).2).1 = .ok found) ∧
      ∀ found, (RegistryM.findDeserializer a (r.after history)).1 = .ok found →
        (RegistryM.findDeserializer b (RegistryM.findDeserializer a (r.after history)).2).1 = .ok found) ∧
    (∀ later, (r.after history).serializers <+: (r.after (history ++ later)).serializers ∧
      (r.after history).deserializers <+: (r.after (history ++ later)).deserializers) ∧
    (r.after history).Remembers := by
  obtain ⟨-, index, -, rfl⟩ := build_eq_ok_iff.mp hr
  have hsettled := (@Settled.refl s (assemble config (.static s) known index fallbacks) rfl).after history
  obtain ⟨t, ht, -⟩ := hsettled.components
  have hrem := remembers_of_static ht
  refine ⟨fun ty => ⟨hsettled.serializerAnswer_eq ty, hsettled.deserializerAnswer_eq ty⟩, fun a b hkey => ?_,
    fun later => ?_, hrem⟩
  · exact ⟨serializerAnswer_congr ht hkey, deserializerAnswer_congr ht hkey,
      fun _ hok => hrem.findSerializer_again hkey hok, fun _ hok => hrem.findDeserializer_again hkey hok⟩
  · have hlater := (Settled.refl ht).after later
    rw [after_append]
    exact ⟨hlater.serializers_grow, hlater.deserializers_grow⟩

/-- Two serializers accept `List<String>` and one accepts `List<Integer>`. The former type is refused before
    and after the latter has been served, and a list of a variable below `Integer` gets the same answer. -/
theorem answers_of_build_list :
    ∃ r, build .standard (.static ⟨listSerializers, [], 0⟩) [] .standard = .ok r ∧
      (r.after [.serializer (.generic (.classType Class.list) [.string]), .deserializer .string,
          .serializer (.generic (.classType Class.list) [.boxed .int])]).serializerAnswer
        (.generic (.classType Class.list) [.string]) =
          .error (.ambiguousSerializer (.generic (.classType Class.list) [.string]) ["StringListSer", "ListSer"]) ∧
      (r.after [.serializer (.generic (.classType Class.list) [.boxed .int])]).serializerAnswer
        (.generic (.classType Class.list) [.ofVariable "E" (.boxed .int)]) =
          .ok ⟨.registered "ListSer", .elements, none⟩ := by
  have hr : build .standard (.static ⟨listSerializers, [], 0⟩) [] .standard = .ok _ := rfl
  exact ⟨_, hr, ((answers_of_build hr _).1 _).1.trans rfl, ((answers_of_build hr _).1 _).1.trans rfl⟩

end Registry

end TypedWire
