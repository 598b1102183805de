import TypedWire.Proofs.EncoderContract

/-! # Built-in codecs are never displaced

A registry remembers its built-in codecs before it is asked for anything, and a cache is looked up before any
component is. Caches only grow, so a built-in codec is found for its key for good, whatever the components
offer for that key and whatever the fallbacks are; the components may even change their minds between two
requests.

Every value that the object serializer does not write by its shape has such a key as its natural type. So the
object serializer hands it to a built-in codec that takes it, never back to itself, and its error about a value
that nothing serves does not arise. -/

namespace TypedWire

/-- The states of a registry that requests lead to. The components need not stay the same meanwhile. -/
inductive Registry.Reaches (r₀ : Registry) : Registry → Prop where
  | start : Reaches r₀ r₀
  | asked {r : Registry} (q : Lookup) (h : Reaches r₀ r) : Reaches r₀ (r.asked q)
  | changed {r : Registry} (components : Components) (h : Reaches r₀ r) : Reaches r₀ { r with components }

/-! ### Keys of built-in codecs -/

theorem distinct_writtenBuiltIns : writtenBuiltIns.Pairwise fun a b => (b.1 == a.1) = false := by
  decide

theorem distinct_readBuiltIns : readBuiltIns.Pairwise fun a b => (b.1 == a.1) = false := by
  decide

/-- What is not written by its shape has the key of a built-in serializer that takes it. -/
theorem Value.exists_writtenBuiltIn {v : Value} (h : v.isStructural = false) :
    ∃ b ∈ writtenBuiltIns, (v.naturalType == b.1) = true ∧ b.2 ≠ .object ∧ b.2.takes v = true := by
  have hobject := Value.builtInSerializer_naturalType_ne h
  have htakes := v.takes_naturalType
  unfold Descriptor.builtInSerializer at hobject htakes
  cases hl : writtenBuiltIns.lookup v.naturalType with
  | none =>
    rw [hl] at hobject
    exact absurd rfl hobject
  | some codec =>
    rw [hl] at hobject htakes
    obtain ⟨b, hb, hkey, rfl⟩ := Descriptor.mem_of_lookup hl
    exact ⟨b, hb, hkey, hobject, htakes⟩

/-! ### What a request does, whatever the components -/

/-- Where a candidate cannot be created, it is the choice of a codec that fails. -/
theorem Components.isResolution_of_instantiate {components : Components} {c : Candidate} {e : CodecError}
    (h : (components.instantiate c).1 = .error e) : e.isResolution = true := by
  cases components with
  | static s =>
    rcases s.instantiate_cases c with ⟨reason, hu⟩ | ⟨p, i, c', rest, -, -, hu⟩
    · rw [instantiate, hu] at h
      obtain rfl := Except.error.inj h
      rfl
    · rw [instantiate, hu] at h
      cases h
  | custom o =>
    simp only [instantiate] at h
    cases ho : o.instantiate c with
    | error reason =>
      rw [ho] at h
      obtain rfl := Except.error.inj h
      rfl
    | ok inst =>
      rw [ho] at h
      cases h

theorem Registry.isResolution_of_chooseSerializer {r : Registry} {ty : Descriptor} {e : CodecError}
    (h : r.chooseSerializer ty = .error e) : e.isResolution = true := by
  unfold chooseSerializer at h
  split at h
  · cases h
  · split at h
    · cases h
    · obtain rfl := Except.error.inj h
      rfl
    · obtain rfl := Except.error.inj h
      rfl

namespace RegistryM
variable (ty : Descriptor) (r : Registry)

/-- A request for a serializer is met from the cache, or the choice fails, or what is found is remembered. -/
theorem findSerializer_outcome :
    (∃ found, findSerializer ty r = (.ok found, r)) ∨
    (∃ e components, e.isResolution = true ∧ findSerializer ty r = (.error e, { r with components })) ∨
    ∃ found components, findSerializer ty r =
      (.ok found, { r with components }.rememberSerializer ty found) := by
  rcases findSerializer_cases ty r with
    ⟨found, -, hf⟩ | ⟨e, he, hf⟩ | hf | ⟨c, e, components, hi, hf⟩ | ⟨c, inst, components, -, hf⟩
  · exact Or.inl ⟨found, hf⟩
  · exact Or.inr (Or.inl ⟨e, r.components, Registry.isResolution_of_chooseSerializer he, hf⟩)
  · exact Or.inr (Or.inr ⟨r.objectSerializer, r.components, hf⟩)
  · exact Or.inr (Or.inl ⟨e, components, Components.isResolution_of_instantiate (congrArg Prod.fst hi), hf⟩)
  · exact Or.inr (Or.inr ⟨_, components, hf⟩)

theorem findDeserializer_outcome :
    (∃ found, findDeserializer ty r = (.ok found, r)) ∨
    ∃ found components, findDeserializer ty r =
      (.ok found, { r with components }.rememberDeserializer ty found) := by
  unfold findDeserializer
  cases Cache.find? ty r.deserializers with
  | some found => exact Or.inl ⟨found, rfl⟩
  | none => exact Or.inr ⟨_, _, rfl⟩

end RegistryM

namespace Registry

theorem asked_grows (r : Registry) (q : Lookup) :
    r.serializers <+: (r.asked q).serializers ∧ r.deserializers <+: (r.asked q).deserializers := by
  cases q with
  | serializer ty =>
    unfold asked
    rcases RegistryM.findSerializer_outcome ty r with ⟨found, hf⟩ | ⟨e, components, -, hf⟩ | ⟨found, components, hf⟩
    · simp only [hf]
      exact ⟨List.prefix_rfl, List.prefix_rfl⟩
    · simp only [hf]
      exact ⟨List.prefix_rfl, List.prefix_rfl⟩
    · simp only [hf]
      exact ⟨List.prefix_append .., List.prefix_rfl⟩
  | deserializer ty =>
    unfold asked
    rcases RegistryM.findDeserializer_outcome ty r with ⟨found, hf⟩ | ⟨found, components, hf⟩
    · simp only [hf]
      exact ⟨List.prefix_rfl, List.prefix_rfl⟩
    · simp only [hf]
      exact ⟨List.prefix_rfl, List.prefix_append ..⟩

theorem Reaches.grows {r₀ r : Registry} (h : r₀.Reaches r) :
    r₀.serializers <+: r.serializers ∧ r₀.deserializers <+: r.deserializers := by
  induction h with
  | start => exact ⟨List.prefix_rfl, List.prefix_rfl⟩
  | @asked r q _ ih =>
    obtain ⟨hserializers, hdeserializers⟩ := r.asked_grows q
    exact ⟨ih.1.trans hserializers, ih.2.trans hdeserializers⟩
  | changed components _ ih => exact ih

theorem Reaches.after {r₀ r : Registry} (h : r₀.Reaches r) (history : List Lookup) :
    r₀.Reaches (r.after history) := by
  induction history generalizing r with
  | nil => exact h
  | cons q rest ih => exact ih (h.asked q)

section Built
variable {config : Config} {components : Components} {known : List Class} {fallbacks : Fallbacks} {r₀ : Registry}
  (hr : build config components known fallbacks = .ok r₀)
include hr

/-- A built-in serializer is found for its key, the one that was there at the start. -/
theorem written_of_build {b : Descriptor × Serializer} (hb : b ∈ writtenBuiltIns) :
    ∃ found, Cache.find? b.1 r₀.serializers = some found ∧ found.origin = .builtIn ∧ found.codec = b.2 ∧
      ∀ r, r₀.Reaches r → ∀ ty, (ty == b.1) = true → RegistryM.findSerializer ty r = (.ok found, r) := by
  obtain ⟨-, index, -, rfl⟩ := build_eq_ok_iff.mp hr
  have hlisted := find?_serializers_assembled config components known index fallbacks b.1
  rw [Descriptor.lookup_of_mem distinct_writtenBuiltIns hb] at hlisted
  obtain ⟨found, hfound, he⟩ := Option.map_eq_some_iff.mp hlisted
  obtain ⟨ho, hcodec⟩ := Prod.mk.inj he
  refine ⟨found, hfound, ho, hcodec, fun r h ty hkey => RegistryM.findSerializer_hit ?_⟩
  rw [Cache.find?_congr hkey]
  exact h.grows.1.lookup_eq_some hfound

theorem read_of_build {b : Descriptor × Deserializer} (hb : b ∈ readBuiltIns) :
    ∃ found, Cache.find? b.1 r₀.deserializers = some found ∧ found.origin = .builtIn ∧ found.codec = b.2 ∧
      ∀ r, r₀.Reaches r → ∀ ty, (ty == b.1) = true → RegistryM.findDeserializer ty r = (.ok found, r) := by
  obtain ⟨-, index, -, rfl⟩ := build_eq_ok_iff.mp hr
  have hlisted := find?_deserializers_assembled config components known index fallbacks b.1
  rw [Descriptor.lookup_of_mem distinct_readBuiltIns hb] at hlisted
  obtain ⟨found, hfound, he⟩ := Option.map_eq_some_iff.mp hlisted
  obtain ⟨ho, hcodec⟩ := Prod.mk.inj he
  refine ⟨found, hfound, ho, hcodec, fun r h ty hkey => RegistryM.findDeserializer_hit ?_⟩
  rw [Cache.find?_congr hkey]
  exact h.grows.2.lookup_eq_some hfound

end Built

end Registry

/-! ### The object serializer's guard -/

namespace EncoderM

/-- Where it fails, an encoder was driven out of order. -/
def Refuses {α : Type} (action : EncoderM α) : Prop :=
  ∀ e err, (action e).1 = .error err → ∃ fault, err = .encoderContract fault

theorem refuses_emit (event : WireEvent) : (emit event).Refuses := by
  intro e err he
  simp only [emit] at he
  cases hstep : e.step event with
  | mk answer e' =>
    rw [hstep] at he
    cases answer with
    | error fault => exact ⟨fault, (Except.error.inj he).symm⟩
    | ok u => cases he

theorem refuses_leaves (row : List Leaf) : (leaves row).Refuses := by
  unfold leaves
  induction row with
  | nil => exact nofun
  | cons l rest ih =>
    intro e err he
    rw [List.forM_eq_forM, List.forM_cons] at he
    cases hrun : emit (.leaf l) e with
    | mk answer e' =>
      cases answer with
      | error fault =>
        rw [run_bind_error hrun] at he
        exact refuses_emit (.leaf l) e err ((congrArg Prod.fst hrun).trans he)
      | ok u =>
        rw [run_bind_ok hrun] at he
        exact ih e' err he

theorem refuses_finish : finish.Refuses := by
  intro e err he
  simp only [finish] at he
  cases hfinish : e.finish with
  | error fault =>
    rw [hfinish] at he
    exact ⟨fault, (Except.error.inj he).symm⟩
  | ok w =>
    rw [hfinish] at he
    cases he

end EncoderM

namespace WriteM

/-- Writing that leads from states of a registry to such states, and never fails as the object serializer does
    with a value that nothing serves. -/
def Unguarded {α : Type} (r₀ : Registry) (x : WriteM α) : Prop :=
  ∀ s, r₀.Reaches s.registry →
    r₀.Reaches (x s).2.registry ∧ ∀ found, (x s).1 ≠ .error (.valueMismatch (expectation .object) found)

namespace Unguarded
variable {α β : Type} {r₀ : Registry} {x : WriteM α}

theorem pure (a : α) : Unguarded r₀ (pure a) :=
  fun _ h => ⟨h, nofun⟩

theorem bind {f : α → WriteM β} (hx : Unguarded r₀ x) (hf : ∀ a, Unguarded r₀ (f a)) : Unguarded r₀ (x >>= f) := by
  intro s h
  obtain ⟨hreaches, hne⟩ := hx s h
  cases hrun : x s with
  | mk answer s' =>
    rw [hrun] at hreaches hne
    cases answer with
    | error e =>
      rw [run_bind_error hrun]
      exact ⟨hreaches, fun found he => hne found (congrArg Except.error (Except.error.inj he))⟩
    | ok a =>
      rw [run_bind_ok hrun]
      exact hf a s' hreaches

theorem drive {action : EncoderM α} (h : action.Refuses) : Unguarded r₀ (SessionM.drive action) := by
  intro s hs
  refine ⟨hs, fun found he => ?_⟩
  obtain ⟨fault, hfault⟩ := h s.stream _ he
  cases hfault

theorem ask_findSerializer (ty : Descriptor) : Unguarded r₀ (SessionM.ask (RegistryM.findSerializer ty)) := by
  intro s hs
  refine ⟨hs.asked (.serializer ty), fun found he => ?_⟩
  rcases RegistryM.findSerializer_outcome ty s.registry with ⟨_, hf⟩ | ⟨e, _, hresolution, hf⟩ | ⟨_, _, hf⟩
  all_goals
    rw [SessionM.ask, hf] at he
    cases he
  cases hresolution

theorem put (event : WireEvent) : Unguarded r₀ (put event) :=
  drive (EncoderM.refuses_emit event)

theorem scope {opening : WireEvent} {parts : WriteM Unit} (h : Unguarded r₀ parts) :
    Unguarded r₀ (scope opening parts) :=
  (put opening).bind fun _ => h.bind fun _ => put .close

theorem mismatch {expected : String} (h : expected ≠ expectation .object) (v : Value) :
    Unguarded r₀ (mismatch expected v) := by
  intro s hs
  refine ⟨hs, fun found he => h ?_⟩
  cases he
  rfl

end Unguarded

/-- Only the object serializer says of a value that nothing serves it; a codec that writes one text says nothing
    of any value. -/
theorem expectation_ne {s : Serializer} (hobject : s ≠ .object)
    (hconstant : ∀ tag empty absent, s ≠ .constant tag empty absent) : expectation s ≠ expectation .object := by
  cases s with
  | object => exact absurd rfl hobject
  | constant tag empty absent => exact absurd rfl (hconstant tag empty absent)
  | bigInteger | bigDecimal | elements => decide
  | text t => cases t <;> decide
  | optional o => cases o <;> decide
  | primitiveArray k => cases k <;> decide

section Writing
variable {r₀ : Registry}

theorem unguarded_leaf (l : Leaf) : Unguarded r₀ (leaf l) :=
  .put (.leaf l)

theorem unguarded_writeOwn {s : Serializer} (hobject : s ≠ .object) (v : Value) : Unguarded r₀ (writeOwn s v) := by
  have refused (hconstant : ∀ tag empty absent, s ≠ .constant tag empty absent) :
      Unguarded r₀ (mismatch (expectation s) v) := .mismatch (expectation_ne hobject hconstant) v
  unfold writeOwn
  split
  · exact unguarded_leaf _
  · exact absurd rfl hobject
  · exact refused nofun
  · exact unguarded_leaf _
  · exact unguarded_leaf _
  · exact unguarded_leaf _
  · split
    · exact unguarded_leaf _
    · exact refused nofun
  · split
    · split
      · exact unguarded_leaf _
      · exact unguarded_leaf _
    · exact refused nofun
  · split
    · exact .scope (.drive (EncoderM.refuses_leaves _))
    · exact refused nofun
  · rename_i hconstant _ _ _ _ _ _ _ _
    exact refused hconstant

end Writing

section Built
variable {config : Config} {components : Components} {known : List Class} {fallbacks : Fallbacks} {r₀ : Registry}
  (hr : Registry.build config components known fallbacks = .ok r₀)
include hr

/-- The object serializer hands a value that it does not write by its shape to a built-in serializer that takes
    it, and the registry is left alone. -/
theorem run_writePlain_handed {v : Value} (h : v.isStructural = false) :
    ∃ b ∈ writtenBuiltIns, (v.naturalType == b.1) = true ∧ b.2 ≠ .object ∧ b.2.takes v = true ∧
      ∀ s : Session Encoder, r₀.Reaches s.registry → writePlain v s = writeOwn b.2 v s := by
  obtain ⟨b, hb, hkey, hobject, htakes⟩ := Value.exists_writtenBuiltIn h
  obtain ⟨found, -, horigin, hcodec, hfound⟩ := Registry.written_of_build hr hb
  refine ⟨b, hb, hkey, hobject, htakes, fun s hs => ?_⟩
  have hask := SessionM.run_ask (hfound s.registry hs v.naturalType hkey) s.stream
  rw [writePlain_of_not_structural h, run_bind_ok hask, horigin, hcodec]
  rfl

theorem unguarded_writePlain {v : Value} (hv : v.isContainer = false) : Unguarded r₀ (writePlain v) := by
  cases hstructural : v.isStructural with
  | true => cases v with
    | null | scalar k x | string s => exact unguarded_leaf _
    | array items | list items | object members => cases hv
    | _ => cases hstructural
  | false =>
    obtain ⟨b, -, -, hobject, -, hrun⟩ := run_writePlain_handed hr hstructural
    intro s hs
    rw [hrun s hs]
    exact unguarded_writeOwn hobject v s hs

theorem unguarded_writeFlat (policy : Inclusion) (s : Serializer) (ty : Descriptor) {v : Value}
    (hv : v.isContainer = false) : Unguarded r₀ (write policy s ty v) := by
  rw [write_flat policy s ty hv]
  cases s with
  | object => exact unguarded_writePlain hr hv
  | _ => exact unguarded_writeOwn (by simp) v

end Built

section Everything
variable {config : Config} {components : Components} {known : List Class} {fallbacks : Fallbacks} {r₀ : Registry}

mutual
theorem unguarded_write (hr : Registry.build config components known fallbacks = .ok r₀) (policy : Inclusion) :
    ∀ (v : Value) (s : Serializer) (ty : Descriptor), Unguarded r₀ (write policy s ty v)
  | .array items, s, ty | .list items, s, ty => by
    unfold write
    cases s with
    | object => exact .scope (unguarded_writeItems hr policy items)
    | elements =>
      exact .bind (.ask_findSerializer ty.elementType) fun found =>
        .scope (unguarded_writeEach hr policy items found.codec ty.elementType)
    | _ => exact unguarded_writeOwn (by simp) _
  | .object members, s, ty => by
    unfold write
    cases s with
    | object => exact .scope (unguarded_writeMembers hr policy members)
    | _ => exact unguarded_writeOwn (by simp) _
  | .null, s, ty | .scalar _ _, s, ty | .string _, s, ty | .bigInteger _, s, ty | .bigDecimal _, s, ty
  | .textual _ _, s, ty | .optional _ _, s, ty | .primitiveArray _ _, s, ty =>
    unguarded_writeFlat hr policy s ty rfl

theorem unguarded_writeItems (hr : Registry.build config components known fallbacks = .ok r₀) (policy : Inclusion) :
    ∀ items : List Value, Unguarded r₀ (writeItems policy items)
  | [] => .pure ()
  | v :: vs => by
    unfold writeItems
    exact .bind (.ask_findSerializer v.naturalType) fun found =>
      .bind (unguarded_write hr policy v found.codec v.naturalType) fun _ => unguarded_writeItems hr policy vs

theorem unguarded_writeEach (hr : Registry.build config components known fallbacks = .ok r₀) (policy : Inclusion) :
    ∀ (items : List Value) (s : Serializer) (ty : Descriptor), Unguarded r₀ (writeEach policy s ty items)
  | [], s, ty => .pure ()
  | v :: vs, s, ty => by
    unfold writeEach
    exact .bind (unguarded_write hr policy v s ty) fun _ => unguarded_writeEach hr policy vs s ty

theorem unguarded_writeMembers (hr : Registry.build config components known fallbacks = .ok r₀)
    (policy : Inclusion) : ∀ members : List (String × Value), Unguarded r₀ (writeMembers policy members)
  | [] => .pure ()
  | (key, v) :: ms => by
    unfold writeMembers
    refine .bind (.ask_findSerializer v.naturalType) fun found => ?_
    split
    · exact .bind (.put (.key key)) fun _ =>
        .bind (unguarded_write hr policy v found.codec v.naturalType) fun _ => unguarded_writeMembers hr policy ms
    · exact unguarded_writeMembers hr policy ms
end

end Everything

end WriteM

theorem RegistryM.toWire_unguarded {config : Config} {components : Components} {known : List Class}
    {fallbacks : Fallbacks} {r₀ r : Registry} (hr : Registry.build config components known fallbacks = .ok r₀)
    (h : r₀.Reaches r) (v : Value) (ty : Descriptor) (policy : Option Inclusion) :
    r₀.Reaches (toWire v ty policy r).2 ∧
      ∀ found, (toWire v ty policy r).1 ≠ .error (.valueMismatch (WriteM.expectation .object) found) := by
  have hconfig : (get : RegistryM Registry) r = (.ok r, r) := rfl
  rw [toWire, run_bind_ok hconfig]
  have hwork : WriteM.Unguarded r₀ (do
      let found ← SessionM.ask (findSerializer ty)
      WriteM.write (policy.getD r.config.inclusion) found.codec ty v
      SessionM.drive EncoderM.finish) :=
    .bind (.ask_findSerializer ty) fun found => .bind (WriteM.unguarded_write hr _ v found.codec ty) fun _ =>
      .drive EncoderM.refuses_finish
  exact hwork ⟨r, .start⟩ h

/-- Whatever the components offer, the fallbacks are and has been asked for before: a key of a built-in codec
    gets that codec, the one that was there at the start. The object serializer hands each value that it does not
    write by its shape to a built-in serializer that takes it, so it never gets the value back. And nothing that
    is written fails as a value that nothing serves. -/
theorem builtIns_kept {config : Config} {components : Components} {known : List Class} {fallbacks : Fallbacks}
    {r₀ : Registry} (hr : Registry.build config components known fallbacks = .ok r₀) :
    (∀ b ∈ writtenBuiltIns, ∃ found, Cache.find? b.1 r₀.serializers = some found ∧ found.origin = .builtIn ∧
      found.codec = b.2 ∧
      ∀ r, r₀.Reaches r → ∀ ty, (ty == b.1) = true → RegistryM.findSerializer ty r = (.ok found, r)) ∧
    (∀ b ∈ readBuiltIns, ∃ found, Cache.find? b.1 r₀.deserializers = some found ∧ found.origin = .builtIn ∧
      found.codec = b.2 ∧
      ∀ r, r₀.Reaches r → ∀ ty, (ty == b.1) = true → RegistryM.findDeserializer ty r = (.ok found, r)) ∧
    (∀ v : Value, v.isStructural = false → ∃ b ∈ writtenBuiltIns, (v.naturalType == b.1) = true ∧ b.2 ≠ .object ∧
      b.2.takes v = true ∧ ∀ r, r₀.Reaches r → ∀ policy ty e,
        WriteM.write policy .object ty v ⟨r, e⟩ = WriteM.writeOwn b.2 v ⟨r, e⟩) ∧
    ∀ r, r₀.Reaches r → ∀ (v : Value) (ty : Descriptor) (found : String),
      (∀ policy s e, (WriteM.write policy s ty v ⟨r, e⟩).1 ≠
        .error (.valueMismatch (WriteM.expectation .object) found)) ∧
      ∀ policy, (RegistryM.toWire v ty policy r).1 ≠ .error (.valueMismatch (WriteM.expectation .object) found) := by
  refine ⟨fun b hb => Registry.written_of_build hr hb, fun b hb => Registry.read_of_build hr hb, ?_, ?_⟩
  · intro v hv
    obtain ⟨b, hb, hkey, hobject, htakes, hrun⟩ := WriteM.run_writePlain_handed hr hv
    refine ⟨b, hb, hkey, hobject, htakes, fun r h policy ty e => ?_⟩
    have hflat : v.isContainer = false := by
      cases v with
      | array items | list items | object members => cases hv
      | _ => rfl
    rw [WriteM.write_flat policy .object ty hflat]
    exact hrun ⟨r, e⟩ h
  · intro r h v ty found
    constructor
    · intro policy s e
      exact (WriteM.unguarded_write hr policy v s ty ⟨r, e⟩ h).2 found
    · intro policy
      exact (RegistryM.toWire_unguarded hr h v ty policy).2 found

/-- Components with serializers for `BigInteger` and for numbers, and with a deserializer for whatever is asked. -/
def CustomComponents.eager : CustomComponents where
  serializers := [⟨"BigIntegerSer", some (.ofClass Class.bigInteger)⟩, ⟨"NumberSer", some (.ofClass Class.number)⟩]
  deserializers := [⟨"BigIntegerDe", some (.ofClass Class.bigInteger)⟩]
  instantiate _ := .ok ⟨⟨.components, 0⟩, .object⟩
  findDeserializer _ := some ⟨.registered "BigIntegerDe", ⟨⟨.components, 1⟩, .plain .object⟩⟩

/-- Requests that the components meet do not take the big integers away from the built-in codec, nor does a
    fallback that takes everything. -/
theorem builtIns_kept_eager :
    ∃ r₀ r found, Registry.build { Config.standard with selection := .firstAssignable } (.custom .eager) []
        ⟨.constant "?" none none, .plain .string, .plain .string⟩ = .ok r₀ ∧
      r₀.Reaches r ∧
      (RegistryM.findSerializer (.ofClass (.mk "Fraction" [Class.number])) r₀).1.map (·.origin) =
        .ok (.registered "NumberSer") ∧
      (Descriptor.ofVariable "N" (.ofClass Class.bigInteger) == .ofClass Class.bigInteger) = true ∧
      found.origin = .builtIn ∧ found.codec = .bigInteger ∧
      RegistryM.findSerializer (.ofVariable "N" (.ofClass Class.bigInteger)) r = (.ok found, r) ∧
      (Value.bigInteger 7).isStructural = false ∧
      (∃ b ∈ writtenBuiltIns, b.2 ≠ .object ∧ WriteM.write .always .object .object (.bigInteger 7) ⟨r, .start⟩ =
        WriteM.writeOwn b.2 (.bigInteger 7) ⟨r, .start⟩) ∧
      ∀ unserved, (RegistryM.toWire (.list [.bigInteger 7, .null]) .object none r).1 ≠
        .error (.valueMismatch (WriteM.expectation .object) unserved) := by
  have hr : Registry.build { Config.standard with selection := .firstAssignable } (.custom .eager) []
      ⟨.constant "?" none none, .plain .string, .plain .string⟩ = .ok _ := rfl
  have hreaches (r₀ : Registry) :
      r₀.Reaches { r₀.after [.serializer (.ofClass (.mk "Fraction" [Class.number])),
        .deserializer (.ofClass (.plain "Point"))] with components := .static .empty } :=
    .changed (.static .empty) (.after .start _)
  have hlisted : (.ofClass Class.bigInteger, .bigInteger) ∈ writtenBuiltIns := by
    simp [writtenBuiltIns, sharedBuiltIns]
  have hkey : (Descriptor.ofVariable "N" (.ofClass Class.bigInteger) == .ofClass Class.bigInteger) = true := by decide
  obtain ⟨hwritten, -, hhanded, hserved⟩ := builtIns_kept hr
  obtain ⟨found, -, horigin, hcodec, hfound⟩ := hwritten _ hlisted
  obtain ⟨b, hb, -, hobject, -, hrun⟩ := hhanded (.bigInteger 7) rfl
  exact ⟨_, _, found, hr, hreaches _, rfl, hkey, horigin, hcodec, hfound _ (hreaches _) _ hkey, rfl,
    ⟨b, hb, hobject, hrun _ (hreaches _) .always .object .start⟩,
    fun unserved => (hserved _ (hreaches _) _ .object unserved).2 none⟩

end TypedWire
