import TypedWire.Proofs.WriteTree

/-! # What writing leaves behind

A serializer of a registry without components keeps to the order that an encoder asks for: it writes one
finished value where the encoder stands, or refuses the value before it has written anything. So whatever is
written around the value is not disturbed by it. -/

namespace TypedWire

/-! ### One value more -/

/-- `e'` is `e` with one finished value more: the value stands where `e` waited for one, every scope around it
    is as it was, no scope has been left open, and no key waits for a value. -/
structure Encoder.Gains (e : Encoder) (w : Wire) (e' : Encoder) : Prop where
  pushed : e.push w = (.ok (), e')
  depth : e'.stack.length = e.stack.length
  outer : e'.stack.tail = e.stack.tail
  root : e.stack ≠ [] → e'.root = e.root
  noKey : ∀ members key, e'.stack.head? ≠ some (.object members (some key))

theorem Encoder.gains_put {e : Encoder} (h : e.blocked? = none) (w : Wire) : e.Gains w (e.put w) := by
  have hpush : e.push w = (.ok (), e.put w) := by rw [push, h]
  obtain ⟨root, stack⟩ := e
  cases stack with
  | nil => exact ⟨hpush, rfl, rfl, fun hne => absurd rfl hne, by simp [put]⟩
  | cons frame rest =>
    cases frame with
    | array latest => exact ⟨hpush, rfl, rfl, fun _ => rfl, by simp [put]⟩
    | object members key =>
      cases key with
      | none => cases h
      | some key => exact ⟨hpush, rfl, rfl, fun _ => rfl, by simp [put]⟩

/-! ### Refusing a value -/

/-- The object serializer takes every value. -/
theorem Descriptor.takes_of_unlisted {ty : Descriptor} (h : (writtenBuiltIns.lookup ty).isNone = true) (v : Value) :
    ty.builtInSerializer.takes v = true := by
  rw [builtInSerializer, Option.isNone_iff_eq_none.mp h]
  rfl

namespace WriteM
variable {s : Serializer} {v : Value}

theorem write_own (policy : Inclusion) (ty : Descriptor) (v : Value) (hobject : s ≠ .object)
    (helements : s ≠ .elements) : write policy s ty v = writeOwn s v := by
  cases s with
  | object => exact absurd rfl hobject
  | elements => exact absurd rfl helements
  | _ => cases v <;> rfl

theorem writeOwn_refused (hnull : s.takes .null = true) (hv : s.takes v = false) :
    writeOwn s v = mismatch (expectation s) v := by
  cases s with
  | object => cases hv
  | elements | constant tag empty absent => cases hnull
  | bigInteger => cases v with
    | null | bigInteger n => cases hv
    | _ => rfl
  | bigDecimal => cases v with
    | null | bigDecimal d => cases hv
    | _ => rfl
  | text t => cases v with
    | null => cases hv
    | textual t' x => exact if_neg (of_decide_eq_false hv)
    | _ => rfl
  | optional o => cases v with
    | null => cases hv
    | optional o' x => exact if_neg (of_decide_eq_false hv)
    | _ => rfl
  | primitiveArray k => cases v with
    | null => cases hv
    | primitiveArray k' xs => exact if_neg (of_decide_eq_false hv)
    | _ => rfl

/-- A serializer that takes null and not the value fails at once: the session stays as it was. -/
theorem run_write_refused (policy : Inclusion) (ty : Descriptor) (hnull : s.takes .null = true)
    (hv : s.takes v = false) (σ : Session Encoder) :
    write policy s ty v σ = (.error (.valueMismatch (expectation s) v.kindName), σ) := by
  have hobject : s ≠ .object := by rintro rfl; cases hv
  have helements : s ≠ .elements := by rintro rfl; cases hnull
  rw [write_own policy ty v hobject helements, writeOwn_refused hnull hv]
  rfl

end WriteM

theorem RegistryM.run_toWire_refused {r : Registry} (hr : r.Bare) {v : Value} {ty : Descriptor}
    (hv : ty.builtInSerializer.takes v = false) (policy : Option Inclusion) :
    ∃ r', toWire v ty policy r =
      (.error (.valueMismatch (WriteM.expectation ty.builtInSerializer) v.kindName), r') := by
  have hconfig : (get : RegistryM Registry) r = (.ok r, r) := rfl
  obtain ⟨found, r', hf, -, hcodec, -⟩ := hr.findSerializer ty
  have hnull := ty.takes_null
  rw [← hcodec] at hnull hv ⊢
  have hwrite := WriteM.run_write_refused (policy.getD r.config.inclusion) ty hnull hv ⟨r', .start⟩
  rw [toWire, run_bind_ok hconfig]
  exact ⟨r', SessionM.run_within ((run_bind_ok (SessionM.run_ask hf _)).trans (run_bind_error hwrite))⟩

/-! ### The contract -/

/-- Where nothing is registered, every type has a serializer, and wherever a value may be written, this
    serializer writes the value there and nothing else, or refuses it and has changed nothing. So a value
    becomes its tree or is refused, and the object serializer refuses none. -/
theorem Value.written_or_refused (policy : Inclusion) (ty : Descriptor) (v : Value) (history : List Lookup)
    {e : Encoder} (h : e.blocked? = none) :
    ∃ found r, RegistryM.findSerializer ty (Registry.builtInOnly.after history) = (.ok found, r) ∧
      (found.codec.takes v = true ∧
          (∃ r' e', e.Gains (v.tree policy) e' ∧
            WriteM.write policy found.codec ty v ⟨r, e⟩ = (.ok (), ⟨r', e'⟩)) ∧
          (∀ policy?, (RegistryM.toWire v ty policy? (Registry.builtInOnly.after history)).1 =
            .ok (v.tree (policy?.getD (Registry.builtInOnly.after history).config.inclusion))) ∨
        found.codec.takes v = false ∧ found.origin.isFallback = false ∧ ∃ expected,
          WriteM.write policy found.codec ty v ⟨r, e⟩ = (.error (.valueMismatch expected v.kindName), ⟨r, e⟩) ∧
          ∀ policy?, (RegistryM.toWire v ty policy? (Registry.builtInOnly.after history)).1 =
            .error (.valueMismatch expected v.kindName)) := by
  have hbare := Registry.Bare.after history
  obtain ⟨found, r, hf, hr, hcodec, hfallback⟩ := hbare.findSerializer ty
  refine ⟨found, r, hf, ?_⟩
  rw [hcodec]
  cases ht : ty.builtInSerializer.takes v with
  | true =>
    obtain ⟨r', -, hwrite⟩ := WriteM.run_write policy ty v ht hr h
    refine Or.inl ⟨rfl, ⟨r', e.put (v.tree policy), Encoder.gains_put h _, hwrite⟩, fun policy? => ?_⟩
    obtain ⟨_, -, htree⟩ := RegistryM.run_toWire hbare ht policy?
    exact congrArg Prod.fst htree
  | false =>
    have hlisted : found.origin.isFallback = false := by
      rw [hfallback, Bool.eq_false_iff]
      intro hl
      rw [Descriptor.takes_of_unlisted hl v] at ht
      cases ht
    refine Or.inr ⟨rfl, hlisted, _, WriteM.run_write_refused policy ty ty.takes_null ht _, fun policy? => ?_⟩
    obtain ⟨_, herror⟩ := RegistryM.run_toWire_refused hbare ht policy?
    exact congrArg Prod.fst herror

/-- A member that holds a list behind the key that waits for it, inside an array that has been begun. -/
theorem Value.written_or_refused_member :
    Encoder.blocked? ⟨none, [.object [] (some "ids"), .array [.leaf .null]]⟩ = none ∧
    ∃ r r', RegistryM.findSerializer .object (Registry.builtInOnly.after [.deserializer .string]) =
        (.ok Registry.builtInOnly.objectSerializer, r) ∧
      WriteM.write .nonNull .object .object (.list [.bigInteger 7, .object [("name", .null)]])
          ⟨r, ⟨none, [.object [] (some "ids"), .array [.leaf .null]]⟩⟩ =
        (.ok (), ⟨r', ⟨none, [.object [("ids", .array [.leaf (.bigInteger 7), .object []])] none,
          .array [.leaf .null]]⟩⟩) := by
  have hopen : Encoder.blocked? ⟨none, [.object [] (some "ids"), .array [.leaf .null]]⟩ = none := rfl
  obtain ⟨found, r, hf, hwritten⟩ := Value.written_or_refused .nonNull .object
    (.list [.bigInteger 7, .object [("name", .null)]]) [.deserializer .string] hopen
  have hfound : found = Registry.builtInOnly.objectSerializer := by
    have hok : (RegistryM.findSerializer .object (Registry.builtInOnly.after [.deserializer .string])).1 =
      .ok Registry.builtInOnly.objectSerializer := rfl
    rw [hf] at hok
    exact Except.ok.inj hok
  subst hfound
  rcases hwritten with ⟨-, ⟨r', e', hgains, hwrite⟩, -⟩ | ⟨-, hfallback, -⟩
  · obtain rfl : _ = e' := (Prod.mk.inj hgains.pushed).2
    exact ⟨hopen, r, r', hf, hwrite⟩
  · cases hfallback

end TypedWire
