import TypedWire.Binding
import TypedWire.Proofs.BuiltIns
import TypedWire.Proofs.EncoderRuns
import TypedWire.Proofs.Runs

/-! # The tree of a value

Where nothing is registered, a value becomes the same tree whichever serializer takes it: the object
serializer takes every value, and a serializer of a single type those of the type and null. The encoder is
left as if the finished tree had been put where it stood. -/

namespace TypedWire

/-! ### Trees -/

namespace Value

mutual
/-- The tree that a value becomes, without the members that the policy excludes. -/
def tree (policy : Inclusion) : Value → Wire
  | null => .null
  | scalar k x => .leaf (.ofScalar k x)
  | string s => .leaf (.string s)
  | bigInteger n => .leaf (.bigInteger n)
  | bigDecimal d => .leaf (.bigDecimal d)
  | textual t x => .leaf (.string (t.render x))
  | optional o (some x) => .leaf (.ofScalar o.kind x)
  | optional _ none => .null
  | primitiveArray k xs => .array (xs.map fun x => .leaf (.ofScalar k x))
  | array items => .array (trees policy items)
  | list items => .array (trees policy items)
  | object members => .object (memberTrees policy members [])

def trees (policy : Inclusion) : List Value → List Wire
  | [] => []
  | v :: vs => tree policy v :: trees policy vs

/-- The members of an object after those written so far. -/
def memberTrees (policy : Inclusion) : List (String × Value) → Members Wire → Members Wire
  | [], written => written
  | (key, v) :: ms, written =>
    memberTrees policy ms
      (if policy.includes v.naturalType.builtInSerializer v then Members.insert key (tree policy v) written
       else written)
end

def isContainer : Value → Bool
  | array _ | list _ | object _ => true
  | _ => false

/-- Whether the object serializer writes a value by its shape. -/
def isStructural : Value → Bool
  | null | scalar _ _ | string _ | array _ | list _ | object _ => true
  | _ => false

end Value

/-- Whether a built-in serializer takes a value. -/
def Serializer.takes : Serializer → Value → Bool
  | .object, _ => true
  | .elements, _ => false
  | .constant _ _ _, _ => false
  | _, .null => true
  | .bigInteger, .bigInteger _ => true
  | .bigDecimal, .bigDecimal _ => true
  | .text t, .textual t' _ => t = t'
  | .optional o, .optional o' _ => o = o'
  | .primitiveArray k, .primitiveArray k' _ => k = k'
  | _, _ => false

theorem Value.takes_naturalType (v : Value) : v.naturalType.builtInSerializer.takes v = true := by
  cases v with
  | scalar k x => cases k <;> rfl
  | textual t x => cases t <;> rfl
  | optional o x => cases o <;> rfl
  | primitiveArray k xs => cases k <;> rfl
  | _ => rfl

theorem Value.builtInSerializer_naturalType_ne {v : Value} (h : v.isStructural = false) :
    v.naturalType.builtInSerializer ≠ .object := by
  cases v with
  | null | scalar k x | string s | array items | list items | object members => cases h
  | bigInteger n | bigDecimal d => nofun
  | textual t x => exact Descriptor.builtInSerializer_text t ▸ nofun
  | optional o x => exact Descriptor.builtInSerializer_optional o ▸ nofun
  | primitiveArray k xs => exact Descriptor.builtInSerializer_primitiveArray k ▸ nofun

theorem Descriptor.takes_null (ty : Descriptor) : ty.builtInSerializer.takes .null = true :=
  builtInSerializer_induction (p := fun s => s.takes .null = true) rfl (by decide) ty

/-! ### Where a value may be written -/

namespace WriteM
variable {r r' : Registry} {e : Encoder}

theorem run_leaf (h : e.blocked? = none) (l : Leaf) : leaf l ⟨r, e⟩ = (.ok (), ⟨r, e.put (.leaf l)⟩) := by
  unfold leaf put
  refine SessionM.run_drive ?_ r
  simp only [emit, Encoder.step, Encoder.push, h, Except.mapError]

theorem run_key (members : Members Wire) (key : String) :
    put (.key key) ⟨r, e.inObject members⟩ = (.ok (), ⟨r, e.behindKey members key⟩) :=
  rfl

theorem run_scope_array (h : e.blocked? = none) {parts : WriteM Unit} {latest : List Wire}
    (hp : parts ⟨r, e.inArray []⟩ = (.ok (), ⟨r', e.inArray latest⟩)) :
    scope .openArray parts ⟨r, e⟩ = (.ok (), ⟨r', e.put (.array latest.reverse)⟩) := by
  have hopen : put .openArray ⟨r, e⟩ = (.ok (), ⟨r, e.inArray []⟩) := by
    refine SessionM.run_drive ?_ r
    simp only [emit, Encoder.step, Encoder.enter, h, Except.mapError, Encoder.inArray]
  have hclose : put .close ⟨r', e.inArray latest⟩ = (.ok (), ⟨r', e.put (.array latest.reverse)⟩) := by
    refine SessionM.run_drive ?_ r'
    simp only [emit, Encoder.step, Encoder.inArray, Encoder.push, h, Except.mapError]
  rw [scope, run_bind_ok hopen, run_bind_ok hp, hclose]

theorem run_scope_object (h : e.blocked? = none) {parts : WriteM Unit} {members : Members Wire}
    (hp : parts ⟨r, e.inObject []⟩ = (.ok (), ⟨r', e.inObject members⟩)) :
    scope .openObject parts ⟨r, e⟩ = (.ok (), ⟨r', e.put (.object members)⟩) := by
  have hopen : put .openObject ⟨r, e⟩ = (.ok (), ⟨r, e.inObject []⟩) := by
    refine SessionM.run_drive ?_ r
    simp only [emit, Encoder.step, Encoder.enter, h, Except.mapError, Encoder.inObject]
  have hclose : put .close ⟨r', e.inObject members⟩ = (.ok (), ⟨r', e.put (.object members)⟩) := by
    refine SessionM.run_drive ?_ r'
    simp only [emit, Encoder.step, Encoder.inObject, Encoder.push, h, Except.mapError]
  rw [scope, run_bind_ok hopen, run_bind_ok hp, hclose]

theorem run_leaves (row : List Leaf) (e : Encoder) (latest : List Wire) :
    EncoderM.leaves row (e.inArray latest) = (.ok (), e.inArray ((row.map Wire.leaf).reverse ++ latest)) := by
  unfold EncoderM.leaves
  induction row generalizing latest with
  | nil => rfl
  | cons l rest ih =>
    have hput : emit (.leaf l) (e.inArray latest) = (.ok (), e.inArray (.leaf l :: latest)) := rfl
    rw [List.forM_eq_forM, List.forM_cons, run_bind_ok hput, ← List.forM_eq_forM, ih]
    simp

/-! ### Writing by a serializer that takes the value -/

theorem run_writeOwn (policy : Inclusion) (h : e.blocked? = none) {s : Serializer} {v : Value}
    (hobject : s ≠ .object) (ht : s.takes v = true) :
    writeOwn s v ⟨r, e⟩ = (.ok (), ⟨r, e.put (v.tree policy)⟩) := by
  cases s with
  | object => exact absurd rfl hobject
  | elements => cases ht
  | constant tag empty absent => cases ht
  | bigInteger => cases v with
    | null | bigInteger n => exact run_leaf h _
    | _ => cases ht
  | bigDecimal => cases v with
    | null | bigDecimal d => exact run_leaf h _
    | _ => cases ht
  | text t => cases v with
    | null => exact run_leaf h _
    | textual t' x =>
      obtain rfl : t = t' := by simpa [Serializer.takes] using ht
      simp only [writeOwn, if_true]
      exact run_leaf h _
    | _ => cases ht
  | optional o => cases v with
    | null => exact run_leaf h _
    | optional o' x =>
      obtain rfl : o = o' := by simpa [Serializer.takes] using ht
      cases x <;> simp only [writeOwn, if_true] <;> exact run_leaf h _
    | _ => cases ht
  | primitiveArray k => cases v with
    | null => exact run_leaf h _
    | primitiveArray k' xs =>
      obtain rfl : k = k' := by simpa [Serializer.takes] using ht
      simp only [writeOwn, if_true, scalarRow]
      rw [run_scope_array h (SessionM.run_drive (run_leaves _ e []) r), List.append_nil, List.reverse_reverse,
        List.map_map]
      rfl
    | _ => cases ht

theorem writePlain_of_not_structural {v : Value} (h : v.isStructural = false) :
    writePlain v = (do
      let found ← SessionM.ask (RegistryM.findSerializer v.naturalType)
      if found.origin.isFallback then mismatch (expectation .object) v
      else writeOwn found.codec v) := by
  cases v with
  | null | scalar k x | string s | array items | list items | object members => cases h
  | _ => rfl

/-- The object serializer leaves a value that is no container, scalar or string to the serializer of its
    natural type, which is a built-in one. -/
theorem run_writePlain (policy : Inclusion) (hr : r.Bare) (h : e.blocked? = none) {v : Value}
    (hv : v.isContainer = false) :
    ∃ r', r'.Bare ∧ writePlain v ⟨r, e⟩ = (.ok (), ⟨r', e.put (v.tree policy)⟩) := by
  cases hstructural : v.isStructural with
  | true => cases v with
    | null | scalar k x | string s => exact ⟨r, hr, run_leaf h _⟩
    | array items | list items | object members => cases hv
    | _ => cases hstructural
  | false =>
    have hobject := Value.builtInSerializer_naturalType_ne hstructural
    obtain ⟨found, r', hf, hr', hcodec, hfallback⟩ := hr.findSerializer v.naturalType
    have hlisted : (writtenBuiltIns.lookup v.naturalType).isNone = false := by
      cases hl : writtenBuiltIns.lookup v.naturalType with
      | some codec => rfl
      | none =>
        rw [Descriptor.builtInSerializer, hl] at hobject
        exact absurd rfl hobject
    refine ⟨r', hr', ?_⟩
    rw [writePlain_of_not_structural hstructural, run_bind_ok (SessionM.run_ask hf e), hfallback, hlisted, hcodec]
    exact run_writeOwn policy h hobject v.takes_naturalType

/-! ### Writing any value -/

theorem write_flat (policy : Inclusion) (s : Serializer) (ty : Descriptor) {v : Value}
    (hv : v.isContainer = false) :
    write policy s ty v = match s with
      | .object => writePlain v
      | s => writeOwn s v := by
  cases v with
  | array items | list items | object members => cases hv
  | _ => cases s <;> rfl

theorem run_writeFlat (policy : Inclusion) (ty : Descriptor) {v : Value} (hv : v.isContainer = false)
    {s : Serializer} (ht : s.takes v = true) (hr : r.Bare) (h : e.blocked? = none) :
    ∃ r', r'.Bare ∧ write policy s ty v ⟨r, e⟩ = (.ok (), ⟨r', e.put (v.tree policy)⟩) := by
  rw [write_flat policy s ty hv]
  cases s with
  | object => exact run_writePlain policy hr h hv
  | _ => exact ⟨r, hr, run_writeOwn policy h nofun ht⟩

mutual
/-- A serializer that takes a value puts its tree where the encoder stands. -/
theorem run_write (policy : Inclusion) (ty : Descriptor) : ∀ (v : Value) {s : Serializer} {r : Registry} {e : Encoder},
    s.takes v = true → r.Bare → e.blocked? = none →
    ∃ r', r'.Bare ∧ write policy s ty v ⟨r, e⟩ = (.ok (), ⟨r', e.put (v.tree policy)⟩)
  | .array items, s, r, e, ht, hr, h | .list items, s, r, e, ht, hr, h => by
    cases s with
    | object =>
      obtain ⟨r', hr', hrun⟩ := run_writeItems policy items hr e []
      refine ⟨r', hr', ?_⟩
      rw [write, run_scope_array h hrun, List.append_nil, List.reverse_reverse]
      rfl
    | _ => cases ht
  | .object members, s, r, e, ht, hr, h => by
    cases s with
    | object =>
      obtain ⟨r', hr', hrun⟩ := run_writeMembers policy members hr e []
      exact ⟨r', hr', run_scope_object h hrun⟩
    | _ => cases ht
  | .null, _, _, _, ht, hr, h | .scalar _ _, _, _, _, ht, hr, h | .string _, _, _, _, ht, hr, h
  | .bigInteger _, _, _, _, ht, hr, h | .bigDecimal _, _, _, _, ht, hr, h | .textual _ _, _, _, _, ht, hr, h
  | .optional _ _, _, _, _, ht, hr, h | .primitiveArray _ _, _, _, _, ht, hr, h =>
    run_writeFlat policy ty rfl ht hr h

theorem run_writeItems (policy : Inclusion) : ∀ (items : List Value) {r : Registry}, r.Bare →
    ∀ (e : Encoder) (latest : List Wire), ∃ r', r'.Bare ∧
      writeItems policy items ⟨r, e.inArray latest⟩ =
        (.ok (), ⟨r', e.inArray ((Value.trees policy items).reverse ++ latest)⟩)
  | [], r, hr, e, latest => ⟨r, hr, rfl⟩
  | v :: vs, r, hr, e, latest => by
    obtain ⟨found, r₁, hf, hr₁, hcodec, -⟩ := hr.findSerializer v.naturalType
    obtain ⟨r₂, hr₂, hwrite⟩ := run_write policy v.naturalType v (hcodec ▸ v.takes_naturalType) hr₁
      (e.blocked?_inArray latest)
    obtain ⟨r₃, hr₃, hrest⟩ := run_writeItems policy vs hr₂ e (v.tree policy :: latest)
    refine ⟨r₃, hr₃, ?_⟩
    rw [writeItems, run_bind_ok (SessionM.run_ask hf _), run_bind_ok hwrite, e.put_inArray, hrest, Value.trees,
      List.reverse_cons, List.append_assoc]
    rfl

theorem run_writeMembers (policy : Inclusion) : ∀ (members : List (String × Value)) {r : Registry}, r.Bare →
    ∀ (e : Encoder) (written : Members Wire), ∃ r', r'.Bare ∧
      writeMembers policy members ⟨r, e.inObject written⟩ =
        (.ok (), ⟨r', e.inObject (Value.memberTrees policy members written)⟩)
  | [], r, hr, e, written => ⟨r, hr, rfl⟩
  | (key, v) :: ms, r, hr, e, written => by
    obtain ⟨found, r₁, hf, hr₁, hcodec, -⟩ := hr.findSerializer v.naturalType
    rw [writeMembers, run_bind_ok (SessionM.run_ask hf _), Value.memberTrees, hcodec]
    cases hi : policy.includes v.naturalType.builtInSerializer v with
    | false => exact run_writeMembers policy ms hr₁ e written
    | true =>
      obtain ⟨r₂, hr₂, hwrite⟩ := run_write policy v.naturalType v v.takes_naturalType hr₁
        (e.blocked?_behindKey written key)
      obtain ⟨r₃, hr₃, hrest⟩ := run_writeMembers policy ms hr₂ e (Members.insert key (v.tree policy) written)
      refine ⟨r₃, hr₃, ?_⟩
      rw [if_pos rfl, if_pos rfl, run_bind_ok (run_key written key), run_bind_ok hwrite, e.put_behindKey]
      exact hrest
end

end WriteM

theorem RegistryM.run_toWire {r : Registry} (hr : r.Bare) {v : Value} {ty : Descriptor}
    (ht : ty.builtInSerializer.takes v = true) (policy : Option Inclusion) :
    ∃ r', r'.Bare ∧ toWire v ty policy r = (.ok (v.tree (policy.getD r.config.inclusion)), r') := by
  have hconfig : (get : RegistryM Registry) r = (.ok r, r) := rfl
  rw [toWire, run_bind_ok hconfig]
  generalize policy.getD r.config.inclusion = p
  obtain ⟨found, r₁, hf, hr₁, hcodec, -⟩ := hr.findSerializer ty
  obtain ⟨r₂, hr₂, hwrite⟩ := WriteM.run_write p ty v (hcodec ▸ ht) hr₁ (e := .start) rfl
  have hfinish : EncoderM.finish (Encoder.start.put (v.tree p)) = (.ok (v.tree p), Encoder.start.put (v.tree p)) := rfl
  exact ⟨r₂, hr₂, SessionM.run_within ((run_bind_ok (SessionM.run_ask hf _)).trans
    ((run_bind_ok hwrite).trans (SessionM.run_drive hfinish r₂)))⟩

end TypedWire
