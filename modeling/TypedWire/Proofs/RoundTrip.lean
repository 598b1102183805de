import TypedWire.Proofs.Identifiers
import TypedWire.Proofs.ReadTree
import TypedWire.Proofs.WriteTree

/-! # Values that come back from the wire

A value is written by its own shape and read by the type that is asked for. For the types told here both
agree at every depth: what is read is the value that was written. -/

namespace TypedWire

/-! ### Types and their values -/

/-- The types that the wire keeps apart: all scalars but `float`, the classes of text, big numbers and
    optionals, and the arrays of these. -/
inductive RawType.Faithful : RawType → Prop
  | primitive {k : Kind} (hk : k ≠ .float) : Faithful (.primitive k)
  | boxed {k : Kind} (hk : k ≠ .float) : Faithful (.boxed k)
  | string : Faithful (.classType Class.string)
  | bigInteger : Faithful (.classType Class.bigInteger)
  | bigDecimal : Faithful (.classType Class.bigDecimal)
  | textual (t : TextType) : Faithful (.classType t.toClass)
  | optional (o : OptionalKind) : Faithful (.classType o.toClass)
  | primitiveArray {k : Kind} (hk : k ≠ .float) : Faithful (.array (.primitive k))
  | array {component : RawType} (hc : component.isPrimitive = false) (h : Faithful component) :
    Faithful (.array component)

/-- Whether null is a value of a type: of references, but of no optional. -/
def RawType.takesNull : RawType → Bool
  | primitive _ => false
  | classType c => c ∉ [Class.optionalInt, Class.optionalLong, Class.optionalDouble]
  | _ => true

/-- The values of a type. Of a URL or a locale it is asked that its own text is read as it. -/
inductive Inhabits : RawType → Value → Prop
  | null {raw : RawType} (h : raw.takesNull = true) : Inhabits raw .null
  | primitive {k : Kind} (x : k.Carrier) : Inhabits (.primitive k) (.scalar k x)
  | boxed {k : Kind} (x : k.Carrier) : Inhabits (.boxed k) (.scalar k x)
  | string (s : String) : Inhabits (.classType Class.string) (.string s)
  | bigInteger (n : Int) : Inhabits (.classType Class.bigInteger) (.bigInteger n)
  | bigDecimal (d : Decimal) : Inhabits (.classType Class.bigDecimal) (.bigDecimal d)
  | textual {t : TextType} {x : t.Carrier} (h : t.Restorable x) : Inhabits (.classType t.toClass) (.textual t x)
  | optional (o : OptionalKind) (x : Option o.kind.Carrier) : Inhabits (.classType o.toClass) (.optional o x)
  | primitiveArray {k : Kind} (xs : List k.Carrier) : Inhabits (.array (.primitive k)) (.primitiveArray k xs)
  | array {component : RawType} {items : List Value} (hc : component.isPrimitive = false)
    (h : ∀ v ∈ items, Inhabits component v) : Inhabits (.array component) (.array items)

/-! ### Scalars -/

section Scalars
variable {k : Kind} (x : k.Carrier)

theorem isNull_ofScalar : (Wire.leaf (.ofScalar k x)).isNull = false := by
  cases k <;> rfl

theorem readWidth_of_fits {α : Type} (target : Kind) {bits : Nat} (narrow : Int → α) {n : Int64}
    (hlow : -(2 ^ (bits - 1)) ≤ n.toInt) (hhigh : n.toInt < 2 ^ (bits - 1)) :
    (Wire.leaf (.integer n)).readWidth target bits narrow = .ok (narrow n.toInt) := by
  simp only [Wire.readWidth, Wire.readInt64, bind, Except.bind, hlow, hhigh, and_self, if_true]
  rfl

theorem readScalar_ofScalar (hk : k ≠ .float) : (Wire.leaf (.ofScalar k x)).readScalar k = .ok x := by
  cases k with
  | boolean | long | double => rfl
  | float => exact absurd rfl hk
  | byte =>
    have hwide := Int8.toInt_toInt64 x
    refine (readWidth_of_fits .byte Int8.ofInt (hwide ▸ Int8.le_toInt x) (hwide ▸ Int8.toInt_lt x)).trans ?_
    rw [hwide, Int8.ofInt_toInt]
  | short =>
    have hwide := Int16.toInt_toInt64 x
    refine (readWidth_of_fits .short Int16.ofInt (hwide ▸ Int16.le_toInt x) (hwide ▸ Int16.toInt_lt x)).trans ?_
    rw [hwide, Int16.ofInt_toInt]
  | int =>
    have hwide := Int32.toInt_toInt64 x
    refine (readWidth_of_fits .int Int32.ofInt (hwide ▸ Int32.le_toInt x) (hwide ▸ Int32.toInt_lt x)).trans ?_
    rw [hwide, Int32.ofInt_toInt]
  | char => simp [Wire.readScalar, Leaf.ofScalar, Wire.readChar]

theorem readRow_ofScalars (hk : k ≠ .float) (xs : List k.Carrier) :
    (Wire.array (xs.map fun x => .leaf (.ofScalar k x))).readRow k = .ok xs := by
  show (xs.map fun x => Wire.leaf (.ofScalar k x)).mapM (Wire.readScalarOrZero k) = .ok xs
  induction xs with
  | nil => rfl
  | cons x xs ih =>
    have hx : (Wire.leaf (.ofScalar k x)).readScalarOrZero k = .ok x := by
      rw [Wire.readScalarOrZero, isNull_ofScalar, readScalar_ofScalar x hk]
      rfl
    rw [List.map_cons, List.mapM_cons, hx, ih]
    rfl

end Scalars

/-! ### Codecs of faithful types -/

namespace Descriptor
variable {ty : Descriptor}

theorem builtInDeserializer_primitive (k : Kind) :
    (ofRaw (.primitive k)).builtInDeserializer = .plain (.scalar k) := by
  cases k <;> rfl

theorem builtInDeserializer_boxed (k : Kind) :
    (ofRaw (.boxed k)).builtInDeserializer = (Deserializer.plain (.scalar k)).nullable := by
  cases k <;> rfl

theorem builtInDeserializer_text (t : TextType) :
    (ofRaw (.classType t.toClass)).builtInDeserializer = .plain (.text t) := by
  cases t <;> rfl

theorem builtInDeserializer_optional (o : OptionalKind) :
    (ofRaw (.classType o.toClass)).builtInDeserializer = .plain (.optional o) := by
  cases o <;> rfl

theorem builtInDeserializer_primitiveArray (k : Kind) :
    (ofRaw (.array (.primitive k))).builtInDeserializer = .plain (.primitiveArray k) := by
  cases k <;> rfl

theorem value_string (t : TextType) (s : String) : (Wire.leaf (.string s)).value (ofClass t.toClass) =
    ((t.parse s).mapError (.parse t.name s)).map (.textual t) := by
  rw [Wire.value_eq_make, ofClass, builtInDeserializer_text]
  rfl

/-- The only arrays that have codecs of their own are those of unboxed scalars. -/
theorem lookup_references {C : Type} {table : List (Descriptor × C)} {component : RawType}
    (htable : ∀ b ∈ table, b.1.raw.component?.all (·.isPrimitive) = true) (hc : component.isPrimitive = false) :
    table.lookup (ofRaw (.array component)) = none :=
  lookup_eq_none_of_keys (p := fun d => d.raw.component?.all (·.isPrimitive)) (fun _ _ hkey => by rw [raw_congr hkey])
    htable (show (some component).all (·.isPrimitive) = false from hc)

theorem builtInSerializer_references {component : RawType} (hc : component.isPrimitive = false) :
    (ofRaw (.array component)).builtInSerializer = .object := by
  rw [builtInSerializer, lookup_references (by decide) hc]
  rfl

theorem builtInDeserializer_references {component : RawType} (hc : component.isPrimitive = false) :
    (ofRaw (.array component)).builtInDeserializer = .plain .objectArray := by
  rw [builtInDeserializer, lookup_references (by decide) hc]
  rfl

end Descriptor

/-! ### The round trip -/

theorem values_trees {c : Descriptor} (policy : Inclusion) {items : List Value}
    (h : ∀ v ∈ items, (v.tree policy).value c = .ok v) : Wire.values c (Value.trees policy items) = .ok items := by
  induction items with
  | nil => rfl
  | cons v vs ih =>
    rw [Value.trees, Wire.values, h v (List.mem_cons_self ..), ih fun v' hv' => h v' (List.mem_cons_of_mem _ hv')]
    rfl

section Leaves
variable {raw : RawType}

theorem RawType.Faithful.value_null (hraw : raw.Faithful) (h : raw.takesNull = true) :
    (Wire.leaf .null).value (.ofRaw raw) = .ok .null := by
  rw [Wire.value_eq_make]
  cases hraw with
  | primitive hk => cases h
  | boxed hk => rw [Descriptor.builtInDeserializer_boxed]; rfl
  | string | bigInteger | bigDecimal => rfl
  | textual t => rw [Descriptor.builtInDeserializer_text]; rfl
  | optional o => cases o <;> cases h
  | primitiveArray hk => rw [Descriptor.builtInDeserializer_primitiveArray]; rfl
  | array hc hraw => rw [Descriptor.builtInDeserializer_references hc]; rfl

theorem value_ofScalar {k : Kind} (hk : k ≠ .float) (x : k.Carrier) :
    (Wire.leaf (.ofScalar k x)).value (.ofRaw (.primitive k)) = .ok (.scalar k x) ∧
    (Wire.leaf (.ofScalar k x)).value (.ofRaw (.boxed k)) = .ok (.scalar k x) := by
  have hread : (((Wire.leaf (.ofScalar k x)).readScalar k).map (.scalar k) : Except CodecError Value) =
      .ok (.scalar k x) := by
    rw [readScalar_ofScalar x hk]
    rfl
  rw [Wire.value_eq_make, Wire.value_eq_make, Descriptor.builtInDeserializer_primitive,
    Descriptor.builtInDeserializer_boxed]
  refine ⟨hread, ?_⟩
  show (Wire.leaf (.ofScalar k x)).unlessNull _ = _
  rw [Wire.unlessNull, isNull_ofScalar]
  exact hread

theorem value_ofOptional (o : OptionalKind) (policy : Inclusion) (x : Option o.kind.Carrier) :
    ((Value.optional o x).tree policy).value (.ofRaw (.classType o.toClass)) = .ok (.optional o x) := by
  rw [Wire.value_eq_make, Descriptor.builtInDeserializer_optional]
  cases x with
  | none => rfl
  | some x =>
    have hkind : o.kind ≠ .float := by cases o <;> decide
    have hread : (Wire.leaf (.ofScalar o.kind x)).readOptional o.kind = .ok (some x) := by
      rw [Wire.readOptional, isNull_ofScalar, readScalar_ofScalar x hkind]
      rfl
    exact congrArg (Except.map (Value.optional o)) hread

end Leaves

/-- The tree of a value of a faithful type is read as that value. -/
theorem Inhabits.value_tree (policy : Inclusion) {raw : RawType} (hraw : raw.Faithful) {v : Value}
    (hv : Inhabits raw v) : (v.tree policy).value (.ofRaw raw) = .ok v := by
  -- The type decides how the tree is read, so both the value and the type are taken apart; the induction is for
  -- the items of arrays.
  induction hv with
  | null h => exact hraw.value_null h
  | primitive x =>
    cases hraw with
    | primitive hk => exact (value_ofScalar hk x).1
  | boxed x =>
    cases hraw with
    | boxed hk => exact (value_ofScalar hk x).2
  | string s | bigInteger n | bigDecimal d => rfl
  | @textual t x h =>
    have hread := Descriptor.value_string t (t.render x)
    rw [TextType.parse_render h] at hread
    exact hread
  | optional o x => exact value_ofOptional o policy x
  | @primitiveArray k xs =>
    cases hraw with
    | primitiveArray hk =>
      rw [Wire.value_eq_make, Descriptor.builtInDeserializer_primitiveArray]
      exact congrArg (Except.map (Value.primitiveArray k)) (readRow_ofScalars hk xs)
    | array hc => cases hc
  | @array component items hc h ih =>
    cases hraw with
    | primitiveArray hk => cases hc
    | array _ hraw =>
      rw [Wire.value_eq_make, Descriptor.builtInDeserializer_references hc]
      exact congrArg (Except.map Value.array) (values_trees policy fun v hv => ih v hv hraw)

theorem Inhabits.takes {raw : RawType} {v : Value} (hv : Inhabits raw v) :
    (Descriptor.ofRaw raw).builtInSerializer.takes v = true := by
  have hnatural := v.takes_naturalType
  cases hv with
  | null => exact Descriptor.takes_null _
  | @primitive k x => cases k <;> rfl
  | boxed | string | bigInteger | bigDecimal | textual | optional | primitiveArray => exact hnatural
  | array hc => rw [Descriptor.builtInSerializer_references hc]; rfl

/-- A value of a faithful type without parameters comes back from the wire as it was, whatever has been asked
    of the registries that write and read it, and whatever variable the type stands for. -/
theorem Inhabits.fromWire_toWire {ty : Descriptor} (hparams : ty.params = []) (hraw : ty.raw.Faithful) {v : Value}
    (hv : Inhabits ty.raw v) (policy : Option Inclusion) (history : List Lookup) :
    ∃ w r, RegistryM.toWire v ty policy (Registry.builtInOnly.after history) = (.ok w, r) ∧
      (RegistryM.fromWire w ty r).1 = .ok v ∧
      ∀ other, (RegistryM.fromWire w ty (Registry.builtInOnly.after other)).1 = .ok v := by
  have hkey := Descriptor.beq_ofRaw hparams
  have htakes := hv.takes
  rw [← Descriptor.builtInSerializer_congr hkey] at htakes
  obtain ⟨r, hr, hwrite⟩ := RegistryM.run_toWire (Registry.Bare.after history) htakes policy
  have hread (w : Wire) : w.value ty = w.value (.ofRaw ty.raw) := by
    rw [Wire.value_eq_make, Wire.value_eq_make, Descriptor.builtInDeserializer_congr hkey]
    obtain ⟨raw, params, variableName?⟩ := ty
    obtain rfl : params = [] := hparams
    rfl
  refine ⟨_, r, hwrite, ?_, fun other => ?_⟩
  · rw [RegistryM.run_fromWire hr, hread, hv.value_tree _ hraw]
  · rw [RegistryM.run_fromWire (.after other), hread, hv.value_tree _ hraw]

/-- An array of arrays of `Integer`, one of them null and one with a null in it. -/
theorem Inhabits.fromWire_toWire_integers :
    (Descriptor.arrayOf (.arrayOf (.boxed .int))).params = [] ∧
    (Descriptor.arrayOf (.arrayOf (.boxed .int))).raw.Faithful ∧
    Inhabits (Descriptor.arrayOf (.arrayOf (.boxed .int))).raw
      (.array [.null, .array [.scalar .int (-7 : Int32), .null]]) ∧
    ∃ w r, RegistryM.toWire (.array [.null, .array [.scalar .int (-7 : Int32), .null]])
        (.arrayOf (.arrayOf (.boxed .int))) none (Registry.builtInOnly.after []) = (.ok w, r) ∧
      (RegistryM.fromWire w (.arrayOf (.arrayOf (.boxed .int))) r).1 =
        .ok (.array [.null, .array [.scalar .int (-7 : Int32), .null]]) ∧
      ∀ other, (RegistryM.fromWire w (.arrayOf (.arrayOf (.boxed .int))) (Registry.builtInOnly.after other)).1 =
        .ok (.array [.null, .array [.scalar .int (-7 : Int32), .null]]) := by
  have hraw : (Descriptor.arrayOf (.arrayOf (.boxed .int))).raw.Faithful :=
    .array rfl (.array rfl (.boxed (by decide)))
  have hv : Inhabits (Descriptor.arrayOf (.arrayOf (.boxed .int))).raw
      (.array [.null, .array [.scalar .int (-7 : Int32), .null]]) := by
    refine .array rfl fun v hv => ?_
    rcases List.mem_pair.mp hv with rfl | rfl
    · exact .null rfl
    · refine .array rfl fun v hv => ?_
      rcases List.mem_pair.mp hv with rfl | rfl
      · exact .boxed _
      · exact .null rfl
  exact ⟨rfl, hraw, hv, hv.fromWire_toWire rfl hraw none []⟩

end TypedWire
