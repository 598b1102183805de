import TypedWire.Proofs.RoundTrip

/-! # Carriers of integers

An integer of 64 bits travels as such or as a big integer, and shows the same token either way. Every reader takes it
from both carriers alike but one: a character is read from the code point that a 64-bit integer carries, and a big
integer is refused. So two trees that differ in carriers alone are read as the same value, or refused for the same
reason, unless a character is asked for. -/

namespace TypedWire

/-- The types of characters: `char`, its boxed form, and the arrays of these to any depth. -/
def RawType.isOfChars : RawType → Bool
  | primitive k | boxed k => k = .char
  | array t => t.isOfChars
  | classType _ => false

/-- Whether a character may be read for a type. A scalar with parameters is no scalar to a registry, but an array with
    parameters is an array. -/
def Descriptor.isOfChars (ty : Descriptor) : Bool :=
  ty.raw.isOfChars && (ty.isArray || !ty.hasParams)

/-! ### Trees with other carriers -/

/-- Two leaves are one leaf, or carry one integer of 64 bits. -/
inductive Leaf.Recarried : Leaf → Leaf → Prop
  | same (l : Leaf) : Recarried l l
  | widened (n : Int64) : Recarried (.integer n) (.bigInteger n.toInt)
  | narrowed (n : Int64) : Recarried (.bigInteger n.toInt) (.integer n)

namespace Wire

mutual
/-- Two trees differ in nothing but the carriers of some integers of 64 bits. -/
inductive Recarried : Wire → Wire → Prop
  | leaf {l m : Leaf} (h : l.Recarried m) : Recarried (.leaf l) (.leaf m)
  | array {items others : List Wire} (h : ItemsRecarried items others) : Recarried (.array items) (.array others)
  | object {members others : List (String × Wire)} (h : MembersRecarried members others) :
    Recarried (.object members) (.object others)

inductive ItemsRecarried : List Wire → List Wire → Prop
  | nil : ItemsRecarried [] []
  | cons {a b : Wire} {items others : List Wire} (h : Recarried a b) (hrest : ItemsRecarried items others) :
    ItemsRecarried (a :: items) (b :: others)

inductive MembersRecarried : List (String × Wire) → List (String × Wire) → Prop
  | nil : MembersRecarried [] []
  | cons (key : String) {a b : Wire} {members others : List (String × Wire)} (h : Recarried a b)
    (hrest : MembersRecarried members others) : MembersRecarried ((key, a) :: members) ((key, b) :: others)
end

end Wire

/-! ### Outcomes -/

/-- The refusal of an integer where a character is asked for: a 64-bit integer is never refused so. -/
def CodecError.integerForChar : CodecError :=
  .unexpectedToken Kind.char.name .integer

/-- Two outcomes are the same; or characters are read, and one of the outcomes is that an integer is refused for a
    character. -/
def SameButChars {α : Type} (chars : Bool) (x y : Except CodecError α) : Prop :=
  x = y ∨ chars = true ∧ (x = .error .integerForChar ∨ y = .error .integerForChar)

namespace SameButChars
variable {α β : Type} {chars : Bool} {x y : Except CodecError α}

theorem of_eq (h : x = y) : SameButChars chars x y :=
  Or.inl h

theorem refl (x : Except CodecError α) : SameButChars chars x x :=
  of_eq rfl

theorem mono {more : Bool} (hchars : chars = true → more = true) (h : SameButChars chars x y) :
    SameButChars more x y :=
  h.imp_right fun ⟨hc, hrefused⟩ => ⟨hchars hc, hrefused⟩

theorem bind {f g : α → Except CodecError β} (h : SameButChars chars x y) (hf : ∀ a, SameButChars chars (f a) (g a)) :
    SameButChars chars (x.bind f) (y.bind g) := by
  rcases h with rfl | ⟨hc, rfl | rfl⟩
  · cases x with
    | ok a => exact hf a
    | error e => exact refl _
  · exact Or.inr ⟨hc, Or.inl rfl⟩
  · exact Or.inr ⟨hc, Or.inr rfl⟩

theorem map (f : α → β) (h : SameButChars chars x y) : SameButChars chars (x.map f) (y.map f) := by
  rcases h with rfl | ⟨hc, rfl | rfl⟩
  · exact refl _
  · exact Or.inr ⟨hc, Or.inl rfl⟩
  · exact Or.inr ⟨hc, Or.inr rfl⟩

end SameButChars

/-! ### Reading from either carrier -/

namespace Wire
variable {a b : Wire} {α : Type}

/-- A reader that takes an integer of 64 bits from either carrier, and makes of an array or an object what does not
    depend on the parts, reads the same from trees that differ in carriers. -/
theorem Recarried.read_eq (h : a.Recarried b) (read : Wire → α)
    (hinteger : ∀ n : Int64, read (.leaf (.integer n)) = read (.leaf (.bigInteger n.toInt)))
    (harray : ∀ items others, read (.array items) = read (.array others))
    (hobject : ∀ members others, read (.object members) = read (.object others)) : read a = read b := by
  cases h with
  | leaf h =>
    cases h with
    | same l => rfl
    | widened n => exact hinteger n
    | narrowed n => exact (hinteger n).symm
  | array h => exact harray _ _
  | object h => exact hobject _ _

theorem Recarried.token_eq (h : a.Recarried b) : a.token = b.token :=
  h.read_eq token (fun _ => rfl) (fun _ _ => rfl) fun _ _ => rfl

theorem Recarried.isNull_eq (h : a.Recarried b) : a.isNull = b.isNull :=
  congrArg (decide <| · = Token.null) h.token_eq

theorem Recarried.readInt64_eq (h : a.Recarried b) (target : Kind) : a.readInt64 target = b.readInt64 target :=
  h.read_eq _ (fun n => by simp only [readInt64, int64?_toInt]) (fun _ _ => rfl) fun _ _ => rfl

theorem Recarried.readWidth_eq (h : a.Recarried b) (target : Kind) (bits : Nat) (narrow : Int → α) :
    a.readWidth target bits narrow = b.readWidth target bits narrow := by
  rw [readWidth, readWidth, h.readInt64_eq]

theorem Recarried.readScalar_eq (h : a.Recarried b) {k : Kind} (hk : k ≠ .char) : a.readScalar k = b.readScalar k := by
  cases k with
  | byte | short | int => exact h.readWidth_eq _ _ _
  | long => exact h.readInt64_eq .long
  | boolean | float | double => exact h.read_eq _ (fun _ => rfl) (fun _ _ => rfl) fun _ _ => rfl
  | char => exact absurd rfl hk

theorem Recarried.readString_eq (h : a.Recarried b) : a.readString = b.readString :=
  h.read_eq _ (fun _ => rfl) (fun _ _ => rfl) fun _ _ => rfl

theorem Recarried.readBigInteger_eq (h : a.Recarried b) : a.readBigInteger = b.readBigInteger :=
  h.read_eq _ (fun _ => rfl) (fun _ _ => rfl) fun _ _ => rfl

theorem Recarried.readBigDecimal_eq (h : a.Recarried b) : a.readBigDecimal = b.readBigDecimal :=
  h.read_eq _ (fun _ => rfl) (fun _ _ => rfl) fun _ _ => rfl

theorem Recarried.readOptional_eq (h : a.Recarried b) (o : OptionalKind) :
    a.readOptional o.kind = b.readOptional o.kind := by
  have hkind : o.kind ≠ .char := by cases o <;> decide
  rw [readOptional, readOptional, h.isNull_eq, h.readScalar_eq hkind]

/-- A character is refused from a big integer, whatever the integer is. -/
theorem Recarried.readChar (h : a.Recarried b) : SameButChars true a.readChar b.readChar := by
  cases h with
  | leaf h =>
    cases h with
    | same l => exact .refl _
    | widened n => exact Or.inr ⟨rfl, Or.inr rfl⟩
    | narrowed n => exact Or.inr ⟨rfl, Or.inl rfl⟩
  | array h | object h => exact .refl _

variable {chars : Bool}

theorem Recarried.readScalar (h : a.Recarried b) {k : Kind} (hk : k = .char → chars = true) :
    SameButChars chars (a.readScalar k) (b.readScalar k) := by
  by_cases hchar : k = .char
  · subst hchar
    exact h.readChar.mono fun _ => hk rfl
  · exact .of_eq (h.readScalar_eq hchar)

theorem Recarried.readScalarOrZero (h : a.Recarried b) {k : Kind} (hk : k = .char → chars = true) :
    SameButChars chars (a.readScalarOrZero k) (b.readScalarOrZero k) := by
  unfold Wire.readScalarOrZero
  rw [h.isNull_eq]
  split
  · exact .refl _
  · exact h.readScalar hk

theorem ItemsRecarried.mapM {read : Wire → Except CodecError α}
    (hread : ∀ {a b : Wire}, a.Recarried b → SameButChars chars (read a) (read b)) :
    ∀ {items others : List Wire}, ItemsRecarried items others → SameButChars chars (items.mapM read) (others.mapM read)
  | _, _, .nil => .refl _
  | _, _, .cons h hrest => by
    rw [List.mapM_cons, List.mapM_cons]
    exact (hread h).bind fun x => (hrest.mapM hread).bind fun xs => .refl _

theorem Recarried.unlessNull (h : a.Recarried b) {x y : Except CodecError Value} (hx : SameButChars chars x y) :
    SameButChars chars (a.unlessNull x) (b.unlessNull y) := by
  unfold Wire.unlessNull
  rw [h.isNull_eq]
  split
  · exact .refl _
  · exact hx

theorem Recarried.ifArray (h : a.Recarried b) {x y : Except CodecError α} (hx : SameButChars chars x y) :
    SameButChars chars (a.ifArray x) (b.ifArray y) := by
  cases h with
  | leaf h =>
    have htoken := (Recarried.leaf h).token_eq
    refine .of_eq ?_
    simp only [Wire.ifArray, Wire.unexpected, htoken]
  | array h => exact hx
  | object h => exact .refl _

theorem Recarried.readRow (h : a.Recarried b) {k : Kind} (hk : k = .char → chars = true) :
    SameButChars chars (a.readRow k) (b.readRow k) := by
  refine h.ifArray ?_
  cases h with
  | leaf h | object h => exact .refl _
  | array h => exact h.mapM fun h => h.readScalarOrZero hk

theorem Recarried.leafValue_eq {l m : Leaf} (h : l.Recarried m) : l.value = m.value := by
  cases h with
  | same l => rfl
  | widened n | narrowed n => simp only [Leaf.value, int64?_toInt]

end Wire

/-! ### What a type reads -/

namespace ValueReader

/-- Whether a reader takes characters itself. -/
def readsChars : ValueReader → Bool
  | scalar k | primitiveArray k => k = .char
  | _ => false

/-- The type that a reader reads the parts of an array or an object as. -/
def partType? (r : ValueReader) (ty : Descriptor) : Option Descriptor :=
  match r with
  | object => some .object
  | objectArray => some (ty.component?.getD .object)
  | elements => some ty.elementType
  | _ => none

theorem isNone_partType? (r : ValueReader) (ty other : Descriptor) :
    (r.partType? ty).isNone = (r.partType? other).isNone := by
  cases r <;> rfl

end ValueReader

namespace Descriptor
variable {ty other : Descriptor}

theorem isOfChars_congr (h : (ty == other) = true) : ty.isOfChars = other.isOfChars := by
  rw [isOfChars, isOfChars, raw_congr h, isArray_congr h, hasParams_congr h]

/-- The readers of the built-in types take characters for the types of characters alone, and no parts. -/
theorem isOfChars_of_readsChars (h : ty.builtInDeserializer.reader.readsChars = true) : ty.isOfChars = true := by
  unfold builtInDeserializer at h
  cases hl : readBuiltIns.lookup ty with
  | none =>
    rw [hl, Option.getD_none] at h
    cases harray : ty.isArray <;> rw [harray] at h <;> cases h
  | some codec =>
    obtain ⟨b, hb, hkey, rfl⟩ := mem_of_lookup hl
    rw [hl] at h
    have htable : ∀ b ∈ readBuiltIns, b.2.reader.readsChars = true → b.1.isOfChars = true := by decide
    rw [isOfChars_congr hkey]
    exact htable b hb h

theorem isOfChars_of_partType {part : Descriptor} (h : ty.builtInDeserializer.reader.partType? ty = some part)
    (hpart : part.isOfChars = true) : ty.isOfChars = true := by
  unfold builtInDeserializer at h
  cases hl : readBuiltIns.lookup ty with
  | none =>
    rw [hl, Option.getD_none] at h
    cases harray : ty.isArray with
    | false =>
      rw [harray] at h
      cases h
      cases hpart
    | true =>
      rw [harray] at h
      obtain ⟨raw, params, name?⟩ := ty
      cases raw with
      | array t =>
        cases h
        rw [isOfChars, Bool.and_eq_true] at hpart
        rw [isOfChars, harray, Bool.true_or, Bool.and_true]
        exact hpart.1
      | primitive k | boxed k | classType c => cases harray
  | some codec =>
    obtain ⟨b, hb, -, rfl⟩ := mem_of_lookup hl
    rw [hl, Option.getD_some] at h
    have htable : ∀ b ∈ readBuiltIns, (b.2.reader.partType? .object).isNone = true := by decide
    have hnone := htable b hb
    rw [ValueReader.isNone_partType? _ .object ty, h] at hnone
    cases hnone

end Descriptor

/-! ### Reading trees with other carriers -/

namespace Wire
variable {a b : Wire} {chars : Bool}

section Make
variable {ty : Descriptor} {items items' : Descriptor → Except CodecError (List Value)}
  {members members' : Descriptor → Except CodecError (List (String × Value))}

theorem Recarried.makeBy (h : a.Recarried b) (r : ValueReader) (hchars : r.readsChars = true → chars = true)
    (hitems : ∀ c, r.partType? ty = some c → SameButChars chars (items c) (items' c))
    (hmembers : ∀ c, r.partType? ty = some c → SameButChars chars (members c) (members' c)) :
    SameButChars chars (r.make ty a items members) (r.make ty b items' members') := by
  cases r with
  | scalar k => exact (h.readScalar fun hk => hchars (decide_eq_true hk)).map _
  | string => exact .of_eq (congrArg (Except.map Value.string) h.readString_eq)
  | bigInteger => exact h.unlessNull (.of_eq (congrArg (Except.map Value.bigInteger) h.readBigInteger_eq))
  | bigDecimal => exact h.unlessNull (.of_eq (congrArg (Except.map Value.bigDecimal) h.readBigDecimal_eq))
  | text t =>
    refine h.unlessNull (.of_eq ?_)
    rw [readText, readText, h.readString_eq]
  | optional o => exact .of_eq (congrArg (Except.map (Value.optional o)) (h.readOptional_eq o))
  | primitiveArray k => exact h.unlessNull ((h.readRow fun hk => hchars (decide_eq_true hk)).map _)
  | object =>
    cases h with
    | leaf h => exact .of_eq (congrArg Except.ok (Recarried.leafValue_eq h))
    | array h => exact (hitems .object rfl).map _
    | object h => exact (hmembers .object rfl).map _
  | objectArray => exact h.unlessNull ((h.ifArray (hitems _ rfl)).map _)
  | elements => exact (h.ifArray (hitems _ rfl)).map _
  | constant tag allowsNull default => exact .refl _

theorem Recarried.make (h : a.Recarried b)
    (hitems : ∀ c, SameButChars c.isOfChars (items c) (items' c))
    (hmembers : ∀ c, SameButChars c.isOfChars (members c) (members' c)) :
    SameButChars ty.isOfChars (ty.builtInDeserializer.make ty a items members)
      (ty.builtInDeserializer.make ty b items' members') := by
  have hread := h.makeBy ty.builtInDeserializer.reader Descriptor.isOfChars_of_readsChars
    (fun c hc => (hitems c).mono (Descriptor.isOfChars_of_partType hc))
    (fun c hc => (hmembers c).mono (Descriptor.isOfChars_of_partType hc))
  unfold Deserializer.make
  split
  · exact h.unlessNull hread
  · exact hread

end Make

mutual
/-- Trees that differ in carriers are read alike, where no character is asked for. -/
theorem Recarried.value (ty : Descriptor) : ∀ {a b : Wire}, a.Recarried b →
    SameButChars ty.isOfChars (a.value ty) (b.value ty)
  | _, _, .leaf h => (Recarried.leaf h).make (fun _ => .refl _) fun _ => .refl _
  | _, _, .array h => (Recarried.array h).make (fun c => h.values c) fun _ => .refl _
  | _, _, .object h => (Recarried.object h).make (fun _ => .refl _) fun c => h.memberValues c []

theorem ItemsRecarried.values (ty : Descriptor) : ∀ {items others : List Wire}, ItemsRecarried items others →
    SameButChars ty.isOfChars (values ty items) (values ty others)
  | _, _, .nil => .refl _
  | _, _, .cons h hrest => (h.value ty).bind fun v => (hrest.values ty).map (v :: ·)

theorem MembersRecarried.memberValues (ty : Descriptor) : ∀ {members others : List (String × Wire)},
    MembersRecarried members others → ∀ read : List (String × Value),
    SameButChars ty.isOfChars (memberValues ty members read) (memberValues ty others read)
  | _, _, .nil, _ => .refl _
  | _, _, .cons key h hrest, read => (h.value ty).bind fun v => hrest.memberValues ty (Members.insert key v read)
end

end Wire

/-! ### Types of characters -/

namespace Descriptor
variable {ty : Descriptor}

theorem builtInDeserializer_of_hasParams (h : ty.hasParams = true) :
    ty.builtInDeserializer = .plain (if ty.isArray then .objectArray else .object) := by
  have hnone : readBuiltIns.lookup ty = none :=
    lookup_eq_none_of_keys (p := fun d => !d.hasParams) (fun _ _ hkey => by rw [hasParams_congr hkey]) (by decide)
      (by rw [h]; rfl)
  rw [builtInDeserializer, hnone, Option.getD_none]

/-- How a type of characters is read: as a character, as a row of them, or item by item. -/
theorem reader_of_isOfChars (h : ty.isOfChars = true) :
    (∃ nullAware, ty.raw.isArray = false ∧ ty.builtInDeserializer = ⟨.scalar .char, nullAware⟩) ∨
      (ty.raw = .array (.primitive .char) ∧ ty.builtInDeserializer = .plain (.primitiveArray .char)) ∨
      ∃ t, t.isOfChars = true ∧ ty.raw = .array t ∧ ty.builtInDeserializer = .plain .objectArray := by
  obtain ⟨raw, params, name?⟩ := ty
  obtain ⟨hraw, hparams⟩ := Bool.and_eq_true_iff.mp h
  cases params with
  | nil =>
    have hkey : (mk raw [] name? == ofRaw raw) = true := beq_ofRaw rfl
    rw [builtInDeserializer_congr hkey]
    cases raw with
    | primitive k =>
      obtain rfl : k = .char := by simpa [raw, RawType.isOfChars] using hraw
      exact Or.inl ⟨_, rfl, builtInDeserializer_primitive .char⟩
    | boxed k =>
      obtain rfl : k = .char := by simpa [raw, RawType.isOfChars] using hraw
      exact Or.inl ⟨_, rfl, builtInDeserializer_boxed .char⟩
    | classType c => cases hraw
    | array t =>
      cases t with
      | primitive k =>
        obtain rfl : k = .char := by simpa [raw, RawType.isOfChars] using hraw
        exact Or.inr (Or.inl ⟨rfl, builtInDeserializer_primitiveArray .char⟩)
      | boxed k => exact Or.inr (Or.inr ⟨.boxed k, hraw, rfl, builtInDeserializer_references rfl⟩)
      | classType c => cases hraw
      | array t => exact Or.inr (Or.inr ⟨.array t, hraw, rfl, builtInDeserializer_references rfl⟩)
  | cons p ps =>
    rw [builtInDeserializer_of_hasParams rfl]
    cases raw with
    | primitive k | boxed k | classType c => cases hparams
    | array t => exact Or.inr (Or.inr ⟨t, hraw, rfl, rfl⟩)

end Descriptor

/-- A tree in as many arrays of one item as a type has. -/
def RawType.nest : RawType → Wire → Wire
  | array t, w => .array [t.nest w]
  | _, w => w

theorem Wire.Recarried.nest {a b : Wire} (h : a.Recarried b) : ∀ t : RawType, (t.nest a).Recarried (t.nest b)
  | .array t => .array (.cons (h.nest t) .nil)
  | .primitive _ | .boxed _ | .classType _ => h

/-- A row of one scalar is what this scalar is read as. -/
theorem Wire.readRow_singleton (w : Wire) (k : Kind) :
    (Wire.array [w]).readRow k = (w.readScalarOrZero k).map fun x => [x] := by
  show [w].mapM (Wire.readScalarOrZero k) = _
  rw [List.mapM_cons]
  show ((w.readScalarOrZero k).bind fun x => .ok [x]) = _
  cases w.readScalarOrZero k <;> rfl

theorem Wire.values_singleton (w : Wire) (ty : Descriptor) : values ty [w] = (w.value ty).map fun v => [v] := by
  rw [values, values]
  cases w.value ty <;> rfl

/-- A leaf in the arrays of a type of characters is read as the character in arrays, if it is read as a character. -/
theorem Descriptor.exists_value_nest {ty : Descriptor} (h : ty.isOfChars = true) :
    ∃ f : Char → Value, ∀ l : Leaf, (Wire.leaf l).isNull = false →
      (ty.raw.nest (.leaf l)).value ty = (Wire.leaf l).readChar.map f := by
  generalize hraw : ty.raw = raw
  induction raw generalizing ty with
  | primitive k | boxed k =>
    obtain ⟨nullAware, -, hreader⟩ | ⟨harray, -⟩ | ⟨t, -, harray, -⟩ := reader_of_isOfChars h
    · refine ⟨Value.scalar .char, fun l hl => ?_⟩
      show (Wire.leaf l).value ty = _
      rw [Wire.value_eq_make, hreader, Deserializer.make, Wire.unlessNull, hl]
      cases nullAware <;> rfl
    · cases hraw.symm.trans harray
    · cases hraw.symm.trans harray
  | classType c =>
    rw [isOfChars, hraw] at h
    cases h
  | array t ih =>
    obtain ⟨nullAware, hscalar, -⟩ | ⟨harray, hreader⟩ | ⟨t', ht, harray, hreader⟩ := reader_of_isOfChars h
    · rw [hraw] at hscalar
      cases hscalar
    · cases hraw.symm.trans harray
      refine ⟨fun c => .primitiveArray .char [c], fun l hl => ?_⟩
      show (Wire.array [.leaf l]).value ty = _
      rw [Wire.value_eq_make, hreader]
      show ((Wire.array [.leaf l]).readRow .char).map (Value.primitiveArray .char) = _
      rw [Wire.readRow_singleton, Wire.readScalarOrZero, hl]
      show ((Wire.leaf l).readChar.map _).map _ = _
      cases (Wire.leaf l).readChar <;> rfl
    · cases hraw.symm.trans harray
      have hcomponent : ty.component?.getD .object = ofRaw t := by rw [component?, hraw]; rfl
      have hofChars : (ofRaw t).isOfChars = true := by
        rw [isOfChars, Bool.and_eq_true]
        exact ⟨ht, Bool.or_true _⟩
      obtain ⟨f, hf⟩ := ih hofChars rfl
      refine ⟨fun c => .array [f c], fun l hl => ?_⟩
      show (Wire.array [t.nest (.leaf l)]).value ty = _
      rw [Wire.value_eq_make, hreader]
      show (Wire.values (ty.component?.getD .object) [t.nest (.leaf l)]).map Value.array = _
      rw [hcomponent, Wire.values_singleton, hf l hl]
      cases (Wire.leaf l).readChar <;> rfl

/-! ### Reading from a registry -/

/-- Where nothing is registered, two trees that differ in the carriers of integers alone are read as the same value of
    a type, or refused with the same error, unless an integer is refused for a character in one of them; and for every
    type but those of characters all such trees are read alike. -/
theorem RegistryM.fromWire_recarried (history : List Lookup) (ty : Descriptor) :
    (∀ a b : Wire, a.Recarried b →
      (fromWire a ty (Registry.builtInOnly.after history)).1 = (fromWire b ty (Registry.builtInOnly.after history)).1 ∨
      (fromWire a ty (Registry.builtInOnly.after history)).1 = .error .integerForChar ∨
      (fromWire b ty (Registry.builtInOnly.after history)).1 = .error .integerForChar) ∧
    ((∀ a b : Wire, a.Recarried b →
      (fromWire a ty (Registry.builtInOnly.after history)).1 = (fromWire b ty (Registry.builtInOnly.after history)).1) ↔
      ty.isOfChars = false) := by
  have hrun (w : Wire) : (fromWire w ty (Registry.builtInOnly.after history)).1 = w.value ty :=
    run_fromWire (.after history) w ty
  simp only [hrun]
  refine ⟨fun a b h => (h.value ty).imp_right And.right, fun hall => ?_, fun hty a b h => ?_⟩
  · rw [Bool.eq_false_iff]
    intro hty
    -- The code point of `A`, in the arrays of the type, is a character from one carrier alone.
    obtain ⟨f, hf⟩ := Descriptor.exists_value_nest hty
    have hsame := hall _ _ ((Wire.Recarried.leaf (.widened 65)).nest ty.raw)
    rw [hf _ rfl, hf _ rfl] at hsame
    cases hsame
  · exact (h.value ty).resolve_right fun ⟨hchars, _⟩ => absurd (hty.symm.trans hchars) nofun

/-- 300 is out of range for a byte on either carrier, and 7 is none that is refused. -/
theorem RegistryM.fromWire_recarried_bytes :
    Wire.Recarried (.array [.leaf (.integer 7), .leaf (.bigInteger 300)])
        (.array [.leaf (.bigInteger 7), .leaf (.integer 300)]) ∧
      (Value.primitiveArrayType .byte).isOfChars = false ∧
      (fromWire (.array [.leaf (.bigInteger 7), .leaf (.integer 300)]) (Value.primitiveArrayType .byte)
        (Registry.builtInOnly.after [.serializer .string])).1 = .error (.outOfRange .byte "300") := by
  have hcarriers : Wire.Recarried (.array [.leaf (.integer 7), .leaf (.bigInteger 300)])
      (.array [.leaf (.bigInteger 7), .leaf (.integer 300)]) :=
    .array (.cons (.leaf (.widened 7)) (.cons (.leaf (.narrowed 300)) .nil))
  refine ⟨hcarriers, rfl, ?_⟩
  rw [← (fromWire_recarried [.serializer .string] (Value.primitiveArrayType .byte)).2.mpr rfl _ _ hcarriers]
  exact run_fromWire (.after _) _ _

/-- 65 is the character `A` as a 64-bit integer, and no character as a big integer. -/
theorem RegistryM.fromWire_recarried_char :
    Wire.Recarried (.leaf (.integer 65)) (.leaf (.bigInteger 65)) ∧
      (fromWire (.leaf (.integer 65)) (.primitive .char) Registry.builtInOnly).1 = .ok (.scalar .char 'A') ∧
      (fromWire (.leaf (.bigInteger 65)) (.primitive .char) Registry.builtInOnly).1 = .error .integerForChar :=
  ⟨.leaf (.widened 65), rfl, rfl⟩

end TypedWire
