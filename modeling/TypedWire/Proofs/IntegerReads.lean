import TypedWire.Proofs.BigNumbers
import TypedWire.Proofs.Rows

/-! # Reading integers

An integer of any size stands on the wire in one of two carriers, and is asked for in one of four widths: alone, boxed,
as an optional, in a primitive array or somewhere in arrays of these. What is read is the same integer, at the same
place; one that its width does not hold is refused, and so is everything around it. -/

namespace TypedWire

/-! ### Widths -/

/-- The bits of a kind of integers. -/
def Kind.bits? : Kind → Option Nat
  | byte => some 8
  | short => some 16
  | int => some 32
  | long => some 64
  | _ => none

def Kind.isIntegral (k : Kind) : Bool :=
  k.bits?.isSome

/-- Whether an integer is in the range of a kind: two's complement of the kind's bits. -/
def Kind.Holds (k : Kind) (n : Int) : Prop :=
  ∃ b, k.bits? = some b ∧ -(2 ^ (b - 1)) ≤ n ∧ n < 2 ^ (b - 1)

/-- The integer that a word is. -/
def Scalar.toInt? : (k : Kind) → k.Carrier → Option Int
  | .byte, x => some x.toInt
  | .short, x => some x.toInt
  | .int, x => some x.toInt
  | .long, x => some x.toInt
  | _, _ => none

namespace Scalar
variable {k : Kind} {x y : k.Carrier} {n : Int}

theorem toInt?_inj (hx : toInt? k x = some n) (hy : toInt? k y = some n) : x = y := by
  cases k with
  | byte => exact Int8.toInt_inj.mp (Option.some.inj (hx.trans hy.symm))
  | short => exact Int16.toInt_inj.mp (Option.some.inj (hx.trans hy.symm))
  | int => exact Int32.toInt_inj.mp (Option.some.inj (hx.trans hy.symm))
  | long => exact Int64.toInt_inj.mp (Option.some.inj (hx.trans hy.symm))
  | boolean | float | double | char => cases hx

theorem toInt?_zero (hk : k.isIntegral = true) : toInt? k (zero k) = some 0 := by
  cases k <;> first | rfl | cases hk

theorem holds_of_toInt? (h : toInt? k x = some n) : k.Holds n := by
  cases k with
  | byte => exact ⟨8, rfl, Option.some.inj h ▸ ⟨Int8.le_toInt x, Int8.toInt_lt x⟩⟩
  | short => exact ⟨16, rfl, Option.some.inj h ▸ ⟨Int16.le_toInt x, Int16.toInt_lt x⟩⟩
  | int => exact ⟨32, rfl, Option.some.inj h ▸ ⟨Int32.le_toInt x, Int32.toInt_lt x⟩⟩
  | long => exact ⟨64, rfl, Option.some.inj h ▸ ⟨Int64.le_toInt x, Int64.toInt_lt x⟩⟩
  | boolean | float | double | char => cases h

end Scalar

/-! ### Words of a width -/

namespace Wire

/-- The integer that a wire value is, whichever carrier it has. -/
def integer? : Wire → Option Int
  | leaf (.integer n) => some n.toInt
  | leaf (.bigInteger n) => some n
  | _ => none

/-- A wire value and a word are the same integer. -/
def Denotes (k : Kind) (w : Wire) (x : k.Carrier) : Prop :=
  ∃ n, w.integer? = some n ∧ Scalar.toInt? k x = some n

section Words
variable {k : Kind} {w : Wire} {n : Int}

theorem ne_null_of_isNull (h : w.isNull = false) : w ≠ null := by
  rintro rfl
  cases h

theorem isNull_of_integer? (h : w.integer? = some n) : w.isNull = false := by
  cases hnull : w.isNull with
  | false => rfl
  | true => rw [eq_null hnull] at h; cases h

theorem readInt64_of_integer? (h : w.integer? = some n) (target : Kind) :
    w.readInt64 target = match int64? n with
      | some m => .ok m
      | none => .error (.outOfRange target (integerText n)) := by
  cases w with
  | leaf l =>
    cases l with
    | integer m =>
      obtain rfl : m.toInt = n := Option.some.inj h
      rw [int64?_toInt]
      rfl
    | bigInteger m =>
      obtain rfl : m = n := Option.some.inj h
      rfl
    | null | boolean | float | bigDecimal | string => cases h
  | array | object => cases h

/-- Both conversions, to 64 bits and to the width, refuse what the width does not hold, and with one error. -/
theorem readWidth_of_integer? {α : Type} (h : w.integer? = some n) (target : Kind) {bits : Nat}
    (hbits : (2 : Int) ^ (bits - 1) ≤ 2 ^ 63) (narrow : Int → α) :
    w.readWidth target bits narrow =
      if -(2 ^ (bits - 1)) ≤ n ∧ n < 2 ^ (bits - 1) then .ok (narrow n)
      else .error (.outOfRange target (integerText n)) := by
  rw [readWidth, readInt64_of_integer? h]
  cases hn : int64? n with
  | some m =>
    obtain rfl := toInt_of_int64? hn
    rfl
  | none =>
    have hwide : ¬(-(2 ^ 63) ≤ n ∧ n < 2 ^ 63) := fun hfits => by
      rw [int64?, if_pos hfits] at hn
      cases hn
    rw [if_neg (by omega)]
    rfl

/-- Words of all four widths are read in one way, those of 64 bits too. -/
theorem readScalar_eq_readWidth {b : Nat} (hb : k.bits? = some b) :
    ∃ narrow : Int → k.Carrier, (∀ w, readScalar k w = readWidth k b narrow w) ∧
      ∀ n, -(2 ^ (b - 1)) ≤ n → n < 2 ^ (b - 1) → Scalar.toInt? k (narrow n) = some n := by
  cases k with
  | byte =>
    obtain rfl := Option.some.inj hb
    exact ⟨Int8.ofInt, fun _ => rfl, fun n hlow hhigh => congrArg some (Int8.toInt_ofInt_of_le hlow hhigh)⟩
  | short =>
    obtain rfl := Option.some.inj hb
    exact ⟨Int16.ofInt, fun _ => rfl, fun n hlow hhigh => congrArg some (Int16.toInt_ofInt_of_le hlow hhigh)⟩
  | int =>
    obtain rfl := Option.some.inj hb
    exact ⟨Int32.ofInt, fun _ => rfl, fun n hlow hhigh => congrArg some (Int32.toInt_ofInt_of_le hlow hhigh)⟩
  | long =>
    obtain rfl := Option.some.inj hb
    refine ⟨Int64.ofInt, fun w => ?_, fun n hlow hhigh => congrArg some (Int64.toInt_ofInt_of_le hlow hhigh)⟩
    show w.readInt64 .long = _
    rw [readWidth]
    cases w.readInt64 .long with
    | error e => rfl
    | ok m =>
      show Except.ok m = if -(2 ^ 63) ≤ m.toInt ∧ m.toInt < 2 ^ 63 then .ok (Int64.ofInt m.toInt) else _
      rw [if_pos ⟨m.le_toInt, m.toInt_lt⟩, Int64.ofInt_toInt]
  | boolean | float | double | char => cases hb

theorem readScalar_of_integer? (hk : k.isIntegral = true) (h : w.integer? = some n) :
    (∃ x, w.readScalar k = .ok x ∧ Scalar.toInt? k x = some n) ∨
      ¬k.Holds n ∧ w.readScalar k = .error (.outOfRange k (integerText n)) := by
  obtain ⟨b, hb⟩ := Option.isSome_iff_exists.mp hk
  have hbits : (2 : Int) ^ (b - 1) ≤ 2 ^ 63 := by
    cases k <;> cases hb <;> decide
  obtain ⟨narrow, hread, hnarrow⟩ := readScalar_eq_readWidth hb
  rw [hread, readWidth_of_integer? h k hbits]
  split
  · next hn => exact .inl ⟨_, rfl, hnarrow n hn.1 hn.2⟩
  · next hn =>
    refine .inr ⟨?_, rfl⟩
    rintro ⟨b', hb', hholds⟩
    obtain rfl := Option.some.inj (hb.symm.trans hb')
    exact hn hholds

theorem readScalar_of_no_integer (hk : k.isIntegral = true) (h : w.integer? = none) :
    w.readScalar k = .error (.unexpectedToken k.name w.token) := by
  obtain ⟨b, hb⟩ := Option.isSome_iff_exists.mp hk
  obtain ⟨narrow, hread, -⟩ := readScalar_eq_readWidth hb
  rw [hread, readWidth]
  cases w with
  | leaf l =>
    cases l with
    | integer | bigInteger => cases h
    | null | boolean | float | bigDecimal | string => rfl
  | array | object => rfl

theorem readScalar_eq_ok_iff (hk : k.isIntegral = true) {x : k.Carrier} :
    w.readScalar k = .ok x ↔ w.Denotes k x := by
  constructor
  · intro hx
    cases h : w.integer? with
    | none => cases (readScalar_of_no_integer hk h).symm.trans hx
    | some n =>
      obtain ⟨y, hy, hn⟩ | ⟨-, herror⟩ := readScalar_of_integer? hk h
      · obtain rfl := Except.ok.inj (hy.symm.trans hx)
        exact ⟨n, h, hn⟩
      · cases herror.symm.trans hx
  · rintro ⟨n, h, hx⟩
    obtain ⟨y, hy, hn⟩ | ⟨hout, -⟩ := readScalar_of_integer? hk h
    · rw [hy, Scalar.toInt?_inj hn hx]
    · exact absurd (Scalar.holds_of_toInt? hx) hout

theorem readScalar_eq_outOfRange_iff {j : Kind} (hj : j.isIntegral = true) {s : String} :
    w.readScalar j = .error (.outOfRange k s) ↔
      ∃ n, (j = k ∧ w.integer? = some n) ∧ ¬k.Holds n ∧ s = integerText n := by
  constructor
  · intro hs
    cases h : w.integer? with
    | none => cases (readScalar_of_no_integer hj h).symm.trans hs
    | some n =>
      obtain ⟨y, hy, -⟩ | ⟨hout, herror⟩ := readScalar_of_integer? hj h
      · cases hy.symm.trans hs
      · cases herror.symm.trans hs
        exact ⟨n, ⟨rfl, rfl⟩, hout, rfl⟩
  · rintro ⟨n, ⟨rfl, h⟩, hout, rfl⟩
    obtain ⟨y, -, hy⟩ | ⟨-, herror⟩ := readScalar_of_integer? hj h
    · exact absurd (Scalar.holds_of_toInt? hy) hout
    · exact herror

end Words

end Wire

/-! ### Types of integers -/

/-- The kind of the one scalar that is asked for by an unboxed or a boxed type, or by an optional. -/
def RawType.scalarKind? : RawType → Option Kind
  | primitive k => some k
  | boxed k => some k
  | classType c => ([OptionalKind.int, .long, .double].find? (·.toClass = c)).map (·.kind)
  | array _ => none

theorem RawType.scalarKind?_optional (o : OptionalKind) : (classType o.toClass).scalarKind? = some o.kind := by
  cases o <;> rfl

/-- The types of integers: the four widths unboxed and boxed, the optionals of two of them, the arrays of the unboxed
    ones, and arrays of references to any depth. -/
inductive RawType.Integral : RawType → Prop
  | primitive {k : Kind} (hk : k.isIntegral = true) : Integral (.primitive k)
  | boxed {k : Kind} (hk : k.isIntegral = true) : Integral (.boxed k)
  | optional {o : OptionalKind} (ho : o.kind.isIntegral = true) : Integral (.classType o.toClass)
  | primitiveArray {k : Kind} (hk : k.isIntegral = true) : Integral (.array (.primitive k))
  | array {component : RawType} (hc : component.isPrimitive = false) (h : Integral component) :
    Integral (.array component)

namespace Wire

/-- An item of a primitive array and an element are the same integer; a null is a zero. -/
def Fills (k : Kind) (w : Wire) (x : k.Carrier) : Prop :=
  w = null ∧ Scalar.toInt? k x = some 0 ∨ w.Denotes k x

/-- A tree and a value of a type have the same integers in the same places. Null stands for an absent optional, and for
    itself where a boxed integer or an array is asked for. -/
def SameIntegers : RawType → Wire → Value → Prop
  | .primitive k, w, v => ∃ x, w.Denotes k x ∧ v = .scalar k x
  | .boxed k, w, v => w = null ∧ v = .null ∨ ∃ x, w.Denotes k x ∧ v = .scalar k x
  | .classType c, w, v => ∃ o : OptionalKind, c = o.toClass ∧
      (w = null ∧ v = .optional o none ∨ ∃ x, w.Denotes o.kind x ∧ v = .optional o (some x))
  | .array (.primitive k), w, v => w = null ∧ v = .null ∨
      ∃ items xs, w = array items ∧ List.Forall₂ (Fills k) items xs ∧ v = .primitiveArray k xs
  | .array component, w, v => w = null ∧ v = .null ∨
      ∃ items vs, w = array items ∧ List.Forall₂ (SameIntegers component) items vs ∧ v = .array vs

/-- A tree has an integer in a place where a type asks for one of a kind. -/
inductive IntegerAt (k : Kind) (n : Int) : RawType → Wire → Prop
  | scalar {raw : RawType} {w : Wire} (hraw : raw.scalarKind? = some k) (h : w.integer? = some n) : IntegerAt k n raw w
  | array {component : RawType} {items : List Wire} {w : Wire} (hw : w ∈ items) (h : IntegerAt k n component w) :
    IntegerAt k n (.array component) (array items)

/-- The same where nothing before the integer is amiss: the items before it, in its own array and in the arrays around
    it, are nulls or have values of their type. -/
inductive IntegerReached (k : Kind) (n : Int) : RawType → Wire → Prop
  | scalar {raw : RawType} {w : Wire} (hraw : raw.scalarKind? = some k) (h : w.integer? = some n) :
    IntegerReached k n raw w
  | array {component : RawType} {before after : List Wire} {w : Wire}
    (hbefore : ∀ y ∈ before, y = null ∨ ∃ v, SameIntegers component y v) (h : IntegerReached k n component w) :
    IntegerReached k n (.array component) (array (before ++ w :: after))

/-! ### Places -/

section Places
variable {k : Kind} {n : Int} {raw component : RawType} {w : Wire} {v : Value}

theorem sameIntegers_optional {o : OptionalKind} :
    SameIntegers (.classType o.toClass) w v ↔
      w = null ∧ v = .optional o none ∨ ∃ x, w.Denotes o.kind x ∧ v = .optional o (some x) := by
  constructor
  · rintro ⟨o', ho, h⟩
    obtain rfl : o = o' := by
      cases o <;> cases o' <;> first | rfl | exact absurd ho (by decide)
    exact h
  · exact fun h => ⟨o, rfl, h⟩

theorem sameIntegers_array (hc : component.isPrimitive = false) :
    SameIntegers (.array component) w v ↔ w = null ∧ v = .null ∨
      ∃ items vs, w = array items ∧ List.Forall₂ (SameIntegers component) items vs ∧ v = .array vs := by
  cases component with
  | primitive k => cases hc
  | boxed | classType | array => rfl

theorem integerReached_scalar {j : Kind} (hraw : raw.scalarKind? = some j) :
    IntegerReached k n raw w ↔ j = k ∧ w.integer? = some n := by
  constructor
  · intro h
    cases h with
    | scalar hraw' h => exact ⟨Option.some.inj (hraw.symm.trans hraw'), h⟩
    | array => cases hraw
  · rintro ⟨rfl, h⟩
    exact .scalar hraw h

theorem Denotes.holds {x : k.Carrier} (hx : w.Denotes k x) (h : w.integer? = some n) : k.Holds n := by
  obtain ⟨m, hm, hx⟩ := hx
  obtain rfl := Option.some.inj (hm.symm.trans h)
  exact Scalar.holds_of_toInt? hx

theorem exists_mem_of_forall₂ {α β : Type} {R : α → β → Prop} {xs : List α} {ys : List β} (h : List.Forall₂ R xs ys)
    {x : α} (hx : x ∈ xs) : ∃ y, R x y := by
  induction h with
  | nil => cases hx
  | cons hxy _ ih =>
    rcases List.mem_cons.mp hx with rfl | hx
    · exact ⟨_, hxy⟩
    · exact ih hx

/-- A tree that has a value of a type has no integer out of its width. -/
theorem SameIntegers.holds (hv : SameIntegers raw w v) (h : IntegerAt k n raw w) : k.Holds n := by
  -- The induction is on the way to the integer; the value follows it by its type. A null on the way ends it, so no
  -- integer stands behind one.
  induction h generalizing v with
  | @scalar raw w hraw h =>
    have hnull := ne_null_of_isNull (isNull_of_integer? h)
    cases raw with
    | primitive j =>
      obtain rfl := Option.some.inj hraw
      obtain ⟨x, hx, -⟩ := hv
      exact hx.holds h
    | boxed j =>
      obtain rfl := Option.some.inj hraw
      obtain ⟨rfl, -⟩ | ⟨x, hx, -⟩ := hv
      · exact absurd rfl hnull
      · exact hx.holds h
    | classType c =>
      obtain ⟨o, rfl, ⟨rfl, -⟩ | ⟨x, hx, -⟩⟩ := hv
      · exact absurd rfl hnull
      · obtain rfl := Option.some.inj ((RawType.scalarKind?_optional o).symm.trans hraw)
        exact hx.holds h
    | array => cases hraw
  | @array component items w hw h ih =>
    cases hc : component.isPrimitive with
    | true =>
      cases component with
      | primitive j =>
        obtain ⟨hnull, -⟩ | ⟨items', xs, hitems, hrow, -⟩ := hv
        · cases hnull
        · obtain rfl := Wire.array.inj hitems
          obtain ⟨x, ⟨rfl, -⟩ | hx⟩ := exists_mem_of_forall₂ hrow hw
          · cases h with
            | scalar _ h => cases h
          · exact ih ⟨x, hx, rfl⟩
      | boxed | classType | array => cases hc
    | false =>
      obtain ⟨hnull, -⟩ | ⟨items', vs, hitems, hrow, -⟩ := (sameIntegers_array hc).mp hv
      · cases hnull
      · obtain rfl := Wire.array.inj hitems
        obtain ⟨v', hv'⟩ := exists_mem_of_forall₂ hrow hw
        exact ih hv'

end Places

/-! ### Nulls and rows -/

section Outcomes
variable {w : Wire}

theorem unlessNull_eq_ok_iff {x : Except CodecError Value} {v : Value} :
    w.unlessNull x = .ok v ↔ w = null ∧ v = .null ∨ w.isNull = false ∧ x = .ok v := by
  rw [unlessNull]
  cases hnull : w.isNull with
  | true =>
    obtain rfl := eq_null hnull
    simp [eq_comm]
  | false =>
    have hne := ne_null_of_isNull hnull
    simp [hne]

theorem unlessNull_eq_error_iff {x : Except CodecError Value} {e : CodecError} :
    w.unlessNull x = .error e ↔ w.isNull = false ∧ x = .error e := by
  rw [unlessNull]
  cases w.isNull <;> simp

variable {α : Type} {f : Wire → Except CodecError α} {make : List α → Value}

/-- A null, or an array whose items are read one by one. -/
theorem unlessNull_row_eq_ok_iff {v : Value} :
    w.unlessNull ((w.ifArray ((w.items?.getD []).mapM f)).map make) = .ok v ↔ w = null ∧ v = .null ∨
      ∃ items xs, w = array items ∧ List.Forall₂ (fun y x => f y = .ok x) items xs ∧ v = make xs := by
  rw [unlessNull_eq_ok_iff, map_eq_ok_iff]
  refine or_congr_right ?_
  cases w with
  | leaf | object => simp [ifArray, unexpected]
  | array items =>
    simp only [ifArray, items?, Option.getD_some, mapM_eq_ok_iff, array.injEq]
    constructor
    · rintro ⟨-, xs, hrow, hv⟩
      exact ⟨items, xs, rfl, hrow, hv⟩
    · rintro ⟨_, xs, rfl, hrow, hv⟩
      exact ⟨rfl, xs, hrow, hv⟩

theorem unlessNull_row_eq_outOfRange_iff {k : Kind} {s : String} :
    w.unlessNull ((w.ifArray ((w.items?.getD []).mapM f)).map make) = .error (.outOfRange k s) ↔
      ∃ before x after, w = array (before ++ x :: after) ∧ (∀ y ∈ before, ∃ b, f y = .ok b) ∧
        f x = .error (.outOfRange k s) := by
  rw [unlessNull_eq_error_iff, map_eq_error_iff]
  cases w with
  | leaf | object => simp [ifArray, unexpected]
  | array items =>
    have hnull : (array items).isNull = false := rfl
    simp only [hnull, true_and, ifArray, items?, Option.getD_some, mapM_eq_error_iff, array.injEq]

theorem values_eq_mapM (c : Descriptor) (items : List Wire) : values c items = items.mapM (value c) := by
  induction items with
  | nil => rfl
  | cons y ys ih =>
    rw [values, ih]
    cases hy : y.value c with
    | error e => exact (mapM_cons_error hy ys).symm
    | ok v => exact (mapM_cons_ok hy ys).symm

end Outcomes

/-! ### Values of integral types -/

section Types
variable (w : Wire)

/-- A type without parameters is read as its raw type is. -/
theorem value_ofRaw {ty : Descriptor} (hparams : ty.params = []) : w.value ty = w.value (.ofRaw ty.raw) := by
  rw [value_eq_make, value_eq_make, Descriptor.builtInDeserializer_congr (Descriptor.beq_ofRaw hparams)]
  obtain ⟨raw, params, variableName?⟩ := ty
  obtain rfl : params = [] := hparams
  rfl

theorem value_primitive (k : Kind) : w.value (.ofRaw (.primitive k)) = (w.readScalar k).map (.scalar k) := by
  rw [value_eq_make, Descriptor.builtInDeserializer_primitive]
  rfl

theorem value_boxed (k : Kind) : w.value (.ofRaw (.boxed k)) = w.unlessNull ((w.readScalar k).map (.scalar k)) := by
  rw [value_eq_make, Descriptor.builtInDeserializer_boxed]
  rfl

theorem value_optional (o : OptionalKind) :
    w.value (.ofRaw (.classType o.toClass)) = (w.readOptional o.kind).map (.optional o) := by
  rw [value_eq_make, Descriptor.builtInDeserializer_optional]
  rfl

theorem value_primitiveArray (k : Kind) :
    w.value (.ofRaw (.array (.primitive k))) =
      w.unlessNull ((w.ifArray ((w.items?.getD []).mapM (readScalarOrZero k))).map (.primitiveArray k)) := by
  rw [value_eq_make, Descriptor.builtInDeserializer_primitiveArray]
  rfl

theorem value_references {component : RawType} (hc : component.isPrimitive = false) :
    w.value (.ofRaw (.array component)) =
      w.unlessNull ((w.ifArray ((w.items?.getD []).mapM (value (.ofRaw component)))).map .array) := by
  rw [value_eq_make, Descriptor.builtInDeserializer_references hc, ← values_eq_mapM]
  cases w <;> rfl

end Types

section Readings
variable {k j : Kind} {raw component : RawType} {w : Wire} {v : Value} {s : String}

theorem readScalarOrZero_eq_ok_iff_fills (hk : k.isIntegral = true) {x : k.Carrier} :
    w.readScalarOrZero k = .ok x ↔ w.Fills k x := by
  have hzero := Scalar.toInt?_zero hk
  rw [readScalarOrZero, Fills]
  cases hnull : w.isNull with
  | true =>
    obtain rfl := eq_null hnull
    have hx : x = Scalar.zero k ↔ Scalar.toInt? k x = some 0 :=
      ⟨fun h => h ▸ hzero, fun h => Scalar.toInt?_inj h hzero⟩
    simp [Denotes, integer?, null, ← hx, eq_comm]
  | false =>
    have hne := ne_null_of_isNull hnull
    simp [hne, readScalar_eq_ok_iff hk]

theorem readOptional_eq_ok_iff (hk : k.isIntegral = true) {x : Option k.Carrier} :
    w.readOptional k = .ok x ↔ w = null ∧ x = none ∨ ∃ a, w.Denotes k a ∧ x = some a := by
  rw [readOptional]
  cases hnull : w.isNull with
  | true =>
    obtain rfl := eq_null hnull
    simp [Denotes, integer?, null, eq_comm]
  | false =>
    have hne := ne_null_of_isNull hnull
    simp only [Bool.false_eq_true, if_false, map_eq_ok_iff, readScalar_eq_ok_iff hk, hne, false_and, false_or]

theorem readOptional_eq_error_iff {e : CodecError} :
    w.readOptional k = .error e ↔ w.isNull = false ∧ w.readScalar k = .error e := by
  rw [readOptional]
  cases w.isNull <;> simp [map_eq_error_iff]

/-- What is read has the integers of the tree, and whatever has them is read. -/
theorem value_eq_ok_iff (hraw : raw.Integral) : w.value (.ofRaw raw) = .ok v ↔ SameIntegers raw w v := by
  induction hraw generalizing w v with
  | primitive hk =>
    rw [value_primitive, map_eq_ok_iff]
    simp only [readScalar_eq_ok_iff hk]
    rfl
  | boxed hk =>
    rw [value_boxed, unlessNull_eq_ok_iff, map_eq_ok_iff]
    simp only [readScalar_eq_ok_iff hk]
    refine or_congr_right ⟨And.right, fun h => ⟨?_, h⟩⟩
    obtain ⟨x, ⟨n, hn, -⟩, -⟩ := h
    exact isNull_of_integer? hn
  | optional ho =>
    rw [value_optional, sameIntegers_optional, map_eq_ok_iff]
    simp only [readOptional_eq_ok_iff ho]
    constructor
    · rintro ⟨_, ⟨rfl, rfl⟩ | ⟨x, hx, rfl⟩, rfl⟩
      · exact .inl ⟨rfl, rfl⟩
      · exact .inr ⟨x, hx, rfl⟩
    · rintro (⟨rfl, rfl⟩ | ⟨x, hx, rfl⟩)
      · exact ⟨none, .inl ⟨rfl, rfl⟩, rfl⟩
      · exact ⟨some x, .inr ⟨x, hx, rfl⟩, rfl⟩
  | primitiveArray hk =>
    rw [value_primitiveArray, unlessNull_row_eq_ok_iff]
    simp only [readScalarOrZero_eq_ok_iff_fills hk]
    rfl
  | array hc _ ih =>
    rw [value_references w hc, unlessNull_row_eq_ok_iff, sameIntegers_array hc]
    simp only [ih]

/-- No integer at all is out of a range where there is null. -/
theorem unlessNull_outOfRange_iff (hj : j.isIntegral = true) :
    w.isNull = false ∧ w.readScalar j = .error (.outOfRange k s) ↔
      ∃ n, (j = k ∧ w.integer? = some n) ∧ ¬k.Holds n ∧ s = integerText n := by
  rw [readScalar_eq_outOfRange_iff hj]
  refine ⟨And.right, fun h => ⟨?_, h⟩⟩
  obtain ⟨n, ⟨-, hn⟩, -⟩ := h
  exact isNull_of_integer? hn

/-- Where items are refused for integers that are reached in them, so is a row of them. -/
theorem row_eq_outOfRange_iff {α : Type} {f : Wire → Except CodecError α} {make : List α → Value}
    (hok : ∀ y, (∃ x, f y = .ok x) ↔ y = null ∨ ∃ v, SameIntegers component y v)
    (herror : ∀ y, f y = .error (.outOfRange k s) ↔
      ∃ n, IntegerReached k n component y ∧ ¬k.Holds n ∧ s = integerText n) :
    w.unlessNull ((w.ifArray ((w.items?.getD []).mapM f)).map make) = .error (.outOfRange k s) ↔
      ∃ n, IntegerReached k n (.array component) w ∧ ¬k.Holds n ∧ s = integerText n := by
  rw [unlessNull_row_eq_outOfRange_iff]
  simp only [hok, herror]
  constructor
  · rintro ⟨before, y, after, rfl, hbefore, n, hn, hout⟩
    exact ⟨n, .array hbefore hn, hout⟩
  · rintro ⟨n, hn, hout⟩
    cases hn with
    | scalar hraw => cases hraw
    | array hbefore hn => exact ⟨_, _, _, rfl, hbefore, n, hn, hout⟩

theorem sameIntegers_null (hraw : raw.Integral) (hc : raw.isPrimitive = false) : ∃ v, SameIntegers raw null v := by
  cases hraw with
  | primitive hk => cases hc
  | boxed hk | primitiveArray hk => exact ⟨.null, .inl ⟨rfl, rfl⟩⟩
  | @optional o ho => exact ⟨.optional o none, sameIntegers_optional.mpr (.inl ⟨rfl, rfl⟩)⟩
  | array hcomponent _ => exact ⟨.null, (sameIntegers_array hcomponent).mpr (.inl ⟨rfl, rfl⟩)⟩

/-- An integer is said to be out of a range exactly where such a one is reached. -/
theorem value_eq_outOfRange_iff (hraw : raw.Integral) :
    w.value (.ofRaw raw) = .error (.outOfRange k s) ↔
      ∃ n, IntegerReached k n raw w ∧ ¬k.Holds n ∧ s = integerText n := by
  induction hraw generalizing w with
  | @primitive j hj =>
    have hscalar : (RawType.primitive j).scalarKind? = some j := rfl
    simp only [integerReached_scalar hscalar]
    rw [value_primitive, map_eq_error_iff, readScalar_eq_outOfRange_iff hj]
  | @boxed j hj =>
    have hscalar : (RawType.boxed j).scalarKind? = some j := rfl
    simp only [integerReached_scalar hscalar]
    rw [value_boxed, unlessNull_eq_error_iff, map_eq_error_iff, unlessNull_outOfRange_iff hj]
  | @optional o ho =>
    simp only [integerReached_scalar (RawType.scalarKind?_optional o)]
    rw [value_optional, map_eq_error_iff, readOptional_eq_error_iff, unlessNull_outOfRange_iff ho]
  | @primitiveArray j hj =>
    have hscalar : (RawType.primitive j).scalarKind? = some j := rfl
    rw [value_primitiveArray]
    refine row_eq_outOfRange_iff (fun y => ?_) fun y => ?_
    · simp only [readScalarOrZero_eq_ok_iff_fills hj]
      constructor
      · rintro ⟨x, ⟨hnull, -⟩ | hx⟩
        · exact .inl hnull
        · exact .inr ⟨_, x, hx, rfl⟩
      · rintro (hnull | ⟨-, x, hx, -⟩)
        · exact ⟨_, .inl ⟨hnull, Scalar.toInt?_zero hj⟩⟩
        · exact ⟨x, .inr hx⟩
    · simp only [integerReached_scalar hscalar]
      rw [readScalarOrZero_eq_error_iff, unlessNull_outOfRange_iff hj]
  | array hc hraw ih =>
    rw [value_references w hc]
    refine row_eq_outOfRange_iff (fun y => ?_) fun y => ih
    simp only [value_eq_ok_iff hraw]
    refine ⟨.inr, ?_⟩
    rintro (rfl | h)
    · exact sameIntegers_null hraw hc
    · exact h

end Readings

end Wire

/-! ### Reading integers -/

/-- Integers are read as what they are. On registries of nothing but what is built in, whatever has been asked of them
    before, a tree is read as a value of an integral type exactly if both have the same integers in the same places. So
    an integer that its width does not hold makes reading fail wherever it stands; and reading fails for such an
    integer, with the width and its digits, exactly if nothing before it is amiss. -/
theorem RegistryM.fromWire_integral {ty : Descriptor} (hparams : ty.params = []) (hraw : ty.raw.Integral) (w : Wire)
    (history : List Lookup) :
    (∀ v, (fromWire w ty (Registry.builtInOnly.after history)).1 = .ok v ↔ w.SameIntegers ty.raw v) ∧
    (∀ k n, w.IntegerAt k n ty.raw → ¬k.Holds n →
      ∃ e, (fromWire w ty (Registry.builtInOnly.after history)).1 = .error e) ∧
    ∀ k s, (fromWire w ty (Registry.builtInOnly.after history)).1 = .error (.outOfRange k s) ↔
      ∃ n, w.IntegerReached k n ty.raw ∧ ¬k.Holds n ∧ s = integerText n := by
  rw [run_fromWire (.after history), w.value_ofRaw hparams]
  refine ⟨fun v => Wire.value_eq_ok_iff hraw, fun k n hn hout => ?_, fun k s => Wire.value_eq_outOfRange_iff hraw⟩
  cases hvalue : w.value (.ofRaw ty.raw) with
  | error e => exact ⟨e, rfl⟩
  | ok v => exact absurd (Wire.SameIntegers.holds ((Wire.value_eq_ok_iff hraw).mp hvalue) hn) hout

/-- Arrays of arrays of `Byte`: both ends of the range, each in another carrier, with nulls between them; and a 300
    behind a null and a whole array, before what is no byte either. -/
theorem RegistryM.fromWire_integral_bytes :
    (Descriptor.arrayOf (.arrayOf (.boxed .byte))).params = [] ∧
    (Descriptor.arrayOf (.arrayOf (.boxed .byte))).raw.Integral ∧
    (fromWire (.array [.array [.leaf (.integer (-128)), .null, .leaf (.bigInteger 127)], .null])
        (.arrayOf (.arrayOf (.boxed .byte))) (Registry.builtInOnly.after [])).1 =
      .ok (.array [.array [.scalar .byte (-128 : Int8), .null, .scalar .byte (127 : Int8)], .null]) ∧
    (∃ e, (fromWire (.array [.leaf (.string "x"), .array [.leaf (.bigInteger (2 ^ 64))]])
        (.arrayOf (.arrayOf (.boxed .byte))) (Registry.builtInOnly.after [])).1 = .error e) ∧
    (fromWire (.array [.array [.leaf (.integer 1)], .array [.null, .leaf (.bigInteger 300)], .leaf (.string "x")])
        (.arrayOf (.arrayOf (.boxed .byte))) (Registry.builtInOnly.after [])).1 =
      .error (.outOfRange .byte "300") := by
  have hraw : (Descriptor.arrayOf (.arrayOf (.boxed .byte))).raw.Integral := .array rfl (.array rfl (.boxed rfl))
  have hout {n : Int} (hn : 128 ≤ n) : ¬Kind.byte.Holds n := by
    rintro ⟨b, hb, -, hhigh⟩
    obtain rfl := Option.some.inj hb
    have hwide : n < 128 := hhigh
    omega
  refine ⟨rfl, hraw, ((fromWire_integral rfl hraw _ []).1 _).mpr ?_,
    (fromWire_integral rfl hraw _ []).2.1 .byte (2 ^ 64) ?_ (hout (by decide)),
    ((fromWire_integral rfl hraw _ []).2.2 _ _).mpr ⟨300, ?_, hout (by decide), rfl⟩⟩
  · have hends : List.Forall₂ (Wire.SameIntegers (.boxed .byte))
        [.leaf (.integer (-128)), .null, .leaf (.bigInteger 127)]
        [.scalar .byte (-128 : Int8), .null, .scalar .byte (127 : Int8)] :=
      .cons (.inr ⟨(-128 : Int8), ⟨-128, rfl, rfl⟩, rfl⟩)
        (.cons (.inl ⟨rfl, rfl⟩) (.cons (.inr ⟨(127 : Int8), ⟨127, rfl, rfl⟩, rfl⟩) .nil))
    exact .inr ⟨_, _, rfl, .cons (.inr ⟨_, _, rfl, hends, rfl⟩) (.cons (.inl ⟨rfl, rfl⟩) .nil), rfl⟩
  · exact .array (.tail _ (.head _)) (.array (.head _) (.scalar rfl rfl))
  · have hone : (Wire.array [.leaf (.integer 1)]).SameIntegers (.array (.boxed .byte))
        (.array [.scalar .byte (1 : Int8)]) :=
      .inr ⟨_, _, rfl, .cons (.inr ⟨(1 : Int8), ⟨1, rfl, rfl⟩, rfl⟩) .nil, rfl⟩
    have hinner : (Wire.array ([.null] ++ .leaf (.bigInteger 300) :: [])).IntegerReached .byte 300
        (.array (.boxed .byte)) :=
      .array (fun y hy => .inl (List.mem_singleton.mp hy)) (.scalar rfl rfl)
    have houter : (Wire.array ([.array [.leaf (.integer 1)]] ++
        .array ([.null] ++ .leaf (.bigInteger 300) :: []) :: [.leaf (.string "x")])).IntegerReached .byte 300
        (.array (.array (.boxed .byte))) :=
      .array (fun y hy => .inr ⟨_, List.mem_singleton.mp hy ▸ hone⟩) hinner
    exact houter

end TypedWire
