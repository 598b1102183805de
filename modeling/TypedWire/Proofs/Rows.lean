import Mathlib.Data.List.Forall2
import TypedWire.Proofs.RoundTrip

/-! # Rows of scalars

A primitive array is read into slots whose number is doubled when they are used up. What comes of it is what comes of
reading the items one by one into a list: the loop over the slots never leaves them, nothing of the slots that are left
over is seen, and the first item that is neither null nor a scalar of the kind is what reading fails for. -/

namespace TypedWire

/-! ### Slots without a proof -/

namespace Buffer
variable {α : Type}

/-- The slots of a buffer and how many of them are filled. -/
def plain (b : Buffer α) : Array α × Nat :=
  (b.slots, b.filled)

/-- Writes a slot; nothing comes of it where the slot is not there. -/
def write? (slots : Array α) (i : Nat) (x : α) : Option (Array α) :=
  if h : i < slots.size then some (slots.set i x h) else none

/-- Writes the slot behind the filled ones, in twice the slots if all are filled. -/
def store? (blank x : α) (s : Array α × Nat) : Option (Array α × Nat) :=
  (write? (if s.2 = s.1.size then s.1 ++ Array.replicate s.1.size blank else s.1) s.2 x).map (·, s.2 + 1)

/-- The slot that a buffer writes next is there: if all are filled there are some, and twice as many are more. -/
theorem store?_plain (blank x : α) (b : Buffer α) : store? blank x b.plain = some (b.push blank x).plain := by
  have hle := b.filled_le
  by_cases hfull : b.filled = b.slots.size
  · have hroom : ¬b.filled < b.slots.size := by omega
    have hfree : b.filled < (b.slots ++ Array.replicate b.slots.size blank).size := filled_lt_double blank hroom
    rw [store?, plain, if_pos hfull, write?, dif_pos hfree, push, dif_neg hroom]
    rfl
  · have hroom : b.filled < b.slots.size := by omega
    rw [store?, plain, if_neg hfull, write?, dif_pos hroom, push, dif_pos hroom]
    rfl

end Buffer

namespace DecoderM

/-- Fills slots with the scalars that are left of the innermost array; nothing comes of it where a slot is not
    there. -/
def fillSlots (k : Kind) : Nat → Array k.Carrier × Nat → DecoderM (Option (Array k.Carrier × Nat))
  | 0, _ => throw .unexpectedEnd
  | n + 1, s => do
    if ← hasNext then
      let x ← scalarOrZero k
      match Buffer.store? (Scalar.zero k) x s with
      | some s => fillSlots k n s
      | none => return none
    else return some s

/-- Takes an array of scalars into slots, and cuts off those that are left over. -/
def slotRow (k : Kind) : DecoderM (Option (List k.Carrier)) := do
  openArray
  let n ← remaining
  let s ← fillSlots k (n + 1) (Array.replicate k.rowCapacity (Scalar.zero k), 0)
  close
  return s.map fun s => s.1.toList.take s.2

/-- Takes the scalars that are left of the innermost array, one by one. -/
def scalarsLeft (k : Kind) : Nat → DecoderM (List k.Carrier)
  | 0 => throw .unexpectedEnd
  | n + 1 => do
    if ← hasNext then
      let x ← scalarOrZero k
      return x :: (← scalarsLeft k n)
    else return []

def scalarsOf (k : Kind) : DecoderM (List k.Carrier) := do
  openArray
  let n ← remaining
  let xs ← scalarsLeft k (n + 1)
  close
  return xs

theorem fillSlots_plain (k : Kind) (n : Nat) (row : Buffer k.Carrier) :
    fillSlots k n row.plain = (fun row => some row.plain) <$> fillRow k n row := by
  induction n generalizing row with
  | zero => rfl
  | succ n ih =>
    rw [fillSlots, fillRow, map_bind]
    congr 1
    funext more
    cases more with
    | false => rfl
    | true =>
      simp only [if_true, map_bind, Buffer.store?_plain, ih]

theorem slotRow_eq (k : Kind) : slotRow k = some <$> scalarRow k := by
  have hstart : (Array.replicate k.rowCapacity (Scalar.zero k), 0) =
    (Buffer.ofCapacity k.rowCapacity k.rowCapacity_pos (Scalar.zero k)).plain := rfl
  unfold slotRow scalarRow
  simp only [hstart, fillSlots_plain, map_bind, bind_map_left]
  rfl

theorem toList_fillRow (k : Kind) (n : Nat) (row : Buffer k.Carrier) :
    Buffer.toList <$> fillRow k n row = (row.toList ++ ·) <$> scalarsLeft k n := by
  induction n generalizing row with
  | zero => rfl
  | succ n ih =>
    rw [scalarsLeft, fillRow, map_bind, map_bind]
    congr 1
    funext more
    cases more with
    | false => simp
    | true =>
      simp only [if_true, map_bind, ih, Buffer.toList_push, List.append_assoc]
      simp only [map_eq_pure_bind, pure_bind, List.singleton_append]

theorem scalarRow_eq (k : Kind) : scalarRow k = scalarsOf k := by
  have hfilled (n : Nat) : Buffer.toList <$> fillRow k n (.ofCapacity k.rowCapacity k.rowCapacity_pos (Scalar.zero k)) =
      scalarsLeft k n := by
    rw [toList_fillRow, Buffer.toList_ofCapacity]
    exact id_map _
  unfold scalarRow scalarsOf
  simp only [← hfilled, bind_map_left]

end DecoderM

/-! ### Outcomes of lists -/

section Outcomes
variable {ε α β : Type} {f : α → Except ε β}

theorem map_eq_ok_iff {x : Except ε α} {g : α → β} {b : β} : x.map g = .ok b ↔ ∃ a, x = .ok a ∧ b = g a := by
  cases x with
  | error e => exact ⟨nofun, nofun⟩
  | ok a => exact ⟨fun h => ⟨a, rfl, (Except.ok.inj h).symm⟩, fun ⟨_, ha, hb⟩ => by rw [hb, ← Except.ok.inj ha]; rfl⟩

theorem map_eq_error_iff {x : Except ε α} {g : α → β} {e : ε} : x.map g = .error e ↔ x = .error e := by
  cases x with
  | error e' => exact ⟨fun h => congrArg _ (Except.error.inj h), fun h => congrArg _ (Except.error.inj h)⟩
  | ok a => exact ⟨nofun, nofun⟩

theorem mapM_cons_ok {x : α} {y : β} (h : f x = .ok y) (xs : List α) :
    (x :: xs).mapM f = (xs.mapM f).map (y :: ·) := by
  rw [List.mapM_cons, h]
  show (xs.mapM f).bind _ = _
  cases xs.mapM f <;> rfl

theorem mapM_cons_error {x : α} {e : ε} (h : f x = .error e) (xs : List α) : (x :: xs).mapM f = .error e := by
  rw [List.mapM_cons, h]
  rfl

theorem mapM_eq_ok_iff {xs : List α} {ys : List β} :
    xs.mapM f = .ok ys ↔ List.Forall₂ (fun x y => f x = .ok y) xs ys := by
  induction xs generalizing ys with
  | nil => cases ys <;> simp [pure, Except.pure]
  | cons x xs ih =>
    constructor
    · intro h
      cases hx : f x with
      | error e => cases (mapM_cons_error hx xs).symm.trans h
      | ok y =>
        rw [mapM_cons_ok hx] at h
        cases hxs : xs.mapM f with
        | error e => rw [hxs] at h; cases h
        | ok rest =>
          rw [hxs] at h
          cases h
          exact .cons hx (ih.mp hxs)
    · rintro (_ | ⟨hx, hrest⟩)
      rw [mapM_cons_ok hx, ih.mpr hrest]
      rfl

/-- What a list is refused for is what the first refused element is refused for. -/
theorem mapM_eq_error_iff {xs : List α} {e : ε} :
    xs.mapM f = .error e ↔
      ∃ before x after, xs = before ++ x :: after ∧ (∀ y ∈ before, ∃ b, f y = .ok b) ∧ f x = .error e := by
  induction xs with
  | nil => simp [pure, Except.pure]
  | cons x xs ih =>
    constructor
    · intro h
      cases hx : f x with
      | error e' =>
        obtain rfl := Except.error.inj ((mapM_cons_error hx xs).symm.trans h)
        exact ⟨[], x, xs, rfl, nofun, hx⟩
      | ok y =>
        rw [mapM_cons_ok hx] at h
        cases hxs : xs.mapM f with
        | ok rest => rw [hxs] at h; cases h
        | error e' =>
          rw [hxs] at h
          cases h
          obtain ⟨before, x', after, rfl, hbefore, hx'⟩ := ih.mp hxs
          exact ⟨x :: before, x', after, rfl, List.forall_mem_cons.mpr ⟨⟨y, hx⟩, hbefore⟩, hx'⟩
    · rintro ⟨before, x', after, hsplit, hbefore, hx'⟩
      cases before with
      | nil =>
        obtain ⟨rfl, rfl⟩ := List.cons.inj hsplit
        exact mapM_cons_error hx' _
      | cons y before =>
        obtain ⟨rfl, rfl⟩ := List.cons.inj hsplit
        obtain ⟨⟨b, hy⟩, hbefore⟩ := List.forall_mem_cons.mp hbefore
        rw [mapM_cons_ok hy, ih.mpr ⟨before, x', after, rfl, hbefore, hx'⟩]
        rfl

end Outcomes

/-! ### Items and scalars -/

namespace Wire
variable {k : Kind} {w : Wire}

/-- An item stands for a scalar: a null for the zero, anything else for what it is read as. -/
def StandsFor (k : Kind) (w : Wire) (x : k.Carrier) : Prop :=
  if w.isNull then x = Scalar.zero k else w.readScalar k = .ok x

theorem readScalarOrZero_eq_ok_iff {x : k.Carrier} : w.readScalarOrZero k = .ok x ↔ w.StandsFor k x := by
  unfold readScalarOrZero StandsFor
  split
  · exact ⟨fun h => (Except.ok.inj h).symm, fun h => congrArg Except.ok h.symm⟩
  · rfl

theorem readScalarOrZero_eq_error_iff {e : CodecError} :
    w.readScalarOrZero k = .error e ↔ w.isNull = false ∧ w.readScalar k = .error e := by
  unfold readScalarOrZero
  cases w.isNull with
  | true => simp
  | false => simp

end Wire

/-! ### Reading a primitive array -/

section Reading
variable {k : Kind}

theorem ReadM.readWithin_primitiveArray (k : Kind) (ty : Descriptor) (depth : Nat) :
    readWithin depth (.plain (.primitiveArray k)) ty =
      unlessNull (Value.primitiveArray k <$> SessionM.drive (DecoderM.scalarRow k)) := by
  cases depth <;> rfl

theorem ReadM.gives_primitiveArray (k : Kind) (ty : Descriptor) (r : Registry) {d : Decoder} {items : List Wire}
    (h : d.current = .ok (.array items)) :
    Gives (read (.plain (.primitiveArray k)) ty) ⟨r, d⟩
      ((items.mapM (Wire.readScalarOrZero k)).map (.primitiveArray k)) fun s => s = ⟨r, d.drop⟩ := by
  have hpeek : DecoderM.peek d = (.ok (.array items), d) := by rw [DecoderM.peek, h]
  refine .after (SessionM.run_drive hpeek r) ?_
  rw [readWithin_primitiveArray]
  refine .after (SessionM.run_drive (DecoderM.run_takeNull h) r) ?_
  obtain ⟨s, hrun, hpost⟩ := (SessionM.gives_drive (DecoderM.gives_scalarRow h k) r).map (g := Value.primitiveArray k)
  refine ⟨s, hrun, fun v hv => ?_⟩
  obtain ⟨r', d'⟩ := s
  obtain ⟨hr, hd⟩ := hpost v hv
  obtain rfl : r' = r := hr
  obtain rfl : d' = d.drop := hd
  rfl

theorem Value.fromWire_toWire_primitiveArray (hk : k ≠ .float) (xs : List k.Carrier) (policy : Option Inclusion)
    (history : List Lookup) :
    ∃ w r, RegistryM.toWire (.primitiveArray k xs) (primitiveArrayType k) policy
        (Registry.builtInOnly.after history) = (.ok w, r) ∧
      (RegistryM.fromWire w (primitiveArrayType k) r).1 = .ok (.primitiveArray k xs) := by
  have hv : Inhabits (.array (.primitive k)) (.primitiveArray k xs) := .primitiveArray xs
  obtain ⟨r, hr, hwrite⟩ := RegistryM.run_toWire (Registry.Bare.after history) hv.takes policy
  refine ⟨_, r, hwrite, ?_⟩
  rw [RegistryM.run_fromWire hr]
  exact hv.value_tree _ (.primitiveArray hk)

/-- A primitive array is read as its items are one by one. The slots that its elements are put into are never left,
    whatever the decoder holds; and the elements are those that are taken one after the other. From an array, as many
    elements come as it has items, each what its item stands for, and the whole array is taken; or it is refused for its
    first item that is neither null nor a scalar of the kind. What has been written, but for floats of 32 bits, is read
    as it was. -/
theorem ReadM.primitiveArray_elementwise (k : Kind) :
    DecoderM.slotRow k = some <$> DecoderM.scalarRow k ∧
    DecoderM.scalarRow k = DecoderM.scalarsOf k ∧
    (∀ (ty : Descriptor) (r : Registry) (d : Decoder) (items : List Wire), d.current = .ok (.array items) →
      ∃ result s, read (.plain (.primitiveArray k)) ty ⟨r, d⟩ = (result, s) ∧
        (∀ v, result = .ok v ↔ ∃ xs, v = .primitiveArray k xs ∧ List.Forall₂ (Wire.StandsFor k) items xs) ∧
        (∀ v, result = .ok v → s = ⟨r, d.drop⟩) ∧
        ∀ e, result = .error e ↔ ∃ before w after, items = before ++ w :: after ∧
          (∀ y ∈ before, ∃ x, y.StandsFor k x) ∧ w.isNull = false ∧ w.readScalar k = .error e) ∧
    (k ≠ .float → ∀ (xs : List k.Carrier) (policy : Option Inclusion) (history : List Lookup),
      ∃ w r, RegistryM.toWire (.primitiveArray k xs) (Value.primitiveArrayType k) policy
          (Registry.builtInOnly.after history) = (.ok w, r) ∧
        (RegistryM.fromWire w (Value.primitiveArrayType k) r).1 = .ok (.primitiveArray k xs)) := by
  refine ⟨DecoderM.slotRow_eq k, DecoderM.scalarRow_eq k, fun ty r d items h => ?_,
    fun hk xs policy history => Value.fromWire_toWire_primitiveArray hk xs policy history⟩
  obtain ⟨s, hread, hpost⟩ := gives_primitiveArray k ty r h
  refine ⟨_, s, hread, fun v => ?_, hpost, fun e => ?_⟩
  · simp only [map_eq_ok_iff, mapM_eq_ok_iff, Wire.readScalarOrZero_eq_ok_iff]
    exact exists_congr fun xs => and_comm
  · rw [map_eq_error_iff, mapM_eq_error_iff]
    simp only [Wire.readScalarOrZero_eq_ok_iff, Wire.readScalarOrZero_eq_error_iff]

/-- More bytes than there are slots at first: a hundred sevens and a null make a row that ends in a zero, and a 300
    after them is what they are refused for. A row of them that is written is read as it was. -/
theorem ReadM.primitiveArray_elementwise_bytes :
    Decoder.current (.ofWire (.array (List.replicate 100 (.leaf (.integer 7)) ++ [.null]))) =
      .ok (.array (List.replicate 100 (.leaf (.integer 7)) ++ [.null])) ∧
    Decoder.current (.ofWire (.array (List.replicate 100 (.leaf (.integer 7)) ++ .leaf (.bigInteger 300) :: [.null]))) =
      .ok (.array (List.replicate 100 (.leaf (.integer 7)) ++ .leaf (.bigInteger 300) :: [.null])) ∧
    Kind.byte ≠ .float ∧
    (read (.plain (.primitiveArray .byte)) (Value.primitiveArrayType .byte) ⟨Registry.builtInOnly,
      .ofWire (.array (List.replicate 100 (.leaf (.integer 7)) ++ [.null]))⟩).1 =
        .ok (.primitiveArray .byte (List.replicate 100 (7 : Int8) ++ [(0 : Int8)])) ∧
    (read (.plain (.primitiveArray .byte)) (Value.primitiveArrayType .byte) ⟨Registry.builtInOnly,
      .ofWire (.array (List.replicate 100 (.leaf (.integer 7)) ++ .leaf (.bigInteger 300) :: [.null]))⟩).1 =
        .error (.outOfRange .byte "300") ∧
    ∃ w r, RegistryM.toWire (.primitiveArray .byte (List.replicate 101 (7 : Int8))) (Value.primitiveArrayType .byte)
        none (Registry.builtInOnly.after []) = (.ok w, r) ∧
      (RegistryM.fromWire w (Value.primitiveArrayType .byte) r).1 =
        .ok (.primitiveArray .byte (List.replicate 101 (7 : Int8))) := by
  obtain ⟨-, -, hread, hwritten⟩ := primitiveArray_elementwise .byte
  have hseven : (Wire.leaf (.integer 7)).StandsFor .byte (7 : Int8) := rfl
  have hsevens : List.Forall₂ (Wire.StandsFor .byte) (List.replicate 100 (.leaf (.integer 7)))
      (List.replicate 100 (7 : Int8)) :=
    List.forall₂_of_length_eq_of_get rfl fun i _ _ => by
      simpa only [List.get_eq_getElem, List.getElem_replicate] using hseven
  refine ⟨rfl, rfl, by decide, ?_, ?_, hwritten (by decide) _ none []⟩
  · obtain ⟨result, s, hrun, hok, -⟩ := hread (Value.primitiveArrayType .byte) Registry.builtInOnly
      (.ofWire (.array (List.replicate 100 (.leaf (.integer 7)) ++ [.null]))) _ rfl
    rw [hrun]
    exact (hok _).mpr ⟨_, rfl, List.rel_append hsevens (.cons rfl .nil)⟩
  · obtain ⟨result, s, hrun, -, -, herror⟩ := hread (Value.primitiveArrayType .byte) Registry.builtInOnly
      (.ofWire (.array (List.replicate 100 (.leaf (.integer 7)) ++ .leaf (.bigInteger 300) :: [.null]))) _ rfl
    rw [hrun]
    exact (herror _).mpr ⟨_, _, _, rfl, fun y hy => ⟨7, (List.mem_replicate.mp hy).2 ▸ hseven⟩, rfl, rfl⟩

end Reading

end TypedWire
