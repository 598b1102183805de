import TypedWire.Proofs.ReadTree

/-! # What reading takes away

A deserializer of a registry without components takes one value from where the decoder stands, with all that the
value holds, as if it had been skipped; the scopes around the value are as they were. Where it fails, the value is
to blame: it is another token than the one asked for, a number out of range or a text of another form. The decoder
is never driven out of order, and never asked for a value that is not there. -/

namespace TypedWire

/-! ### The wire is to blame -/

/-- The wire holds another token, a number out of range or a text of another form. -/
def CodecError.blamesWire : CodecError → Bool
  | unexpectedToken _ _ | outOfRange _ _ | parse _ _ _ => true
  | _ => false

/-- If it fails, the wire is to blame. -/
def WireToBlame {α : Type} (x : Except CodecError α) : Prop :=
  ∀ e, x = .error e → e.blamesWire = true

namespace WireToBlame
variable {α β : Type} {x : Except CodecError α}

theorem ok (a : α) : WireToBlame (.ok a) :=
  nofun

theorem error {e : CodecError} (h : e.blamesWire = true) : WireToBlame (.error e : Except CodecError α) :=
  fun _ he => Except.error.inj he ▸ h

theorem unexpected (expected : String) (w : Wire) : WireToBlame (w.unexpected expected : Except CodecError α) :=
  error rfl

theorem map (h : WireToBlame x) (f : α → β) : WireToBlame (x.map f) := by
  cases x with
  | ok a => exact ok (f a)
  | error e => exact error (h e rfl)

theorem bind (h : WireToBlame x) {f : α → Except CodecError β} (hf : ∀ a, WireToBlame (f a)) :
    WireToBlame (x.bind f) := by
  cases x with
  | ok a => exact hf a
  | error e => exact error (h e rfl)

theorem mapError {ε : Type} (x : Except ε α) {f : ε → CodecError} (hf : ∀ e, (f e).blamesWire = true) :
    WireToBlame (x.mapError f) := by
  cases x with
  | ok a => exact ok a
  | error e => exact error (hf e)

theorem mapM {f : β → Except CodecError α} (hf : ∀ b, WireToBlame (f b)) (bs : List β) : WireToBlame (bs.mapM f) := by
  induction bs with
  | nil => exact ok []
  | cons b rest ih =>
    rw [List.mapM_cons]
    exact (hf b).bind fun a => ih.bind fun as => ok (a :: as)

end WireToBlame

namespace Wire
variable (w : Wire)

/-! ### Scalars and texts -/

theorem toBlame_readInt64 (target : Kind) : WireToBlame (w.readInt64 target) := by
  unfold readInt64
  split
  · exact .ok _
  · split
    · exact .ok _
    · exact .error rfl
  · exact .unexpected _ _

theorem toBlame_readWidth {α : Type} (target : Kind) (bits : Nat) (narrow : Int → α) :
    WireToBlame (w.readWidth target bits narrow) := by
  refine (w.toBlame_readInt64 target).bind fun n => ?_
  dsimp only
  split
  · exact .ok _
  · exact .error rfl

theorem toBlame_readBinary64 (target : Kind) : WireToBlame (w.readBinary64 target) := by
  unfold readBinary64
  split
  · exact .ok _
  · exact .ok _
  · exact .ok _
  · exact .ok _
  · exact .unexpected _ _

theorem toBlame_readBinary32 : WireToBlame w.readBinary32 := by
  refine (w.toBlame_readBinary64 .float).bind fun wide => ?_
  dsimp only
  split
  · exact .error rfl
  · exact .ok _

theorem toBlame_readChar : WireToBlame w.readChar := by
  unfold readChar
  split
  · split
    · exact .ok _
    · exact .error rfl
  · split
    · exact .ok _
    · exact .error rfl
  · exact .unexpected _ _

theorem toBlame_readBoolean : WireToBlame w.readBoolean := by
  unfold readBoolean
  split
  · exact .ok _
  · exact .unexpected _ _

theorem toBlame_readScalar (k : Kind) : WireToBlame (w.readScalar k) := by
  cases k with
  | boolean => exact w.toBlame_readBoolean
  | byte | short | int => exact w.toBlame_readWidth _ _ _
  | long => exact w.toBlame_readInt64 _
  | float => exact w.toBlame_readBinary32
  | double => exact w.toBlame_readBinary64 _
  | char => exact w.toBlame_readChar

theorem toBlame_readString : WireToBlame w.readString := by
  unfold readString
  split
  · exact .ok _
  · exact .unexpected _ _

theorem toBlame_readBigInteger : WireToBlame w.readBigInteger := by
  unfold readBigInteger
  split
  · exact .ok _
  · exact .ok _
  · exact .mapError _ fun _ => rfl
  · exact .unexpected _ _

theorem toBlame_readBigDecimal : WireToBlame w.readBigDecimal := by
  unfold readBigDecimal
  split
  · exact .ok _
  · exact .mapError _ fun _ => rfl
  · exact .ok _
  · exact .ok _
  · exact .mapError _ fun _ => rfl
  · exact .unexpected _ _

theorem toBlame_readText (t : TextType) : WireToBlame (w.readText t) :=
  w.toBlame_readString.bind fun _ => .mapError _ fun _ => rfl

theorem toBlame_readScalarOrZero (k : Kind) : WireToBlame (w.readScalarOrZero k) := by
  unfold readScalarOrZero
  split
  · exact .ok _
  · exact w.toBlame_readScalar k

theorem toBlame_readOptional (k : Kind) : WireToBlame (w.readOptional k) := by
  unfold readOptional
  split
  · exact .ok _
  · exact (w.toBlame_readScalar k).map _

/-! ### Values of a type -/

theorem toBlame_unlessNull {x : Except CodecError Value} (h : WireToBlame x) : WireToBlame (w.unlessNull x) := by
  unfold unlessNull
  split
  · exact .ok _
  · exact h

theorem toBlame_ifArray {α : Type} {x : Except CodecError α} (h : WireToBlame x) : WireToBlame (w.ifArray x) := by
  unfold ifArray
  split
  · exact h
  · exact .unexpected _ _

theorem toBlame_readRow (k : Kind) : WireToBlame (w.readRow k) :=
  w.toBlame_ifArray (.mapM (fun item => item.toBlame_readScalarOrZero k) _)

variable {w} {items : Descriptor → Except CodecError (List Value)}
  {members : Descriptor → Except CodecError (List (String × Value))}

theorem toBlame_makeBy (hitems : ∀ c, WireToBlame (items c)) (hmembers : ∀ c, WireToBlame (members c))
    (r : ValueReader) (ty : Descriptor) : WireToBlame (r.make ty w items members) := by
  cases r with
  | scalar k => exact (w.toBlame_readScalar k).map _
  | string => exact w.toBlame_readString.map _
  | bigInteger => exact w.toBlame_unlessNull (w.toBlame_readBigInteger.map _)
  | bigDecimal => exact w.toBlame_unlessNull (w.toBlame_readBigDecimal.map _)
  | text t => exact w.toBlame_unlessNull ((w.toBlame_readText t).map _)
  | optional o => exact (w.toBlame_readOptional o.kind).map _
  | primitiveArray k => exact w.toBlame_unlessNull ((w.toBlame_readRow k).map _)
  | object =>
    cases w with
    | leaf l => exact .ok _
    | array ws => exact (hitems .object).map _
    | object ms => exact (hmembers .object).map _
  | objectArray => exact w.toBlame_unlessNull ((w.toBlame_ifArray (hitems _)).map _)
  | elements => exact (w.toBlame_ifArray (hitems _)).map _
  | constant tag allowsNull default => exact .ok _

theorem toBlame_make (hitems : ∀ c, WireToBlame (items c)) (hmembers : ∀ c, WireToBlame (members c))
    (d : Deserializer) (ty : Descriptor) : WireToBlame (d.make ty w items members) := by
  unfold Deserializer.make
  split
  · exact w.toBlame_unlessNull (toBlame_makeBy hitems hmembers d.reader ty)
  · exact toBlame_makeBy hitems hmembers d.reader ty

mutual
/-- A tree is read as a value of a type, or the tree is to blame. -/
theorem toBlame_value (ty : Descriptor) : ∀ w : Wire, WireToBlame (w.value ty)
  | leaf _ => toBlame_make (fun _ => .ok _) (fun _ => .ok _) _ ty
  | array items => toBlame_make (fun c => toBlame_values c items) (fun _ => .ok _) _ ty
  | object members => toBlame_make (fun _ => .ok _) (fun c => toBlame_memberValues c members []) _ ty

theorem toBlame_values (ty : Descriptor) : ∀ items : List Wire, WireToBlame (values ty items)
  | [] => .ok _
  | w :: ws => (toBlame_value ty w).bind fun _ => (toBlame_values ty ws).map _

theorem toBlame_memberValues (ty : Descriptor) : ∀ (members : List (String × Wire)) (read : List (String × Value)),
    WireToBlame (memberValues ty members read)
  | [], _ => .ok _
  | (_, w) :: ms, _ => (toBlame_value ty w).bind fun _ => toBlame_memberValues ty ms _
end

/-! ### The contract -/

/-- Where nothing is registered, every type has a deserializer, and wherever a value can be read, this deserializer
    takes the value as if it were skipped, and nothing else; or the value is to blame. A tree is read as a value of
    the type, or refused, likewise. -/
theorem taken_or_to_blame (ty : Descriptor) (history : List Lookup) {d : Decoder} {w : Wire}
    (h : d.current = .ok w) :
    ∃ found r, RegistryM.findDeserializer ty (Registry.builtInOnly.after history) = (.ok found, r) ∧
      ((∃ v r' d', ReadM.read found.codec ty ⟨r, d⟩ = (.ok v, ⟨r', d'⟩) ∧
          DecoderM.skip d = (.ok (), d') ∧ d.Loses w d' ∧
          (RegistryM.fromWire w ty (Registry.builtInOnly.after history)).1 = .ok v) ∨
        ∃ e s, ReadM.read found.codec ty ⟨r, d⟩ = (.error e, s) ∧ e.blamesWire = true ∧
          (RegistryM.fromWire w ty (Registry.builtInOnly.after history)).1 = .error e) := by
  have hbare := Registry.Bare.after history
  obtain ⟨found, r, hf, hr, hcodec⟩ := hbare.findDeserializer ty
  obtain ⟨⟨r', d'⟩, hread, hpost⟩ := ReadM.reads_value w ty r d hr h
  have hwhole := RegistryM.run_fromWire hbare w ty
  have hblame := w.toBlame_value ty
  refine ⟨found, r, hf, ?_⟩
  rw [hcodec]
  cases hv : w.value ty with
  | error e =>
    rw [hv] at hread hwhole
    exact Or.inr ⟨e, _, hread, hblame e hv, hwhole⟩
  | ok v =>
    rw [hv] at hread hwhole hpost
    obtain rfl : d' = d.drop := (hpost v rfl).2
    exact Or.inl ⟨v, r', d.drop, hread, DecoderM.run_skip h, Decoder.loses_drop h, hwhole⟩

/-- A member behind its key, in an object that is the first item of an array: a list of an integer past 64 bits and
    an object. -/
theorem taken_or_to_blame_member :
    Decoder.current ⟨none, [.object [("b", .null)] (some (.array [.leaf (.bigInteger (2 ^ 70)), .object [("c", .null)]])),
      .array [.leaf (.boolean true)]]⟩ = .ok (.array [.leaf (.bigInteger (2 ^ 70)), .object [("c", .null)]]) ∧
    ∃ r r', RegistryM.findDeserializer .object (Registry.builtInOnly.after [.serializer .string]) =
        (.ok Registry.builtInOnly.objectDeserializer, r) ∧
      ReadM.read Registry.builtInOnly.objectDeserializer.codec .object
          ⟨r, ⟨none, [.object [("b", .null)] (some (.array [.leaf (.bigInteger (2 ^ 70)), .object [("c", .null)]])),
            .array [.leaf (.boolean true)]]⟩⟩ =
        (.ok (.list [.bigInteger (2 ^ 70), .object [("c", .null)]]),
          ⟨r', ⟨none, [.object [("b", .null)] none, .array [.leaf (.boolean true)]]⟩⟩) := by
  have hcurrent : Decoder.current ⟨none, [.object [("b", .null)]
      (some (.array [.leaf (.bigInteger (2 ^ 70)), .object [("c", .null)]])), .array [.leaf (.boolean true)]]⟩ =
    .ok (.array [.leaf (.bigInteger (2 ^ 70)), .object [("c", .null)]]) := rfl
  have hvalue : (RegistryM.fromWire (.array [.leaf (.bigInteger (2 ^ 70)), .object [("c", .null)]]) .object
      (Registry.builtInOnly.after [.serializer .string])).1 =
    .ok (.list [.bigInteger (2 ^ 70), .object [("c", .null)]]) :=
    RegistryM.run_fromWire (Registry.Bare.after _) _ _
  obtain ⟨found, r, hf, hread⟩ := taken_or_to_blame .object [.serializer .string] hcurrent
  have hok : (RegistryM.findDeserializer .object (Registry.builtInOnly.after [.serializer .string])).1 =
    .ok Registry.builtInOnly.objectDeserializer := rfl
  rw [hf] at hok
  obtain rfl := Except.ok.inj hok
  rcases hread with ⟨v, r', d', hread, hskip, -, hwhole⟩ | ⟨e, s, -, -, hwhole⟩
  · obtain rfl : _ = d' := (Prod.mk.inj hskip).2
    rw [Except.ok.inj (hwhole.symm.trans hvalue)] at hread
    exact ⟨hcurrent, r, r', hf, hread⟩
  · cases hwhole.symm.trans hvalue

end Wire

end TypedWire
