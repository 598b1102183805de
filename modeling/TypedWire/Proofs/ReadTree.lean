import TypedWire.Binding
import TypedWire.Proofs.BuiltIns
import TypedWire.Proofs.DecoderRuns

/-! # The value of a tree

Where nothing is registered, a tree is read as a value of a type without any state: the type says what is
made of a leaf, and of an array or an object once its parts have been read. A decoder that stands before the
tree is left behind it. -/

namespace TypedWire

/-- The value that a leaf is read as where nothing says more. -/
def Leaf.value : Leaf → Value
  | null => .null
  | boolean b => .scalar .boolean b
  | integer n => .scalar .long n
  | float x => .scalar .double x
  | bigInteger n =>
    match int64? n with
    | some n => .scalar .long n
    | none => .bigInteger n
  | bigDecimal d => .scalar .double d.toBinary64
  | string s => .string s

/-! ### What is made of a tree -/

namespace Wire

/-- The null value of a null, and what is not null as it comes. -/
def unlessNull (w : Wire) (x : Except CodecError Value) : Except CodecError Value :=
  if w.isNull then .ok .null else x

/-- What comes of an array; anything else is no array. -/
def ifArray {α : Type} (w : Wire) (x : Except CodecError α) : Except CodecError α :=
  match w with
  | array _ => x
  | w => w.unexpected "array"

def readScalarOrZero (k : Kind) (w : Wire) : Except CodecError k.Carrier :=
  if w.isNull then .ok (Scalar.zero k) else w.readScalar k

def readOptional (k : Kind) (w : Wire) : Except CodecError (Option k.Carrier) :=
  if w.isNull then .ok none else (w.readScalar k).map some

def readRow (k : Kind) (w : Wire) : Except CodecError (List k.Carrier) :=
  w.ifArray ((w.items?.getD []).mapM (readScalarOrZero k))

def readText (t : TextType) (w : Wire) : Except CodecError t.Carrier :=
  w.readString.bind fun s => (t.parse s).mapError (.parse t.name s)

end Wire

/-- What a reader for a type makes of a tree, once its items or members are read as values of a type. -/
def ValueReader.make (r : ValueReader) (ty : Descriptor) (w : Wire)
    (items : Descriptor → Except CodecError (List Value))
    (members : Descriptor → Except CodecError (List (String × Value))) : Except CodecError Value :=
  match r with
  | .scalar k => (w.readScalar k).map (.scalar k)
  | .string => w.readString.map .string
  | .bigInteger => w.unlessNull (w.readBigInteger.map .bigInteger)
  | .bigDecimal => w.unlessNull (w.readBigDecimal.map .bigDecimal)
  | .text t => w.unlessNull ((w.readText t).map (.textual t))
  | .optional o => (w.readOptional o.kind).map (.optional o)
  | .primitiveArray k => w.unlessNull ((w.readRow k).map (.primitiveArray k))
  | .object =>
    match w with
    | .leaf l => .ok l.value
    | .array _ => (items .object).map .list
    | .object _ => (members .object).map .object
  | .objectArray => w.unlessNull ((w.ifArray (items (ty.component?.getD .object))).map .array)
  | .elements => (w.ifArray (items ty.elementType)).map .list
  | .constant tag _ _ => .ok (.string tag)

def Deserializer.make (d : Deserializer) (ty : Descriptor) (w : Wire)
    (items : Descriptor → Except CodecError (List Value))
    (members : Descriptor → Except CodecError (List (String × Value))) : Except CodecError Value :=
  if d.nullAware then w.unlessNull (d.reader.make ty w items members) else d.reader.make ty w items members

namespace Wire

mutual
/-- The value of a type that a tree is read as. -/
def value (ty : Descriptor) : Wire → Except CodecError Value
  | leaf l => ty.builtInDeserializer.make ty (leaf l) (fun _ => .ok []) fun _ => .ok []
  | array items => ty.builtInDeserializer.make ty (array items) (fun c => values c items) fun _ => .ok []
  | object members =>
    ty.builtInDeserializer.make ty (object members) (fun _ => .ok []) fun c => memberValues c members []

def values (ty : Descriptor) : List Wire → Except CodecError (List Value)
  | [] => .ok []
  | w :: ws => (value ty w).bind fun v => (values ty ws).map (v :: ·)

/-- The members of an object, read as values of a type, after those read so far. -/
def memberValues (ty : Descriptor) :
    List (String × Wire) → List (String × Value) → Except CodecError (List (String × Value))
  | [], read => .ok read
  | (key, w) :: ms, read => (value ty w).bind fun v => memberValues ty ms (Members.insert key v read)
end

def itemValues (c : Descriptor) : Wire → Except CodecError (List Value)
  | array items => values c items
  | _ => .ok []

def partValues (c : Descriptor) : Wire → Except CodecError (List (String × Value))
  | object members => memberValues c members []
  | _ => .ok []

theorem value_eq_make (ty : Descriptor) (w : Wire) :
    w.value ty = ty.builtInDeserializer.make ty w (itemValues · w) (partValues · w) := by
  cases w <;> rfl

end Wire

/-! ### Decoders before a tree -/

namespace DecoderM
variable {d : Decoder} {w : Wire} {α : Type}

theorem gives_takeWith (hw : d.current = .ok w) (read : Wire → Except CodecError α) :
    Gives (takeWith read) d (read w) (· = d.drop) := by
  have hbind : d.current.bind read = read w := by rw [hw]; rfl
  cases hr : read w with
  | error e => exact ⟨d, by rw [takeWith, hbind, hr], nofun⟩
  | ok x => exact ⟨d.drop, by rw [takeWith, hbind, hr], fun _ _ => rfl⟩

theorem gives_scalarOrZero (hw : d.current = .ok w) (k : Kind) :
    Gives (scalarOrZero k) d (w.readScalarOrZero k) (· = d.drop) := by
  refine .after (run_takeNull hw) ?_
  unfold Wire.readScalarOrZero
  cases w.isNull with
  | true => exact .pure rfl
  | false => exact gives_takeWith hw (Wire.readScalar k)

theorem gives_optionalScalar (hw : d.current = .ok w) (k : Kind) :
    Gives (optionalScalar k) d (w.readOptional k) (· = d.drop) := by
  refine .after (run_takeNull hw) ?_
  unfold Wire.readOptional
  cases w.isNull with
  | true => exact .pure rfl
  | false => exact (gives_takeWith hw (Wire.readScalar k)).map

theorem gives_textual (hw : d.current = .ok w) (t : TextType) :
    Gives (textual t) d (w.readText t) (· = d.drop) := by
  refine (gives_takeWith hw Wire.readString).bind fun s d' _ hd => ?_
  cases t.parse s with
  | error reason => exact .throw
  | ok x => exact .pure hd

/-! ### Rows of scalars -/

def filled (k : Kind) : List Wire → Buffer k.Carrier → Except CodecError (Buffer k.Carrier)
  | [], row => .ok row
  | w :: ws, row => (w.readScalarOrZero k).bind fun x => filled k ws (row.push (Scalar.zero k) x)

theorem gives_fillRow (k : Kind) (d : Decoder) (items : List Wire) {n : Nat} (hn : items.length < n)
    (row : Buffer k.Carrier) :
    Gives (fillRow k n row) (d.enter (.array items)) (filled k items row) (· = d.enter (.array [])) := by
  induction items generalizing n row with
  | nil =>
    obtain ⟨n, rfl⟩ := Nat.exists_eq_succ_of_ne_zero (Nat.ne_zero_of_lt hn)
    exact .of_eq rfl fun _ _ => rfl
  | cons w ws ih =>
    obtain ⟨n, rfl⟩ := Nat.exists_eq_succ_of_ne_zero (Nat.ne_zero_of_lt hn)
    have hmore : hasNext (d.enter (.array (w :: ws))) = (.ok true, d.enter (.array (w :: ws))) := rfl
    refine .after hmore ?_
    refine (gives_scalarOrZero (d := d.enter (.array (w :: ws))) rfl k).bind fun x d' _ hd => ?_
    rw [hd]
    exact ih (Nat.lt_of_succ_lt_succ hn) _

theorem filled_toList (k : Kind) (items : List Wire) (row : Buffer k.Carrier) :
    (filled k items row).map (·.toList) =
      (items.mapM (Wire.readScalarOrZero k)).map (row.toList ++ ·) := by
  induction items generalizing row with
  | nil => simp [filled, Except.map, pure, Except.pure]
  | cons w ws ih =>
    rw [filled, List.mapM_cons]
    cases w.readScalarOrZero k with
    | error e => rfl
    | ok x =>
      simp only [Except.bind, ih, Buffer.toList_push, List.append_assoc, bind]
      cases ws.mapM (Wire.readScalarOrZero k) <;> rfl

theorem gives_scalarRow (hw : d.current = .ok w) (k : Kind) :
    Gives (scalarRow k) d (w.readRow k) (· = d.drop) := by
  cases w with
  | leaf l | object members => exact .of_eq (run_bind_error (run_openArray_error hw rfl)) nofun
  | array items =>
    have hcount : remaining (d.drop.enter (.array items)) = (.ok items.length, d.drop.enter (.array items)) := rfl
    have hrow : (Wire.array items).readRow k =
        (filled k items (.ofCapacity k.rowCapacity k.rowCapacity_pos (Scalar.zero k))).map (·.toList) := by
      rw [filled_toList, Buffer.toList_ofCapacity]
      show items.mapM (Wire.readScalarOrZero k) = _
      cases items.mapM (Wire.readScalarOrZero k) <;> rfl
    rw [hrow]
    refine .after (run_openArray hw) (.after hcount ?_)
    refine (gives_fillRow k d.drop items (Nat.lt_succ_self _) _).bindMap fun row d' hd => ?_
    exact .after (hd ▸ run_close d.drop) (.pure rfl)

end DecoderM

/-! ### Reading -/

namespace ReadM
variable {r : Registry} {d : Decoder} {w : Wire}

/-- A session over a bare registry whose decoder is known. -/
def At (d : Decoder) (s : Session Decoder) : Prop :=
  s.registry.Bare ∧ s.stream = d

/-- A reader makes a value of a tree as the types say, and is left behind the tree. -/
def Reads (read : ReadM Value) (w : Wire) (result : Except CodecError Value) : Prop :=
  ∀ r d, r.Bare → d.current = .ok w → Gives read ⟨r, d⟩ result (At d.drop)

theorem reads_map_drive {α : Type} {action : DecoderM α} {result : Except CodecError α} (f : α → Value)
    (h : ∀ d, d.current = .ok w → Gives action d result (· = d.drop)) :
    Reads (f <$> SessionM.drive action) w (result.map f) := by
  intro r d hr hw
  obtain ⟨s', hrun, hpost⟩ := (SessionM.gives_drive (h d hw) r).map (g := f)
  refine ⟨s', hrun, fun a ha => ?_⟩
  exact ⟨(hpost a ha).1 ▸ hr, (hpost a ha).2⟩

theorem Reads.unlessNull {read : ReadM Value} {result : Except CodecError Value} (h : Reads read w result) :
    Reads (unlessNull read) w (w.unlessNull result) := by
  intro r d hr hw
  refine .after (SessionM.run_drive (DecoderM.run_takeNull hw) r) ?_
  unfold Wire.unlessNull
  cases w.isNull with
  | true => exact .pure ⟨hr, rfl⟩
  | false => exact h r d hr hw

/-! ### Reading the parts of a scope -/

section Parts
variable {item : ReadM Value} {c : Descriptor}

theorem gives_readItems (items : List Wire) (hitem : ∀ w ∈ items, Reads item w (w.value c)) {n : Nat}
    (hn : items.length < n) (hr : r.Bare) (d : Decoder) :
    Gives (readItems item n) ⟨r, d.enter (.array items)⟩ (Wire.values c items) (At (d.enter (.array []))) := by
  induction items generalizing n r with
  | nil =>
    obtain ⟨n, rfl⟩ := Nat.exists_eq_succ_of_ne_zero (Nat.ne_zero_of_lt hn)
    exact .of_eq rfl fun _ _ => ⟨hr, rfl⟩
  | cons w ws ih =>
    obtain ⟨n, rfl⟩ := Nat.exists_eq_succ_of_ne_zero (Nat.ne_zero_of_lt hn)
    have hmore : DecoderM.hasNext (d.enter (.array (w :: ws))) = (.ok true, d.enter (.array (w :: ws))) := rfl
    refine .after (SessionM.run_drive hmore r) ?_
    refine (hitem w (List.mem_cons_self ..) r _ hr rfl).bind fun v s _ hs => ?_
    obtain ⟨hr', hd⟩ := hs
    obtain ⟨r', d'⟩ := s
    obtain rfl : d' = d.enter (.array ws) := hd
    exact (ih (fun w' hw' => hitem w' (List.mem_cons_of_mem _ hw')) (Nat.lt_of_succ_lt_succ hn) hr').bindMap
      fun vs s hs => .pure hs

theorem gives_readMembers (members : List (String × Wire)) (hmember : ∀ m ∈ members, Reads item m.2 (m.2.value c))
    {n : Nat} (hn : members.length < n) (hr : r.Bare) (d : Decoder) (read : List (String × Value)) :
    Gives (readMembers item n read) ⟨r, d.enter (.object members none)⟩ (Wire.memberValues c members read)
      (At (d.enter (.object [] none))) := by
  induction members generalizing n r read with
  | nil =>
    obtain ⟨n, rfl⟩ := Nat.exists_eq_succ_of_ne_zero (Nat.ne_zero_of_lt hn)
    exact .of_eq rfl fun _ _ => ⟨hr, rfl⟩
  | cons m ms ih =>
    obtain ⟨n, rfl⟩ := Nat.exists_eq_succ_of_ne_zero (Nat.ne_zero_of_lt hn)
    obtain ⟨key, w⟩ := m
    have hkey : DecoderM.nextKey (d.enter (.object ((key, w) :: ms) none)) =
        (.ok (some key), d.enter (.object ms (some w))) := rfl
    refine .after (SessionM.run_drive hkey r) ?_
    refine (hmember (key, w) (List.mem_cons_self ..) r _ hr rfl).bind fun v s _ hs => ?_
    obtain ⟨hr', hd⟩ := hs
    obtain ⟨r', d'⟩ := s
    obtain rfl : d' = d.enter (.object ms none) := hd
    exact ih (fun m' hm' => hmember m' (List.mem_cons_of_mem _ hm')) (Nat.lt_of_succ_lt_succ hn) hr' _

theorem gives_arrayOf (hw : d.current = .ok w) (hr : r.Bare)
    (hitem : ∀ items, w = .array items → ∀ w' ∈ items, Reads item w' (w'.value c)) :
    Gives (arrayOf item) ⟨r, d⟩ (w.ifArray (w.itemValues c)) (At d.drop) := by
  cases w with
  | leaf l | object members =>
    exact .of_eq (run_bind_error (SessionM.run_drive (DecoderM.run_openArray_error hw rfl) r)) nofun
  | array items =>
    have hcount : DecoderM.remaining (d.drop.enter (.array items)) =
        (.ok items.length, d.drop.enter (.array items)) := rfl
    have hid : (Wire.array items).ifArray ((Wire.array items).itemValues c) = (Wire.values c items).map id := by
      show Wire.values c items = _
      cases Wire.values c items <;> rfl
    rw [hid]
    refine .after (SessionM.run_drive (DecoderM.run_openArray hw) r) (.after (SessionM.run_drive hcount r) ?_)
    refine (gives_readItems items (hitem items rfl) (Nat.lt_succ_self _) hr d.drop).bindMap fun vs s hs => ?_
    obtain ⟨r', d'⟩ := s
    obtain rfl : d' = d.drop.enter (.array []) := hs.2
    exact .after (SessionM.run_drive (DecoderM.run_close d.drop) r') (.pure ⟨hs.1, rfl⟩)

theorem gives_objectOf {members : List (String × Wire)} (hw : d.current = .ok (.object members)) (hr : r.Bare)
    (hmember : ∀ m ∈ members, Reads item m.2 (m.2.value c)) :
    Gives (objectOf item) ⟨r, d⟩ (Wire.memberValues c members []) (At d.drop) := by
  have hcount : DecoderM.remaining (d.drop.enter (.object members none)) =
      (.ok members.length, d.drop.enter (.object members none)) := rfl
  have hclose : DecoderM.close (d.drop.enter (.object [] none)) = (.ok (), d.drop) := rfl
  have hid : Wire.memberValues c members [] = (Wire.memberValues c members []).map id := by
    cases Wire.memberValues c members [] <;> rfl
  rw [hid]
  refine .after (SessionM.run_drive (DecoderM.run_openObject hw) r) (.after (SessionM.run_drive hcount r) ?_)
  refine (gives_readMembers members hmember (Nat.lt_succ_self _) hr d.drop []).bindMap fun vs s hs => ?_
  obtain ⟨r', d'⟩ := s
  obtain rfl : d' = d.drop.enter (.object [] none) := hs.2
  exact .after (SessionM.run_drive hclose r') (.pure ⟨hs.1, rfl⟩)

end Parts

/-! ### Reading a tree -/

/-- What a scope holds is read part by part, as the deserializers of the types of the parts do. -/
structure ReadsParts (part : Deserializer → Descriptor → ReadM Value) (w : Wire) : Prop where
  items : ∀ items, w = .array items → ∀ w' ∈ items, ∀ c, Reads (part c.builtInDeserializer c) w' (w'.value c)
  members : ∀ members, w = .object members → ∀ m ∈ members, ∀ c,
    Reads (part c.builtInDeserializer c) m.2 (m.2.value c)

section Parts
variable {part : Deserializer → Descriptor → ReadM Value}

theorem reads_array (hpart : ReadsParts part w) (c : Descriptor) (f : List Value → Value) :
    Reads (do
      let found ← SessionM.ask (RegistryM.findDeserializer c)
      f <$> arrayOf (part found.codec c)) w ((w.ifArray (w.itemValues c)).map f) := by
  intro r d hr hw
  obtain ⟨found, r', hf, hr', hcodec⟩ := hr.findDeserializer c
  refine .after (SessionM.run_ask hf d) ?_
  rw [hcodec]
  exact (gives_arrayOf hw hr' fun items hi w' hw' => hpart.items items hi w' hw' c).map

/-- An integer that does not fit is left where it is, and taken as a big one then. -/
theorem gives_readInteger {l : Leaf} (hl : l.token = .integer) (hr : r.Bare) (hw : d.current = .ok (.leaf l)) :
    Gives readInteger ⟨r, d⟩ (.ok l.value) (At d.drop) := by
  have taken {x : Int64} (hx : (Wire.leaf l).readScalar .long = .ok x) (hv : l.value = .scalar .long x) :
      Gives readInteger ⟨r, d⟩ (.ok l.value) (At d.drop) := by
    have hrun : DecoderM.scalar .long d = (.ok x, d.drop) := by
      rw [DecoderM.scalar, DecoderM.takeWith, hw]
      simp only [Except.bind, hx]
    refine ⟨⟨r, d.drop⟩, ?_, fun _ _ => ⟨hr, rfl⟩⟩
    rw [readInteger, SessionM.run_drive hrun r, hv]
  cases l with
  | integer n => exact taken rfl rfl
  | bigInteger n =>
    cases hn : int64? n with
    | some x =>
      refine taken (x := x) ?_ ?_
      · simp only [Wire.readScalar, Wire.readInt64, hn]
      · simp only [Leaf.value, hn]
    | none =>
      have hrun : DecoderM.scalar .long d = (.error (.outOfRange .long (integerText n)), d) := by
        rw [DecoderM.scalar, DecoderM.takeWith, hw]
        simp only [Except.bind, Wire.readScalar, Wire.readInt64, hn]
      have hbig : DecoderM.bigInteger d = (.ok n, d.drop) := by
        rw [DecoderM.bigInteger, DecoderM.takeWith, hw]
        rfl
      refine ⟨⟨r, d.drop⟩, ?_, fun _ _ => ⟨hr, rfl⟩⟩
      rw [readInteger, SessionM.run_drive hrun r]
      simp only [Leaf.value, hn]
      exact run_map_ok (SessionM.run_drive hbig r)
  | null | boolean b | float x | bigDecimal x | string s => cases hl

theorem reads_any (hpart : ReadsParts part w) :
    Reads (readAny part) w (ValueReader.object.make .object w (w.itemValues ·) (w.partValues ·)) := by
  intro r d hr hw
  refine .after (SessionM.run_drive (DecoderM.run_peekToken hw) r) ?_
  cases w with
  | array items => exact reads_array hpart .object .list r d hr hw
  | object members =>
    obtain ⟨found, r', hf, hr', hcodec⟩ := hr.findDeserializer .object
    refine .after (SessionM.run_ask hf d) ?_
    rw [hcodec]
    exact (gives_objectOf hw hr' fun m hm => hpart.members members rfl m hm .object).map
  | leaf l =>
    cases l with
    | null => exact .after (SessionM.run_drive (DecoderM.run_skip hw) r) (.pure ⟨hr, rfl⟩)
    | boolean b => exact reads_map_drive _ (fun d hd => DecoderM.gives_takeWith hd _) r d hr hw
    | integer n | bigInteger n => exact gives_readInteger rfl hr hw
    | float x | bigDecimal x => exact reads_map_drive _ (fun d hd => DecoderM.gives_takeWith hd _) r d hr hw
    | string s => exact reads_map_drive _ (fun d hd => DecoderM.gives_takeWith hd _) r d hr hw

/-- A reader makes of a tree what it says, if the parts are read as values of their types. -/
theorem reads_by (hpart : ReadsParts part w) (reader : ValueReader) (ty : Descriptor) :
    Reads (readBy part reader ty) w (reader.make ty w (w.itemValues ·) (w.partValues ·)) := by
  cases reader with
  | scalar k => exact reads_map_drive _ fun d hd => DecoderM.gives_takeWith hd _
  | string => exact reads_map_drive _ fun d hd => DecoderM.gives_takeWith hd _
  | bigInteger => exact (reads_map_drive _ fun d hd => DecoderM.gives_takeWith hd _).unlessNull
  | bigDecimal => exact (reads_map_drive _ fun d hd => DecoderM.gives_takeWith hd _).unlessNull
  | text t => exact (reads_map_drive _ fun d hd => DecoderM.gives_textual hd t).unlessNull
  | optional o => exact reads_map_drive _ fun d hd => DecoderM.gives_optionalScalar hd o.kind
  | primitiveArray k => exact (reads_map_drive _ fun d hd => DecoderM.gives_scalarRow hd k).unlessNull
  | object => exact reads_any hpart
  | objectArray => exact (reads_array hpart _ _).unlessNull
  | elements => exact reads_array hpart _ _
  | constant tag allowsNull default =>
    intro r d hr hw
    exact .after (SessionM.run_drive (DecoderM.run_skip hw) r) (.pure ⟨hr, rfl⟩)

theorem reads_with (hpart : ReadsParts part w) (deserializer : Deserializer) (ty : Descriptor) :
    Reads (readWith part deserializer ty) w (deserializer.make ty w (w.itemValues ·) (w.partValues ·)) := by
  unfold readWith Deserializer.make
  cases deserializer.nullAware with
  | true => exact (reads_by hpart deserializer.reader ty).unlessNull
  | false => exact reads_by hpart deserializer.reader ty

end Parts

theorem depth_le_of_mem_items {items : List Wire} (hw : w ∈ items) : w.depth ≤ Wire.depthItems items := by
  induction items with
  | nil => cases hw
  | cons w' ws ih =>
    rw [Wire.depthItems]
    rcases List.mem_cons.mp hw with rfl | hw
    · exact Nat.le_max_left ..
    · exact Nat.le_trans (ih hw) (Nat.le_max_right ..)

theorem depth_le_of_mem_members {members : List (String × Wire)} {m : String × Wire} (hm : m ∈ members) :
    m.2.depth ≤ Wire.depthMembers members := by
  induction members with
  | nil => cases hm
  | cons m' ms ih =>
    obtain ⟨key, w'⟩ := m'
    rw [Wire.depthMembers]
    rcases List.mem_cons.mp hm with rfl | hm
    · exact Nat.le_max_left ..
    · exact Nat.le_trans (ih hm) (Nat.le_max_right ..)

/-- Through as many scopes as a tree has, it is read as the value that the types say. -/
theorem reads_within {n : Nat} (hn : w.depth ≤ n) (ty : Descriptor) :
    Reads (readWithin n ty.builtInDeserializer ty) w (w.value ty) := by
  rw [Wire.value_eq_make]
  -- Every scope that is entered takes one from the bound, and the parts are no deeper than what is left.
  induction n generalizing w ty with
  | zero =>
    refine reads_with ⟨?_, ?_⟩ _ ty
    · rintro items rfl
      simp [Wire.depth] at hn
    · rintro members rfl
      simp [Wire.depth] at hn
  | succ n ih =>
    refine reads_with ⟨?_, ?_⟩ _ ty
    · rintro items rfl w' hw' c
      have hdepth := depth_le_of_mem_items hw'
      rw [Wire.depth] at hn
      exact w'.value_eq_make c ▸ ih (by omega) c
    · rintro members rfl m hm c
      have hdepth := depth_le_of_mem_members hm
      rw [Wire.depth] at hn
      exact m.2.value_eq_make c ▸ ih (by omega) c

/-- The deserializer of a type takes one tree, whatever stands around it. -/
theorem reads_value (w : Wire) (ty : Descriptor) : Reads (read ty.builtInDeserializer ty) w (w.value ty) := by
  intro r d hr hw
  have hpeek : DecoderM.peek d = (.ok w, d) := by rw [DecoderM.peek, hw]
  exact .after (SessionM.run_drive hpeek r) (reads_within (Nat.le_refl _) ty r d hr hw)

end ReadM

/-- A tree is read as its value, and a registry that has read it is as bare as before. -/
theorem RegistryM.gives_fromWire {r : Registry} (hr : r.Bare) (w : Wire) (ty : Descriptor) :
    Gives (fromWire w ty) r (w.value ty) Registry.Bare := by
  obtain ⟨found, r₁, hf, hr₁, hcodec⟩ := hr.findDeserializer ty
  obtain ⟨⟨r₂, d⟩, hread, hpost⟩ := ReadM.reads_value w ty r₁ (.ofWire w) hr₁ rfl
  refine ⟨r₂, ?_, fun v hv => (hpost v hv).1⟩
  unfold fromWire SessionM.within
  rw [run_bind_ok (SessionM.run_ask hf _), hcodec]
  cases hv : w.value ty with
  | error e =>
    rw [hv] at hread
    rw [run_bind_error hread]
  | ok v =>
    rw [hv] at hread
    obtain rfl : d = (Decoder.ofWire w).drop := (hpost v hv).2
    have hfinish : DecoderM.finish (Decoder.ofWire w).drop = (.ok (), (Decoder.ofWire w).drop) := rfl
    rw [run_bind_ok hread, run_bind_ok (SessionM.run_drive hfinish r₂), run_pure]

theorem RegistryM.run_fromWire {r : Registry} (hr : r.Bare) (w : Wire) (ty : Descriptor) :
    (fromWire w ty r).1 = w.value ty := by
  obtain ⟨r', hrun, -⟩ := gives_fromWire hr w ty
  exact congrArg Prod.fst hrun

end TypedWire
