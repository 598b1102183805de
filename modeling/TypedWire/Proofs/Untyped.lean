import TypedWire.Proofs.ReadTree
import TypedWire.Proofs.WriteTree

/-! # Values without a type

Where nothing is registered and no type is named, a tree is read by its tokens and a value is written by its
shape. What is read from a tree holds all that the tree holds, so that it is written as that tree again; what is
written of a value is read as its generic form, which keeps the content and forgets the types. Decimals stand
apart: they are read as doubles. -/

namespace TypedWire

/-! ### Generic forms -/

namespace Leaf

/-- An integer in 64 bits where it fits. -/
def narrowed : Leaf → Leaf
  | bigInteger n =>
    match int64? n with
    | some n => integer n
    | none => bigInteger n
  | l => l

/-- All leaves but decimals. -/
def IsGeneric : Leaf → Prop
  | bigDecimal _ => False
  | _ => True

end Leaf

namespace Wire

mutual
/-- A tree with other leaves in the places of its own. -/
def mapLeaves (f : Leaf → Leaf) : Wire → Wire
  | leaf l => leaf (f l)
  | array items => array (mapItemLeaves f items)
  | object members => object (mapMemberLeaves f members)

def mapItemLeaves (f : Leaf → Leaf) : List Wire → List Wire
  | [] => []
  | w :: ws => mapLeaves f w :: mapItemLeaves f ws

def mapMemberLeaves (f : Leaf → Leaf) : List (String × Wire) → List (String × Wire)
  | [] => []
  | (key, w) :: ms => (key, mapLeaves f w) :: mapMemberLeaves f ms
end

/-- A tree with its integers in 64 bits where they fit, and all else as it is. -/
def narrowed (w : Wire) : Wire :=
  w.mapLeaves Leaf.narrowed

mutual
/-- What a tree holds, told by its tokens: arrays are lists and objects are objects. -/
def content : Wire → Value
  | leaf l => l.value
  | array items => .list (contents items)
  | object members => .object (memberContents members)

def contents : List Wire → List Value
  | [] => []
  | w :: ws => content w :: contents ws

def memberContents : List (String × Wire) → List (String × Value)
  | [] => []
  | (key, w) :: ms => (key, content w) :: memberContents ms
end

end Wire

/-- A scalar without its kind: an integer is a `long`, a number a `double`, and a character a string. -/
def Scalar.generic : (k : Kind) → k.Carrier → Value
  | .boolean, b => .scalar .boolean b
  | .byte, n => .scalar .long n.toInt64
  | .short, n => .scalar .long n.toInt64
  | .int, n => .scalar .long n.toInt64
  | .long, n => .scalar .long n
  | .float, x => .scalar .double x.convert
  | .double, x => .scalar .double x
  | .char, c => .string c.toString

namespace Value

mutual
/-- A value without its types: scalars by what they hold, texts as strings, optionals as what they hold or null,
    rows of whatever kind as lists. -/
def generic : Value → Value
  | scalar k x => Scalar.generic k x
  | bigInteger n =>
    match TypedWire.int64? n with
    | some n => scalar .long n
    | none => bigInteger n
  | textual t x => string (t.render x)
  | optional o (some x) => Scalar.generic o.kind x
  | optional _ none => null
  | primitiveArray k xs => list (xs.map (Scalar.generic k))
  | array items => list (genericItems items)
  | list items => list (genericItems items)
  | object members => object (genericMembers members)
  | v => v

def genericItems : List Value → List Value
  | [] => []
  | v :: vs => generic v :: genericItems vs

def genericMembers : List (String × Value) → List (String × Value)
  | [] => []
  | (key, v) :: ms => (key, generic v) :: genericMembers ms
end

end Value

/-! ### Members in order -/

/-- The next of a list of distinct keys goes to the end. -/
theorem Members.insert_next {α : Type} {ms : Members α} {key : String} {rest : List String} (x : α)
    (h : (keys ms ++ key :: rest).Nodup) :
    insert key x ms = ms ++ [(key, x)] ∧ (keys (ms ++ [(key, x)]) ++ rest).Nodup := by
  have hfresh : key ∉ keys ms := fun hk => (List.nodup_append.mp h).2.2 key hk key (List.mem_cons_self ..) rfl
  refine ⟨insert_of_not_mem hfresh, ?_⟩
  rw [keys, List.map_append, List.append_assoc]
  exact h

/-! ### Reading without a type -/

namespace Wire

mutual
/-- Without a type every tree can be read, and its content is what is read. -/
theorem value_object : ∀ w : Wire, w.WellFormed → w.value .object = .ok w.content
  | leaf _, _ => rfl
  | array items, h => congrArg (Except.map Value.list) (values_object items h)
  | object members, h => congrArg (Except.map Value.object) (memberValues_object members h.2 [] h.1)

theorem values_object : ∀ items : List Wire, WellFormedItems items → values .object items = .ok (contents items)
  | [], _ => rfl
  | w :: ws, h => by
    rw [values, value_object w h.1, values_object ws h.2]
    rfl

theorem memberValues_object : ∀ members : List (String × Wire), WellFormedMembers members →
    ∀ read : List (String × Value), (Members.keys read ++ Members.keys members).Nodup →
      memberValues .object members read = .ok (read ++ memberContents members)
  | [], _, read, _ => by rw [memberValues, memberContents, List.append_nil]
  | (key, w) :: ms, h, read, hkeys => by
    obtain ⟨hinsert, hnext⟩ := Members.insert_next w.content hkeys
    rw [memberValues, value_object w h.1]
    show memberValues .object ms (Members.insert key w.content read) = _
    rw [hinsert, memberValues_object ms h.2 _ hnext, memberContents, List.append_assoc]
    rfl
end

end Wire

/-! ### Writing without a type -/

namespace Value

/-- Under the policy that includes all, the members of an object become the members of its tree. -/
theorem memberTrees_always (members : List (String × Value)) (written : Members Wire)
    (hkeys : (Members.keys written ++ Members.keys members).Nodup) :
    memberTrees .always members written = written ++ members.map fun m => (m.1, m.2.tree .always) := by
  induction members generalizing written with
  | nil => rw [memberTrees, List.map_nil, List.append_nil]
  | cons m ms ih =>
    obtain ⟨key, v⟩ := m
    obtain ⟨hinsert, hnext⟩ := Members.insert_next (v.tree .always) hkeys
    show memberTrees .always ms (Members.insert key (v.tree .always) written) = _
    rw [hinsert, ih _ hnext, List.append_assoc]
    rfl

theorem tree_object {members : List (String × Value)} (h : Members.Distinct members) :
    (object members).tree .always = .object (members.map fun m => (m.1, m.2.tree .always)) := by
  rw [tree, memberTrees_always members [] h, List.nil_append]

theorem wellFormedItems_scalars {k : Kind} (xs : List k.Carrier) :
    Wire.WellFormedItems (xs.map fun x => .leaf (.ofScalar k x)) := by
  induction xs with
  | nil => trivial
  | cons x xs ih => exact ⟨trivial, ih⟩

mutual
theorem wellFormed_tree : ∀ v : Value, v.WellFormed → (v.tree .always).WellFormed
  | array items, h | list items, h => wellFormedItems_trees items h
  | object members, h => by
    rw [tree_object h.1]
    refine ⟨?_, wellFormedMembers_trees members h.2⟩
    rw [Members.Distinct, Members.keys, List.map_map]
    exact h.1
  | primitiveArray _ xs, _ => wellFormedItems_scalars xs
  | optional _ (some _), _ | optional _ none, _ => trivial
  | null, _ | scalar _ _, _ | string _, _ | bigInteger _, _ | bigDecimal _, _ | textual _ _, _ => trivial

theorem wellFormedItems_trees : ∀ items : List Value, WellFormedItems items →
    Wire.WellFormedItems (trees .always items)
  | [], _ => trivial
  | v :: vs, h => ⟨wellFormed_tree v h.1, wellFormedItems_trees vs h.2⟩

theorem wellFormedMembers_trees : ∀ members : List (String × Value), WellFormedMembers members →
    Wire.WellFormedMembers (members.map fun m => (m.1, m.2.tree .always))
  | [], _ => trivial
  | (_, v) :: ms, h => ⟨wellFormed_tree v h.1, wellFormedMembers_trees ms h.2⟩
end

/-! ### What is written and read again -/

theorem value_ofScalar_generic (k : Kind) (x : k.Carrier) : (Leaf.ofScalar k x).value = Scalar.generic k x := by
  cases k <;> rfl

theorem contents_scalars {k : Kind} (xs : List k.Carrier) :
    Wire.contents (xs.map fun x => .leaf (.ofScalar k x)) = xs.map (Scalar.generic k) := by
  induction xs with
  | nil => rfl
  | cons x xs ih => exact congrArg₂ List.cons (value_ofScalar_generic k x) ih

mutual
/-- The tree of a value without decimals holds the generic form of the value. -/
theorem content_tree : ∀ v : Value, v.FreeOfDecimals → v.WellFormed → (v.tree .always).content = v.generic
  | null, _, _ | string _, _, _ | bigInteger _, _, _ | textual _ _, _, _ | optional _ none, _, _ => by rfl
  | scalar k x, _, _ => value_ofScalar_generic k x
  | optional o (some x), _, _ => value_ofScalar_generic o.kind x
  | bigDecimal _, h, _ => absurd h id
  | primitiveArray _ xs, _, _ => congrArg Value.list (contents_scalars xs)
  | array items, h, hw | list items, h, hw => congrArg Value.list (contents_trees items h hw)
  | object members, h, hw => by
    rw [tree_object hw.1]
    exact congrArg Value.object (memberContents_trees members h hw.2)

theorem contents_trees : ∀ items : List Value, ItemsFreeOfDecimals items → WellFormedItems items →
    Wire.contents (trees .always items) = genericItems items
  | [], _, _ => rfl
  | v :: vs, h, hw => congrArg₂ List.cons (content_tree v h.1 hw.1) (contents_trees vs h.2 hw.2)

theorem memberContents_trees : ∀ members : List (String × Value), MembersFreeOfDecimals members →
    WellFormedMembers members →
    Wire.memberContents (members.map fun m => (m.1, m.2.tree .always)) = genericMembers members
  | [], _, _ => rfl
  | (key, v) :: ms, h, hw =>
    congrArg₂ List.cons (congrArg (Prod.mk key) (content_tree v h.1 hw.1)) (memberContents_trees ms h.2 hw.2)
end

end Value

theorem Registry.Bare.inclusion_eq {r : Registry} (h : r.Bare) : r.config.inclusion = .always := by
  rw [h.config]
  rfl

/-! ### What is read and written again -/

section Leaves
variable {f : Leaf → Leaf}

theorem Leaf.narrowed_narrowed (l : Leaf) : l.narrowed.narrowed = l.narrowed := by
  cases l with
  | bigInteger n =>
    cases hn : int64? n with
    | some n => simp only [narrowed, hn]
    | none => simp only [narrowed, hn]
  | _ => rfl

theorem Leaf.isGeneric_narrowed {l : Leaf} (h : l.IsGeneric) : l.narrowed.IsGeneric := by
  cases l with
  | bigInteger n =>
    cases hn : int64? n with
    | some n => simp only [narrowed, hn, IsGeneric]
    | none => simp only [narrowed, hn, IsGeneric]
  | _ => exact h

namespace Wire

theorem keys_mapMemberLeaves (members : List (String × Wire)) :
    Members.keys (mapMemberLeaves f members) = Members.keys members := by
  induction members with
  | nil => rfl
  | cons m ms ih => exact congrArg (m.1 :: ·) ih

mutual
theorem wellFormed_mapLeaves : ∀ w : Wire, w.WellFormed → (w.mapLeaves f).WellFormed
  | leaf _, _ => trivial
  | array items, h => wellFormedItems_mapLeaves items h
  | object members, h => by
    refine ⟨?_, wellFormedMembers_mapLeaves members h.2⟩
    rw [Members.Distinct, keys_mapMemberLeaves]
    exact h.1

theorem wellFormedItems_mapLeaves : ∀ items : List Wire, WellFormedItems items →
    WellFormedItems (mapItemLeaves f items)
  | [], _ => trivial
  | w :: ws, h => ⟨wellFormed_mapLeaves w h.1, wellFormedItems_mapLeaves ws h.2⟩

theorem wellFormedMembers_mapLeaves : ∀ members : List (String × Wire), WellFormedMembers members →
    WellFormedMembers (mapMemberLeaves f members)
  | [], _ => trivial
  | (_, w) :: ms, h => ⟨wellFormed_mapLeaves w h.1, wellFormedMembers_mapLeaves ms h.2⟩
end

mutual
theorem leaves_mapLeaves {p : Leaf → Prop} (hf : ∀ l, p l → p (f l)) : ∀ w : Wire,
    w.Leaves p → (w.mapLeaves f).Leaves p
  | leaf l, h => hf l h
  | array items, h => itemLeaves_mapItemLeaves hf items h
  | object members, h => memberLeaves_mapMemberLeaves hf members h

theorem itemLeaves_mapItemLeaves {p : Leaf → Prop} (hf : ∀ l, p l → p (f l)) : ∀ items : List Wire,
    ItemLeaves p items → ItemLeaves p (mapItemLeaves f items)
  | [], _ => trivial
  | w :: ws, h => ⟨leaves_mapLeaves hf w h.1, itemLeaves_mapItemLeaves hf ws h.2⟩

theorem memberLeaves_mapMemberLeaves {p : Leaf → Prop} (hf : ∀ l, p l → p (f l)) :
    ∀ members : List (String × Wire), MemberLeaves p members → MemberLeaves p (mapMemberLeaves f members)
  | [], _ => trivial
  | (_, w) :: ms, h => ⟨leaves_mapLeaves hf w h.1, memberLeaves_mapMemberLeaves hf ms h.2⟩
end

mutual
theorem mapLeaves_mapLeaves (hf : ∀ l, f (f l) = f l) : ∀ w : Wire, (w.mapLeaves f).mapLeaves f = w.mapLeaves f
  | leaf l => congrArg leaf (hf l)
  | array items => congrArg array (mapItemLeaves_mapItemLeaves hf items)
  | object members => congrArg object (mapMemberLeaves_mapMemberLeaves hf members)

theorem mapItemLeaves_mapItemLeaves (hf : ∀ l, f (f l) = f l) : ∀ items : List Wire,
    mapItemLeaves f (mapItemLeaves f items) = mapItemLeaves f items
  | [] => rfl
  | w :: ws => congrArg₂ List.cons (mapLeaves_mapLeaves hf w) (mapItemLeaves_mapItemLeaves hf ws)

theorem mapMemberLeaves_mapMemberLeaves (hf : ∀ l, f (f l) = f l) : ∀ members : List (String × Wire),
    mapMemberLeaves f (mapMemberLeaves f members) = mapMemberLeaves f members
  | [] => rfl
  | (key, w) :: ms =>
    congrArg₂ List.cons (congrArg (Prod.mk key) (mapLeaves_mapLeaves hf w)) (mapMemberLeaves_mapMemberLeaves hf ms)
end

theorem tree_value_leaf {l : Leaf} (h : l.IsGeneric) : l.value.tree .always = leaf l.narrowed := by
  cases l with
  | bigInteger n =>
    cases hn : int64? n with
    | some n => simp only [Leaf.value, Leaf.narrowed, hn]; rfl
    | none => simp only [Leaf.value, Leaf.narrowed, hn]; rfl
  | bigDecimal d => exact absurd h id
  | null | boolean b | integer n | float x | string s => rfl

theorem keys_memberContents (members : List (String × Wire)) :
    Members.keys (memberContents members) = Members.keys members := by
  induction members with
  | nil => rfl
  | cons m ms ih => exact congrArg (m.1 :: ·) ih

mutual
/-- What a tree without decimals holds becomes that tree again, with its integers in 64 bits where they fit. -/
theorem tree_content : ∀ w : Wire, w.Leaves Leaf.IsGeneric → w.WellFormed → w.content.tree .always = w.narrowed
  | leaf _, h, _ => tree_value_leaf h
  | array items, h, hw => congrArg array (trees_contents items h hw)
  | object members, h, hw => by
    have hdistinct : Members.Distinct (memberContents members) := by
      rw [Members.Distinct, keys_memberContents]
      exact hw.1
    exact (Value.tree_object hdistinct).trans (congrArg object (map_tree_memberContents members h hw.2))

theorem trees_contents : ∀ items : List Wire, ItemLeaves Leaf.IsGeneric items → WellFormedItems items →
    Value.trees .always (contents items) = mapItemLeaves Leaf.narrowed items
  | [], _, _ => rfl
  | w :: ws, h, hw => congrArg₂ List.cons (tree_content w h.1 hw.1) (trees_contents ws h.2 hw.2)

theorem map_tree_memberContents : ∀ members : List (String × Wire), MemberLeaves Leaf.IsGeneric members →
    WellFormedMembers members →
    (memberContents members).map (fun m => (m.1, m.2.tree .always)) = mapMemberLeaves Leaf.narrowed members
  | [], _, _ => rfl
  | (key, w) :: ms, h, hw =>
    congrArg₂ List.cons (congrArg (Prod.mk key) (tree_content w h.1 hw.1)) (map_tree_memberContents ms h.2 hw.2)
end

end Wire

end Leaves

namespace RegistryM
variable {r : Registry}

/-- Reads a tree without a type, and writes what it holds. -/
def rewrite (w : Wire) : RegistryM Wire := do
  let v ← fromWire w .object
  toWire v .object none

theorem gives_toWire_object (hr : r.Bare) (v : Value) :
    Gives (toWire v .object none) r (.ok (v.tree .always)) Registry.Bare := by
  have htakes : Descriptor.object.builtInSerializer.takes v = true := rfl
  obtain ⟨r', hr', hwrite⟩ := run_toWire hr htakes none
  rw [Option.getD_none, hr.inclusion_eq] at hwrite
  exact ⟨r', hwrite, fun _ _ => hr'⟩

theorem gives_fromWire_object (hr : r.Bare) {w : Wire} (hw : w.WellFormed) :
    Gives (fromWire w .object) r (.ok w.content) Registry.Bare :=
  w.value_object hw ▸ gives_fromWire hr w .object

theorem gives_rewrite (hr : r.Bare) {w : Wire} (hleaves : w.Leaves Leaf.IsGeneric) (hw : w.WellFormed) :
    Gives (rewrite w) r (.ok w.narrowed) Registry.Bare := by
  rw [← w.tree_content hleaves hw]
  exact (gives_fromWire_object hr hw).andThen fun r' hr' => gives_toWire_object hr' w.content

end RegistryM

/-! ### The two ways around -/

/-- A tree without decimals can be read without a type, and what has been read is written as that tree, with its
    integers in 64 bits where they fit. To do this twice changes nothing more. -/
theorem Wire.toWire_fromWire_object {w : Wire} (hleaves : w.Leaves Leaf.IsGeneric) (hw : w.WellFormed)
    (history : List Lookup) :
    (∃ v r, RegistryM.fromWire w .object (Registry.builtInOnly.after history) = (.ok v, r) ∧
      (RegistryM.toWire v .object none r).1 = .ok w.narrowed) ∧
    ((RegistryM.rewrite w >>= RegistryM.rewrite) (Registry.builtInOnly.after history)).1 =
      (RegistryM.rewrite w (Registry.builtInOnly.after history)).1 := by
  have hbare := Registry.Bare.after history
  obtain ⟨r, hread, hr⟩ := RegistryM.gives_fromWire_object hbare hw
  obtain ⟨r', hwrite, -⟩ := RegistryM.gives_toWire_object (hr _ rfl) w.content
  refine ⟨⟨w.content, r, hread, ?_⟩, ?_⟩
  · rw [hwrite, w.tree_content hleaves hw]
  · obtain ⟨r₁, hfirst, hr₁⟩ := RegistryM.gives_rewrite hbare hleaves hw
    obtain ⟨r₂, hsecond, -⟩ := RegistryM.gives_rewrite (hr₁ _ rfl)
      (w.leaves_mapLeaves (fun _ hl => Leaf.isGeneric_narrowed hl) hleaves) (w.wellFormed_mapLeaves hw)
    rw [run_bind_ok hfirst, hfirst]
    exact (congrArg Prod.fst hsecond).trans (congrArg Except.ok (w.mapLeaves_mapLeaves Leaf.narrowed_narrowed))

/-- An object with a list of a small big integer and a NaN. -/
theorem Wire.toWire_fromWire_object_list :
    Wire.Leaves Leaf.IsGeneric (.object [("a", .array [.leaf (.bigInteger 7), .leaf (.float .nan)])]) ∧
    Wire.WellFormed (.object [("a", .array [.leaf (.bigInteger 7), .leaf (.float .nan)])]) ∧
    ∃ v r, RegistryM.fromWire (.object [("a", .array [.leaf (.bigInteger 7), .leaf (.float .nan)])]) .object
        (Registry.builtInOnly.after [.serializer .string]) = (.ok v, r) ∧
      (RegistryM.toWire v .object none r).1 =
        .ok (.object [("a", .array [.leaf (.integer 7), .leaf (.float .nan)])]) := by
  have hleaves : Wire.Leaves Leaf.IsGeneric (.object [("a", .array [.leaf (.bigInteger 7), .leaf (.float .nan)])]) :=
    ⟨⟨trivial, trivial, trivial⟩, trivial⟩
  have hw : Wire.WellFormed (.object [("a", .array [.leaf (.bigInteger 7), .leaf (.float .nan)])]) :=
    ⟨List.pairwise_singleton .., ⟨trivial, trivial, trivial⟩, trivial⟩
  exact ⟨hleaves, hw, (Wire.toWire_fromWire_object hleaves hw [.serializer .string]).1⟩

/-- A value without decimals can be written without a type, and its tree is read as its generic form. -/
theorem Value.fromWire_toWire_object {v : Value} (hfree : v.FreeOfDecimals) (hw : v.WellFormed)
    (history : List Lookup) :
    ∃ w r, RegistryM.toWire v .object none (Registry.builtInOnly.after history) = (.ok w, r) ∧
      (RegistryM.fromWire w .object r).1 = .ok v.generic ∧
      ∀ other, (RegistryM.fromWire w .object (Registry.builtInOnly.after other)).1 = .ok v.generic := by
  obtain ⟨r, hwrite, hr⟩ := RegistryM.gives_toWire_object (Registry.Bare.after history) v
  have hread {r : Registry} (hr : r.Bare) : (RegistryM.fromWire (v.tree .always) .object r).1 = .ok v.generic := by
    rw [RegistryM.run_fromWire hr, Wire.value_object _ (v.wellFormed_tree hw), v.content_tree hfree hw]
  exact ⟨_, r, hwrite, hread (hr _ rfl), fun other => hread (.after other)⟩

/-- An object with a list of a row of characters, an absent optional and a small big integer. -/
theorem Value.fromWire_toWire_object_list :
    Value.FreeOfDecimals (.object [("a", .list [.primitiveArray .char ['b'], .optional .int none, .bigInteger 7])]) ∧
    Value.WellFormed (.object [("a", .list [.primitiveArray .char ['b'], .optional .int none, .bigInteger 7])]) ∧
    ∃ w r, RegistryM.toWire
        (.object [("a", .list [.primitiveArray .char ['b'], .optional .int none, .bigInteger 7])]) .object none
        (Registry.builtInOnly.after [.deserializer .string]) = (.ok w, r) ∧
      (RegistryM.fromWire w .object r).1 =
        .ok (.object [("a", .list [.list [.string "b"], .null, .scalar .long (7 : Int64)])]) := by
  have hfree : Value.FreeOfDecimals
      (.object [("a", .list [.primitiveArray .char ['b'], .optional .int none, .bigInteger 7])]) :=
    ⟨⟨trivial, trivial, trivial, trivial⟩, trivial⟩
  have hw : Value.WellFormed
      (.object [("a", .list [.primitiveArray .char ['b'], .optional .int none, .bigInteger 7])]) :=
    ⟨List.pairwise_singleton .., ⟨trivial, trivial, trivial, trivial⟩, trivial⟩
  obtain ⟨w, r, hwrite, hread, -⟩ := Value.fromWire_toWire_object hfree hw [.deserializer .string]
  exact ⟨hfree, hw, w, r, hwrite, hread⟩

end TypedWire
