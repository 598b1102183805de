import TypedWire.Proofs.WriteTree

/-! # Pruned values

A policy leaves members out while a value is written. The same tree comes of the value when it is pruned
first: the members that the policy excludes are taken out of every object at any depth, the other members keep
their order, and no item of an array or a list goes. A member is judged as it stands, before anything is taken
out of it, so an object that pruning has emptied stays.

The policies form a chain: what a stricter one keeps, a more liberal one keeps as well. -/

namespace TypedWire

/-! ### Which members are excluded -/

namespace Value

def isAbsent : Value → Bool
  | null => true
  | optional _ x => x.isNone
  | _ => false

def isEmpty : Value → Bool
  | null => true
  | optional _ x => x.isNone
  | string s => s.isEmpty
  | primitiveArray _ xs => xs.isEmpty
  | array items => items.isEmpty
  | list items => items.isEmpty
  | object members => members.isEmpty
  | _ => false

theorem isAbsent_of_isNull {v : Value} (h : v.isNull = true) : v.isAbsent = true := by
  cases v with
  | null => rfl
  | _ => cases h

theorem isEmpty_of_isAbsent {v : Value} (h : v.isAbsent = true) : v.isEmpty = true := by
  cases v with
  | null => rfl
  | optional o x => exact h
  | _ => cases h

end Value

namespace Inclusion

/-- Whether a policy leaves a member out, told by the value of the member alone. -/
def excludes : Inclusion → Value → Bool
  | always, _ => false
  | nonNull, v => v.isNull
  | nonAbsent, v => v.isAbsent
  | nonEmpty, v => v.isEmpty

/-- How strict a policy is: the place that it has in the chain. -/
def strictness : Inclusion → Nat
  | always => 0
  | nonNull => 1
  | nonAbsent => 2
  | nonEmpty => 3

theorem excludes_of_stricter {policy stricter : Inclusion} (h : policy.strictness ≤ stricter.strictness)
    {v : Value} (hv : policy.excludes v = true) : stricter.excludes v = true := by
  cases policy with
  | always => cases hv
  | nonNull =>
    cases stricter with
    | always => cases h
    | nonNull => exact hv
    | nonAbsent => exact Value.isAbsent_of_isNull hv
    | nonEmpty => exact Value.isEmpty_of_isAbsent (Value.isAbsent_of_isNull hv)
  | nonAbsent =>
    cases stricter with
    | always | nonNull => simp [strictness] at h
    | nonAbsent => exact hv
    | nonEmpty => exact Value.isEmpty_of_isAbsent hv
  | nonEmpty =>
    cases stricter with
    | always | nonNull | nonAbsent => simp [strictness] at h
    | nonEmpty => exact hv

end Inclusion

section Judgement
variable (v : Value)

/-- The serializer of the natural type says absent of nothing but null and optionals without a scalar. -/
theorem Value.isAbsent_naturalType : v.naturalType.builtInSerializer.isAbsent v = v.isAbsent := by
  cases v with
  | scalar k x => cases k <;> rfl
  | textual t x => cases t <;> rfl
  | optional o x =>
    rw [naturalType, Descriptor.builtInSerializer_optional]
    simp [Serializer.isAbsent, isAbsent]
  | primitiveArray k xs => cases k <;> rfl
  | _ => rfl

theorem Value.isEmpty_naturalType : v.naturalType.builtInSerializer.isEmpty v = v.isEmpty := by
  cases v with
  | scalar k x => cases k <;> rfl
  | textual t x => cases t <;> rfl
  | optional o x =>
    rw [naturalType, Descriptor.builtInSerializer_optional]
    simp [Serializer.isEmpty, isEmpty]
  | primitiveArray k xs =>
    rw [naturalType, Descriptor.builtInSerializer_primitiveArray]
    simp [Serializer.isEmpty, isEmpty]
  | _ => rfl

theorem Inclusion.includes_naturalType (policy : Inclusion) :
    policy.includes v.naturalType.builtInSerializer v = !policy.excludes v := by
  cases policy with
  | always | nonNull => rfl
  | nonAbsent => exact congrArg (!·) v.isAbsent_naturalType
  | nonEmpty => exact congrArg (!·) v.isEmpty_naturalType

end Judgement

/-! ### Pruning -/

namespace Value

mutual
/-- A value without the members that a policy excludes. -/
def pruned (policy : Inclusion) : Value → Value
  | array items => array (prunedItems policy items)
  | list items => list (prunedItems policy items)
  | object members => object (prunedMembers policy members)
  | v => v

def prunedItems (policy : Inclusion) : List Value → List Value
  | [] => []
  | v :: vs => pruned policy v :: prunedItems policy vs

def prunedMembers (policy : Inclusion) : List (String × Value) → List (String × Value)
  | [] => []
  | (key, v) :: ms =>
    if policy.excludes v then prunedMembers policy ms else (key, pruned policy v) :: prunedMembers policy ms
end

mutual
/-- One value is another one without some of its members: items stand in their places, and the members that
    are left in their order. -/
inductive Within : Value → Value → Prop
  | flat {v : Value} (h : v.isContainer = false) : Within v v
  | array {items items' : List Value} (h : WithinItems items items') : Within (.array items) (.array items')
  | list {items items' : List Value} (h : WithinItems items items') : Within (.list items) (.list items')
  | object {members members' : List (String × Value)} (h : WithinMembers members members') :
    Within (.object members) (.object members')

inductive WithinItems : List Value → List Value → Prop
  | nil : WithinItems [] []
  | cons {v v' : Value} {vs vs' : List Value} (h : Within v v') (hs : WithinItems vs vs') :
    WithinItems (v :: vs) (v' :: vs')

inductive WithinMembers : List (String × Value) → List (String × Value) → Prop
  | nil : WithinMembers [] []
  | missing {key : String} {v : Value} {ms ms' : List (String × Value)} (hs : WithinMembers ms ms') :
    WithinMembers ms ((key, v) :: ms')
  | kept {key : String} {v v' : Value} {ms ms' : List (String × Value)} (h : Within v v')
    (hs : WithinMembers ms ms') : WithinMembers ((key, v) :: ms) ((key, v') :: ms')
end

mutual
/-- What a stricter policy leaves of a value stands within what a more liberal one leaves. -/
theorem within_pruned {policy stricter : Inclusion} (h : policy.strictness ≤ stricter.strictness) :
    ∀ v : Value, Within (v.pruned stricter) (v.pruned policy)
  | array items => .array (within_prunedItems h items)
  | list items => .list (within_prunedItems h items)
  | object members => .object (within_prunedMembers h members)
  | null | scalar _ _ | string _ | bigInteger _ | bigDecimal _ | textual _ _ | optional _ _ | primitiveArray _ _ =>
    .flat rfl

theorem within_prunedItems {policy stricter : Inclusion} (h : policy.strictness ≤ stricter.strictness) :
    ∀ items : List Value, WithinItems (prunedItems stricter items) (prunedItems policy items)
  | [] => .nil
  | v :: vs => .cons (within_pruned h v) (within_prunedItems h vs)

theorem within_prunedMembers {policy stricter : Inclusion} (h : policy.strictness ≤ stricter.strictness) :
    ∀ members : List (String × Value), WithinMembers (prunedMembers stricter members) (prunedMembers policy members)
  | [] => .nil
  | (key, v) :: ms => by
    have hrest := within_prunedMembers h ms
    rw [prunedMembers, prunedMembers]
    by_cases hp : policy.excludes v = true
    · rw [if_pos hp, if_pos (Inclusion.excludes_of_stricter h hp)]
      exact hrest
    · rw [if_neg hp]
      by_cases hs : stricter.excludes v = true
      · rw [if_pos hs]
        exact .missing hrest
      · rw [if_neg hs]
        exact .kept (within_pruned h v) hrest
end

/-! ### The tree of a pruned value -/

mutual
/-- A policy writes a value as the policy that includes all writes what is left of it. -/
theorem tree_pruned (policy : Inclusion) : ∀ v : Value, (v.pruned policy).tree .always = v.tree policy
  | array items | list items => congrArg Wire.array (trees_prunedItems policy items)
  | object members => congrArg Wire.object (memberTrees_prunedMembers policy members [])
  | null | scalar _ _ | string _ | bigInteger _ | bigDecimal _ | textual _ _ | primitiveArray _ _ => rfl
  | optional _ none | optional _ (some _) => rfl

theorem trees_prunedItems (policy : Inclusion) : ∀ items : List Value,
    trees .always (prunedItems policy items) = trees policy items
  | [] => rfl
  | v :: vs => congrArg₂ List.cons (tree_pruned policy v) (trees_prunedItems policy vs)

theorem memberTrees_prunedMembers (policy : Inclusion) : ∀ (members : List (String × Value)) (written : Members Wire),
    memberTrees .always (prunedMembers policy members) written = memberTrees policy members written
  | [], _ => rfl
  | (key, v) :: ms, written => by
    have hjudged := Inclusion.includes_naturalType v policy
    rw [prunedMembers, memberTrees, hjudged]
    cases hv : policy.excludes v with
    | true => exact memberTrees_prunedMembers policy ms written
    | false =>
      have hrest := memberTrees_prunedMembers policy ms (Members.insert key (v.tree policy) written)
      show memberTrees .always ((key, v.pruned policy) :: prunedMembers policy ms) written = _
      rw [memberTrees, tree_pruned policy v]
      exact hrest
end

end Value

/-! ### Members of an object -/

section Members
variable {policy stricter : Inclusion} {s : Serializer} {v : Value}

theorem Inclusion.includes_of_stricter (h : policy.strictness ≤ stricter.strictness)
    (hjudged : ∀ p : Inclusion, p.includes s v = !p.excludes v) (hv : stricter.includes s v = true) :
    policy.includes s v = true := by
  rw [hjudged, Bool.not_eq_true'] at hv ⊢
  cases hp : policy.excludes v with
  | false => rfl
  | true =>
    rw [excludes_of_stricter h hp] at hv
    cases hv

end Members

/-- A value is written under a policy as what is left of it, when it is pruned, is written under the policy that
    includes all, whatever has been asked of the registries before. The codec that the registry finds for a
    member excludes it by its value alone. What a stricter policy keeps, be it as a member or of the whole value,
    the policy keeps. -/
theorem Value.toWire_pruned (policy : Inclusion) (v : Value) (history history' : List Lookup) :
    (∃ w, (RegistryM.toWire v .object (some policy) (Registry.builtInOnly.after history)).1 = .ok w ∧
      (RegistryM.toWire (v.pruned policy) .object (some .always) (Registry.builtInOnly.after history')).1 = .ok w) ∧
    (∃ found r, RegistryM.findSerializer v.naturalType (Registry.builtInOnly.after history) = (.ok found, r) ∧
      policy.includes found.codec v = !policy.excludes v ∧
      ∀ stricter : Inclusion, policy.strictness ≤ stricter.strictness →
        stricter.includes found.codec v = true → policy.includes found.codec v = true) ∧
    ∀ stricter : Inclusion, policy.strictness ≤ stricter.strictness →
      Value.Within (v.pruned stricter) (v.pruned policy) := by
  have hobject (v : Value) : Descriptor.object.builtInSerializer.takes v = true := rfl
  refine ⟨?_, ?_, fun stricter h => Value.within_pruned h v⟩
  · obtain ⟨r, -, hwrite⟩ := RegistryM.run_toWire (.after history) (hobject v) (some policy)
    obtain ⟨r', -, hleft⟩ := RegistryM.run_toWire (.after history') (hobject (v.pruned policy)) (some .always)
    refine ⟨v.tree policy, ?_, ?_⟩
    · rw [hwrite]
      rfl
    · rw [hleft, ← v.tree_pruned policy]
      rfl
  · obtain ⟨found, r, hfound, -, hcodec, -⟩ := (Registry.Bare.after history).findSerializer v.naturalType
    have hjudged (p : Inclusion) : p.includes found.codec v = !p.excludes v := by
      rw [hcodec, Inclusion.includes_naturalType]
    exact ⟨found, r, hfound, hjudged policy, fun stricter h hv => Inclusion.includes_of_stricter h hjudged hv⟩

/-- A list of an object and a null, and an object with an empty text. -/
def Value.sparse : Value :=
  .object [("a", .list [.object [("b", .optional .int none), ("c", .string "x"), ("d", .list [])], .null]),
    ("e", .object [("f", .string "")])]

/-- The list keeps its null, and the object whose only member goes stays as an empty one. -/
theorem Value.toWire_pruned_sparse :
    (RegistryM.toWire Value.sparse .object (some .nonEmpty) (Registry.builtInOnly.after [.serializer .string])).1 =
      .ok (.object [("a", .array [.object [("c", .leaf (.string "x"))], .null]), ("e", .object [])]) ∧
    Inclusion.strictness .nonNull ≤ Inclusion.strictness .nonEmpty ∧
    Value.Within (.object [("a", .list [.object [("c", .string "x")], .null]), ("e", .object [])])
      Value.sparse := by
  have hchain : Inclusion.strictness .nonNull ≤ Inclusion.strictness .nonEmpty := by decide
  obtain ⟨⟨w, hwrite, hleft⟩, -, -⟩ := Value.toWire_pruned .nonEmpty Value.sparse [.serializer .string] []
  obtain ⟨-, -, hwithin⟩ := Value.toWire_pruned .nonNull Value.sparse [] []
  have htaken : Descriptor.object.builtInSerializer.takes (Value.sparse.pruned .nonEmpty) = true := rfl
  obtain ⟨r, -, hpruned⟩ := RegistryM.run_toWire (.after []) htaken (some .always)
  refine ⟨?_, hchain, hwithin .nonEmpty hchain⟩
  rw [hwrite, ← hleft, hpruned]
  rfl

end TypedWire
