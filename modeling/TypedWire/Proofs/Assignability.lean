import Mathlib.Logic.Relation
import TypedWire.RawType

/-! # Acceptance orders raw types

Acceptance is reflexive. It is also transitive and antisymmetric among raw types in which no class named
`Object` declares supertypes: such a class stands above every class by its name and below its own
supertypes, and neither law survives it. Every other class that is reached from a class is smaller than
that class, for a class holds the classes above it, and so no two classes reach each other. Which classes a class
reaches is told by its declarations alone: it is below `Object` and below the ends of the chains of supertypes that
begin with it. -/

namespace TypedWire

namespace Class

theorem induction {p : Class → Prop} (step : ∀ name supertypes, (∀ s ∈ supertypes, p s) → p (mk name supertypes))
    (c : Class) : p c := by
  cases c with
  | mk name supertypes => exact step name supertypes fun s _ => induction step s
termination_by c

/-- A class names another among its supertypes. -/
def Declares (c s : Class) : Prop :=
  s ∈ c.supertypes

/-- No class named `Object` declares supertypes, neither this class nor any above it. -/
inductive PlainObjects : Class → Prop where
  | mk {name : String} {supertypes : List Class} (root : name = "Object" → supertypes = [])
      (above : ∀ s ∈ supertypes, PlainObjects s) : PlainObjects (.mk name supertypes)

section Subclasses
variable {a b c target : Class}

theorem isSubclassOf_iff :
    c.isSubclassOf target = true ↔
      target.isObject = true ∨ c = target ∨ ∃ s ∈ c.supertypes, s.isSubclassOf target = true := by
  obtain ⟨name, supertypes⟩ := c
  rw [isSubclassOf, anySubclassOf_eq_any, Bool.or_eq_true, Bool.or_eq_true, beq_iff_eq, List.any_eq_true, or_assoc]
  rfl

theorem isSubclassOf_refl (c : Class) : c.isSubclassOf c = true :=
  isSubclassOf_iff.mpr (Or.inr (Or.inl rfl))

theorem isSubclassOf_of_isObject (c : Class) (h : target.isObject = true) : c.isSubclassOf target = true :=
  isSubclassOf_iff.mpr (Or.inl h)

theorem isSubclassOf_iff_declares :
    c.isSubclassOf target = true ↔ target.isObject = true ∨ Relation.ReflTransGen Declares c target := by
  constructor
  · intro h
    induction c using Class.induction with
    | step name supertypes ih =>
      rcases isSubclassOf_iff.mp h with ho | rfl | ⟨s, hs, hst⟩
      · exact Or.inl ho
      · exact Or.inr .refl
      · exact (ih s hs hst).imp_right (.head hs)
  · rintro (ho | hchain)
    · exact isSubclassOf_of_isObject c ho
    · induction hchain using Relation.ReflTransGen.head_induction_on with
      | refl => exact isSubclassOf_refl target
      | head hs _ ih => exact isSubclassOf_iff.mpr (Or.inr (Or.inr ⟨_, hs, ih⟩))

/-- A class without supertypes is below itself and `Object` alone. -/
theorem eq_of_plain_isSubclassOf {name : String} (h : (plain name).isSubclassOf target = true) :
    target.isObject = true ∨ plain name = target := by
  rcases isSubclassOf_iff.mp h with ho | he | ⟨s, hs, -⟩
  · exact Or.inl ho
  · exact Or.inr he
  · cases hs

theorem PlainObjects.eq_object (h : c.PlainObjects) (ho : c.isObject = true) : c = object := by
  obtain @⟨name, supertypes, root, -⟩ := h
  obtain rfl : name = "Object" := by simpa [isObject, Class.name] using ho
  obtain rfl := root rfl
  rfl

theorem PlainObjects.isObject_of_isSubclassOf (h : c.PlainObjects) (ho : c.isObject = true)
    (hs : c.isSubclassOf target = true) : target.isObject = true := by
  rw [h.eq_object ho] at hs
  rcases eq_of_plain_isSubclassOf hs with ht | rfl
  · exact ht
  · rfl

theorem isSubclassOf_trans (hb : b.PlainObjects) (hab : a.isSubclassOf b = true) (hbc : b.isSubclassOf c = true) :
    a.isSubclassOf c = true := by
  induction a using Class.induction with
  | step name supertypes ih =>
    rcases isSubclassOf_iff.mp hab with ho | rfl | ⟨s, hs, hsb⟩
    · exact isSubclassOf_of_isObject _ (hb.isObject_of_isSubclassOf ho hbc)
    · exact hbc
    · exact isSubclassOf_iff.mpr (Or.inr (Or.inr ⟨s, hs, ih s hs hsb⟩))

/-- What is reached from a class on the way up, but for `Object`, is the class or smaller. -/
theorem eq_or_sizeOf_lt (ht : target.isObject = false) (h : c.isSubclassOf target = true) :
    c = target ∨ sizeOf target < sizeOf c := by
  induction c using Class.induction with
  | step name supertypes ih =>
    rcases isSubclassOf_iff.mp h with ho | rfl | ⟨s, hs, hst⟩
    · rw [ht] at ho
      cases ho
    · exact Or.inl rfl
    · have hmem := List.sizeOf_lt_of_mem hs
      have hsize : sizeOf s < sizeOf (mk name supertypes) := by
        change sizeOf s < sizeOf supertypes at hmem
        rw [mk.sizeOf_spec]
        omega
      rcases ih s hs hst with rfl | hlt
      · exact Or.inr hsize
      · exact Or.inr (Nat.lt_trans hlt hsize)

theorem isSubclassOf_antisymm (ha : a.PlainObjects) (hb : b.PlainObjects) (hab : a.isSubclassOf b = true)
    (hba : b.isSubclassOf a = true) : a = b := by
  cases hoa : a.isObject with
  | true => rw [ha.eq_object hoa, hb.eq_object (ha.isObject_of_isSubclassOf hoa hab)]
  | false =>
    cases hob : b.isObject with
    | true =>
      rw [hb.isObject_of_isSubclassOf hob hba] at hoa
      cases hoa
    | false =>
      rcases eq_or_sizeOf_lt hob hab with he | hlt
      · exact he
      · rcases eq_or_sizeOf_lt hoa hba with he | hlt'
        · exact he.symm
        · omega

end Subclasses

end Class

namespace RawType

/-- No class named `Object` in a raw type declares supertypes. -/
def PlainObjects : RawType → Prop
  | classType c => c.PlainObjects
  | array t => t.PlainObjects
  | _ => True

section Acceptance
variable {a b c : RawType}

theorem classType_accepts_classType (target source : Class) :
    (classType target).accepts (classType source) = source.isSubclassOf target := by
  rw [Bool.eq_iff_iff, accepts, Bool.or_eq_true, Bool.or_eq_true, beq_iff_eq]
  constructor
  · rintro ((rfl | ho) | h)
    · exact Class.isSubclassOf_refl _
    · exact Class.isSubclassOf_of_isObject _ ho
    · exact h
  · exact Or.inr

theorem accepts_refl : ∀ t : RawType, t.accepts t = true
  | primitive k => by simp [accepts]
  | boxed k => by simp [accepts]
  | classType c => (classType_accepts_classType c c).trans (Class.isSubclassOf_refl c)
  | array t => by simp [accepts]

/-- Arrays vary with their components, an array of primitives included: a primitive accepts itself alone. -/
theorem array_accepts_array (target source : RawType) :
    (array target).accepts (array source) = target.accepts source := by
  rw [Bool.eq_iff_iff, accepts, Bool.or_eq_true, beq_iff_eq, Bool.and_eq_true]
  constructor
  · rintro (he | ⟨-, h⟩)
    · obtain rfl := array.inj he
      exact accepts_refl target
    · exact h
  · intro h
    cases target with
    | primitive k =>
      obtain rfl : primitive k = source := by simpa [accepts] using h
      exact Or.inl rfl
    | _ => exact Or.inr ⟨rfl, h⟩

/-- What a class accepts beside classes: every array and box where it is `Object`, and the numeric boxes
    where it is `Number`. A class above it accepts them too. -/
theorem classType_accepts_trans {s t : Class} (hs : s.PlainObjects) (hst : s.isSubclassOf t = true)
    (h : (classType s).accepts c = true) : (classType t).accepts c = true := by
  have up (ho : s.isObject = true) : t.isObject = true := hs.isObject_of_isSubclassOf ho hst
  cases c with
  | primitive k => cases h
  | boxed k =>
    simp only [accepts, Bool.or_eq_true, Bool.and_eq_true, beq_iff_eq] at h ⊢
    rcases h with ho | ⟨rfl, hk⟩
    · exact Or.inl (up ho)
    · rcases Class.eq_of_plain_isSubclassOf hst with ht | rfl
      · exact Or.inl ht
      · exact Or.inr ⟨rfl, hk⟩
  | classType u =>
    rw [classType_accepts_classType] at h ⊢
    exact Class.isSubclassOf_trans hs h hst
  | array u => exact up h

theorem accepts_trans (hb : b.PlainObjects) (hab : a.accepts b = true) (hbc : b.accepts c = true) :
    a.accepts c = true := by
  induction a generalizing b c with
  | primitive k | boxed k =>
    simp only [accepts, beq_iff_eq] at hab
    exact hab ▸ hbc
  | classType t =>
    cases b with
    | primitive k => cases hab
    | boxed k =>
      simp only [accepts, beq_iff_eq] at hbc
      exact hbc ▸ hab
    | classType s =>
      rw [classType_accepts_classType] at hab
      exact classType_accepts_trans hb hab hbc
    | array s =>
      cases c with
      | array u => exact hab
      | _ => cases hbc
  | array t ih =>
    cases b with
    | array s =>
      cases c with
      | array u =>
        rw [array_accepts_array] at hab hbc ⊢
        exact ih (b := s) hb hab hbc
      | _ => cases hbc
    | _ => cases hab

theorem accepts_antisymm (ha : a.PlainObjects) (hb : b.PlainObjects) (hab : a.accepts b = true)
    (hba : b.accepts a = true) : a = b := by
  induction a generalizing b with
  | primitive k | boxed k => simpa [accepts] using hab
  | classType t =>
    cases b with
    | primitive k => cases hab
    | boxed k => simp [accepts] at hba
    | classType s =>
      rw [classType_accepts_classType] at hab hba
      rw [Class.isSubclassOf_antisymm ha hb hba hab]
    | array s => cases hba
  | array t ih =>
    cases b with
    | array s =>
      rw [array_accepts_array] at hab hba
      rw [ih (b := s) ha hb hab hba]
    | _ => cases hab

/-- Acceptance is reflexive; through a type without rivals of `Object` it is transitive, and between two such types
    antisymmetric. Of two classes, one accepts the other exactly if it is above it: if it is named `Object`, or a chain
    of declared supertypes leads to it. -/
theorem accepts_partialOrder :
    (∀ a : RawType, a.accepts a = true) ∧
      (∀ a b c : RawType, b.PlainObjects → a.accepts b = true → b.accepts c = true → a.accepts c = true) ∧
      (∀ a b : RawType, a.PlainObjects → b.PlainObjects → a.accepts b = true → b.accepts a = true → a = b) ∧
      ∀ s t : Class, (classType t).accepts (classType s) = s.isSubclassOf t ∧
        (s.isSubclassOf t = true ↔ t.isObject = true ∨ Relation.ReflTransGen Class.Declares s t) :=
  ⟨accepts_refl, fun _ _ _ => accepts_trans, fun _ _ => accepts_antisymm, fun s t =>
    ⟨classType_accepts_classType t s, Class.isSubclassOf_iff_declares⟩⟩

/-- An array of objects accepts an array of collections, and that an array of lists; so the first accepts the last, and
    the last does not accept the one between. A list is below `Collection`, which it declares. -/
theorem accepts_partialOrder_lists :
    (array (classType Class.collection)).PlainObjects ∧ (array (classType Class.list)).PlainObjects ∧
      (array (classType Class.object)).accepts (array (classType Class.collection)) = true ∧
      (array (classType Class.collection)).accepts (array (classType Class.list)) = true ∧
      (array (classType Class.object)).accepts (array (classType Class.list)) = true ∧
      (array (classType Class.list)).accepts (array (classType Class.collection)) ≠ true ∧
      Relation.ReflTransGen Class.Declares Class.list Class.collection := by
  have hcollection : (array (classType Class.collection)).PlainObjects := Class.PlainObjects.mk (fun _ => rfl) nofun
  have hlist : (array (classType Class.list)).PlainObjects :=
    Class.PlainObjects.mk (fun h => absurd h (by decide)) fun s hs => List.mem_singleton.mp hs ▸ hcollection
  have hobjects : (array (classType Class.object)).accepts (array (classType Class.collection)) = true := by decide
  have hlists : (array (classType Class.collection)).accepts (array (classType Class.list)) = true := by decide
  obtain ⟨-, htrans, hantisymm, hclasses⟩ := accepts_partialOrder
  refine ⟨hcollection, hlist, hobjects, hlists, htrans _ _ _ hcollection hobjects hlists, fun hback => ?_, ?_⟩
  · exact absurd (hantisymm _ _ hcollection hlist hlists hback) (by decide)
  · exact ((hclasses Class.list Class.collection).2.mp (by decide)).resolve_left (by decide)

end Acceptance

end RawType

end TypedWire
