import TypedWire.Proofs.Assignability
import TypedWire.Proofs.SerializerChoice

/-! # How specific the chosen bucket is

Where a raw type has no bucket of its own, the most specific selection looks for a bucket below all others
that accept the request, and takes the first one that accepts it where there is none. A bucket below all
others is minimal: no other bucket that accepts the request lies strictly below it. The first bucket need
not be, since one below it may stand beside others that are related to neither. -/

namespace TypedWire

namespace Index

/-- The indexed raw types that accept a request, in the order of their buckets. -/
def accepting (i : Index) (raw : RawType) : List RawType :=
  (Buckets.keys i.serializers).filter (·.accepts raw)

/-- A raw type that accepts a request and is below all the others that do. -/
structure Least (i : Index) (raw k : RawType) : Prop where
  mem : k ∈ i.accepting raw
  below : ∀ k' ∈ i.accepting raw, k'.accepts k = true

/-- A raw type that accepts a request, with none of the others that do strictly below it. -/
structure Minimal (i : Index) (raw k : RawType) : Prop where
  mem : k ∈ i.accepting raw
  none_below : ∀ k' ∈ i.accepting raw, k.accepts k' = true → k'.accepts k = true

section Selection
variable {i : Index} {raw k : RawType}

theorem Least.minimal (h : i.Least raw k) : i.Minimal raw k :=
  ⟨h.mem, fun k' hk' _ => h.below k' hk'⟩

theorem accepting_eq_map (i : Index) (raw : RawType) :
    (i.serializers.filter fun b => b.1.accepts raw).map Prod.fst = i.accepting raw := by
  rw [accepting, Buckets.keys, List.filter_map]
  rfl

theorem fst_findSerializerBucket (hown : Buckets.find? raw i.serializers = none) (selection : BucketSelection) :
    (i.findSerializerBucket raw selection).map Prod.fst = selection.choose (i.accepting raw) := by
  rw [findSerializerBucket, hown, ← accepting_eq_map]
  exact map_fst_select selection _

theorem mem_of_findSerializerBucket (hown : Buckets.find? raw i.serializers = none) {selection : BucketSelection}
    {b : RawType × List Candidate} (h : i.findSerializerBucket raw selection = some b) : b ∈ i.serializers := by
  rw [findSerializerBucket, hown] at h
  exact (List.mem_filter.mp (mem_of_select h)).1

/-- The most specific choice is a raw type below all others, or the first one where there is none such. -/
theorem choose_mostSpecific (i : Index) (raw : RawType) :
    (∃ k, BucketSelection.mostSpecific.choose (i.accepting raw) = some k ∧ i.Least raw k) ∨
    BucketSelection.mostSpecific.choose (i.accepting raw) = (i.accepting raw).head? ∧ ∀ k, ¬i.Least raw k := by
  unfold BucketSelection.choose
  dsimp only
  cases hf : (i.accepting raw).find? fun k => (i.accepting raw).all (·.accepts k) with
  | some k =>
    have hall := List.find?_some hf
    exact Or.inl ⟨k, rfl, List.mem_of_find?_eq_some hf, List.all_eq_true.mp hall⟩
  | none =>
    refine Or.inr ⟨rfl, fun k hk => ?_⟩
    exact List.find?_eq_none.mp hf k hk.mem (List.all_eq_true.mpr hk.below)

/-- Raw types any two of which are related have one below all others. -/
theorem exists_least_of_related {ks : List RawType} (hplain : ∀ k ∈ ks, k.PlainObjects) (hne : ks ≠ [])
    (hrelated : ∀ k ∈ ks, ∀ k' ∈ ks, k.accepts k' = true ∨ k'.accepts k = true) :
    ∃ k ∈ ks, ∀ k' ∈ ks, k'.accepts k = true := by
  induction ks with
  | nil => exact absurd rfl hne
  | cons x xs ih =>
    cases xs with
    | nil =>
      refine ⟨x, List.mem_singleton_self x, fun k' hk' => ?_⟩
      rw [List.mem_singleton.mp hk']
      exact x.accepts_refl
    | cons y ys =>
      obtain ⟨m, hm, hleast⟩ := ih (fun k hk => hplain k (List.mem_cons_of_mem x hk)) (List.cons_ne_nil y ys)
        fun k hk k' hk' => hrelated k (List.mem_cons_of_mem x hk) k' (List.mem_cons_of_mem x hk')
      have hmx := List.mem_cons_of_mem x hm
      -- The least of the rest is compared with the first: the lower one is below both.
      rcases hrelated x List.mem_cons_self m hmx with hxm | hmx'
      · refine ⟨m, hmx, fun k' hk' => ?_⟩
        rcases List.mem_cons.mp hk' with rfl | hk'
        · exact hxm
        · exact hleast k' hk'
      · refine ⟨x, List.mem_cons_self, fun k' hk' => ?_⟩
        rcases List.mem_cons.mp hk' with rfl | hk'
        · exact k'.accepts_refl
        · exact RawType.accepts_trans (hplain m hmx) (hleast k' hk') hmx'

/-- Where buckets accept a raw type that has none of its own, the most specific selection finds one of them.
    It is minimal if and only if one of them is below all others or the first of them is minimal. That is so
    where any two of them are related, and where no two of them are; a bucket that accepts another one
    may be chosen before it where a third one is related to neither. -/
theorem findSerializerBucket_minimal_iff (hown : Buckets.find? raw i.serializers = none)
    (hacc : i.accepting raw ≠ []) :
    ∃ b ∈ i.serializers, i.findSerializerBucket raw .mostSpecific = some b ∧ b.1 ∈ i.accepting raw ∧
      (i.Minimal raw b.1 ↔
        (∃ k, i.Least raw k) ∨ ∃ first, (i.accepting raw).head? = some first ∧ i.Minimal raw first) ∧
      ((∀ k ∈ i.accepting raw, k.PlainObjects) →
        (∀ k ∈ i.accepting raw, ∀ k' ∈ i.accepting raw, k.accepts k' = true ∨ k'.accepts k = true) →
          i.Least raw b.1) ∧
      ((∀ k ∈ i.accepting raw, ∀ k' ∈ i.accepting raw, k.accepts k' = true → k = k') → i.Minimal raw b.1) := by
  have hfst := fst_findSerializerBucket hown .mostSpecific
  obtain ⟨first, hfirst⟩ : ∃ first, (i.accepting raw).head? = some first :=
    Option.isSome_iff_exists.mp (List.isSome_head?.mpr hacc)
  have unrelated {k : RawType} (hk : k ∈ i.accepting raw)
      (hu : ∀ k ∈ i.accepting raw, ∀ k' ∈ i.accepting raw, k.accepts k' = true → k = k') : i.Minimal raw k :=
    ⟨hk, fun k' hk' hle => hu k hk k' hk' hle ▸ k.accepts_refl⟩
  rcases choose_mostSpecific i raw with ⟨k, hk, hleast⟩ | ⟨hk, hnone⟩
  · rw [hk] at hfst
    obtain ⟨b, hb, rfl⟩ := Option.map_eq_some_iff.mp hfst
    refine ⟨b, mem_of_findSerializerBucket hown hb, hb, hleast.mem, ?_, fun _ _ => hleast, unrelated hleast.mem⟩
    exact ⟨fun _ => Or.inl ⟨b.1, hleast⟩, fun _ => hleast.minimal⟩
  · rw [hk, hfirst] at hfst
    obtain ⟨b, hb, rfl⟩ := Option.map_eq_some_iff.mp hfst
    have hmem := List.mem_of_head? hfirst
    refine ⟨b, mem_of_findSerializerBucket hown hb, hb, hmem, ⟨fun hmin => ?_, ?_⟩, fun hplain hrelated => ?_,
      unrelated hmem⟩
    · exact Or.inr ⟨b.1, hfirst, hmin⟩
    · rintro (⟨k, hleast⟩ | ⟨first, hfirst', hmin⟩)
      · exact absurd hleast (hnone k)
      · rw [hfirst] at hfirst'
        exact Option.some.inj hfirst' ▸ hmin
    · obtain ⟨k, hmem', hleast⟩ := exists_least_of_related hplain hacc hrelated
      exact absurd ⟨hmem', hleast⟩ (hnone k)

end Selection

/-! ### Animals, dogs, and what has a name -/

def animalClass : Class := .plain "Animal"

def dogClass : Class := .mk "Dog" [animalClass]

def namedClass : Class := .plain "Named"

/-- A dog that has a name. -/
def rexClass : Class := .mk "Rex" [dogClass, namedClass]

def petSerializer (c : Class) : Candidate :=
  ⟨c.name ++ "Ser", some (.ofClass c)⟩

/-- The index of one serializer for each of some classes. -/
def petIndex (order : List Class) : Index :=
  ⟨order.map fun c => (.classType c, [petSerializer c]), []⟩

/-- `Dog` comes before `Animal` and is related to no other bucket: nothing lies below all three, and the first
    one is minimal. -/
theorem findSerializerBucket_minimal_iff_dog :
    Index.build ([dogClass, animalClass, namedClass].map petSerializer) [] =
        .ok (petIndex [dogClass, animalClass, namedClass]) ∧
      Buckets.find? (.classType rexClass) (petIndex [dogClass, animalClass, namedClass]).serializers = none ∧
      (petIndex [dogClass, animalClass, namedClass]).accepting (.classType rexClass) ≠ [] ∧
      ∃ b ∈ (petIndex [dogClass, animalClass, namedClass]).serializers,
        (petIndex [dogClass, animalClass, namedClass]).findSerializerBucket (.classType rexClass) .mostSpecific =
          some b ∧
        b.1 = .classType dogClass ∧
        (petIndex [dogClass, animalClass, namedClass]).Minimal (.classType rexClass) b.1 := by
  have hown : Buckets.find? (.classType rexClass) (petIndex [dogClass, animalClass, namedClass]).serializers =
      none := rfl
  have hacc : (petIndex [dogClass, animalClass, namedClass]).accepting (.classType rexClass) ≠ [] := by decide
  obtain ⟨b, hb, hfound, -, hiff, -⟩ := findSerializerBucket_minimal_iff hown hacc
  refine ⟨rfl, hown, hacc, b, hb, hfound, ?_, hiff.mpr (Or.inr ⟨.classType dogClass, rfl, by decide, by decide⟩)⟩
  exact (congrArg Prod.fst (Option.some.inj hfound)).symm

/-- `Animal` comes before `Dog`, which accepts the request as well and lies strictly below it. The two are
    related, and yet the order of registration decides, because of `Named`. -/
theorem findSerializerBucket_not_minimal_animal :
    Index.build ([animalClass, dogClass, namedClass].map petSerializer) [] =
        .ok (petIndex [animalClass, dogClass, namedClass]) ∧
      Buckets.find? (.classType rexClass) (petIndex [animalClass, dogClass, namedClass]).serializers = none ∧
      (petIndex [animalClass, dogClass, namedClass]).findSerializerBucket (.classType rexClass) .mostSpecific =
        some (.classType animalClass, [petSerializer animalClass]) ∧
      .classType dogClass ∈ (petIndex [animalClass, dogClass, namedClass]).accepting (.classType rexClass) ∧
      (RawType.classType animalClass).accepts (.classType dogClass) = true ∧
      (RawType.classType dogClass).accepts (.classType animalClass) = false ∧
      ¬(petIndex [animalClass, dogClass, namedClass]).Minimal (.classType rexClass) (.classType animalClass) := by
  refine ⟨rfl, rfl, rfl, by decide, by decide, by decide, fun hmin => ?_⟩
  have hbelow := hmin.none_below (.classType dogClass) (by decide) (by decide)
  exact absurd hbelow (by decide)

end Index

end TypedWire
