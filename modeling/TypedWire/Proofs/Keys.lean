import TypedWire.Registry

/-! # Descriptors as keys

Two descriptors are one key when they differ at most in their variables. Key equality is then an
equivalence, and nothing that a registry asks of a requested type tells equal keys apart: a request is
judged by its raw type, by the raw types of its parameters and by the key itself. -/

namespace TypedWire

namespace Descriptor

mutual
/-- The descriptor without any variable, at any depth. -/
def unmarked : Descriptor → Descriptor
  | mk raw params _ => mk raw (unmarkedList params) none

def unmarkedList : List Descriptor → List Descriptor
  | [] => []
  | p :: ps => unmarked p :: unmarkedList ps
end

theorem unmarkedList_eq_map (ps : List Descriptor) : unmarkedList ps = ps.map unmarked := by
  induction ps with
  | nil => rfl
  | cons p ps ih => rw [unmarkedList, ih, List.map_cons]

mutual
theorem same_iff_unmarked : ∀ a b : Descriptor, same a b = true ↔ a.unmarked = b.unmarked
  | mk r ps _, mk s qs _ => by
    rw [same, unmarked, unmarked, Bool.and_eq_true, sameList_iff_unmarked ps qs]
    simp

theorem sameList_iff_unmarked : ∀ ps qs : List Descriptor,
    sameList ps qs = true ↔ unmarkedList ps = unmarkedList qs
  | [], [] => by simp [sameList]
  | [], _ :: _ => by simp [sameList, unmarkedList]
  | _ :: _, [] => by simp [sameList, unmarkedList]
  | p :: ps, q :: qs => by
    rw [sameList, unmarkedList, unmarkedList, Bool.and_eq_true, same_iff_unmarked p q,
      sameList_iff_unmarked ps qs]
    simp
end

/-- Equal keys are descriptors that differ at most in their variables. -/
theorem beq_iff_unmarked {a b : Descriptor} : (a == b) = true ↔ a.unmarked = b.unmarked :=
  same_iff_unmarked a b

instance : EquivBEq Descriptor where
  rfl := beq_iff_unmarked.mpr rfl
  symm h := beq_iff_unmarked.mpr (beq_iff_unmarked.mp h).symm
  trans h h' := beq_iff_unmarked.mpr ((beq_iff_unmarked.mp h).trans (beq_iff_unmarked.mp h'))

/-! ### What is asked of a requested type -/

section Requests
variable {a b : Descriptor}

theorem raw_unmarked (d : Descriptor) : d.unmarked.raw = d.raw := by
  cases d
  rfl

theorem params_unmarked (d : Descriptor) : d.unmarked.params = d.params.map unmarked := by
  obtain ⟨raw, params, variableName?⟩ := d
  exact unmarkedList_eq_map params

theorem raw_congr (h : (a == b) = true) : a.raw = b.raw := by
  rw [← raw_unmarked a, beq_iff_unmarked.mp h, raw_unmarked]

theorem map_raw_params_congr (h : (a == b) = true) : a.params.map raw = b.params.map raw := by
  have hraws : ∀ d : Descriptor, d.unmarked.params.map raw = d.params.map raw := fun d => by
    rw [params_unmarked, List.map_map]
    exact List.map_congr_left fun p _ => raw_unmarked p
  rw [← hraws a, beq_iff_unmarked.mp h, hraws]

theorem hasParams_congr (h : (a == b) = true) : a.hasParams = b.hasParams := by
  have hlen := congrArg List.isEmpty (map_raw_params_congr h)
  simp only [List.isEmpty_map] at hlen
  rw [hasParams, hasParams, hlen]

theorem isArray_congr (h : (a == b) = true) : a.isArray = b.isArray :=
  congrArg RawType.isArray (raw_congr h)

/-- Whether the parameters are accepted depends on the raw types of the requested ones alone. -/
theorem paramsAccept_congr (d : Descriptor) (h : (a == b) = true) : d.paramsAccept a = d.paramsAccept b := by
  have hraws : ∀ wanted : Descriptor, d.paramsAccept wanted =
      (d.params.length == (wanted.params.map raw).length &&
        (d.params.zip (wanted.params.map raw)).all fun p =>
          p.1.raw == p.2 || (p.1.isVariable && p.1.raw.accepts p.2)) := fun wanted => by
    rw [List.zip_map_right, List.all_map, List.length_map]
    rfl
  rw [hraws, hraws, map_raw_params_congr h]

theorem lookup_congr {V : Type} (h : (a == b) = true) (table : List (Descriptor × V)) :
    table.lookup a = table.lookup b := by
  induction table with
  | nil => rfl
  | cons e rest ih => rw [List.lookup_cons, List.lookup_cons, BEq.congr_left h, ih]

end Requests

section Tables
variable {C : Type} {table : List (Descriptor × C)} {ty : Descriptor} {codec : C}

theorem lookup_of_mem (h : table.Pairwise fun a b => (b.1 == a.1) = false) {b : Descriptor × C} (hb : b ∈ table) :
    table.lookup b.1 = some b.2 := by
  induction table with
  | nil => cases hb
  | cons e rest ih =>
    obtain ⟨hhead, htail⟩ := List.pairwise_cons.mp h
    rw [List.lookup_cons]
    rcases List.mem_cons.mp hb with rfl | hb
    · rw [BEq.rfl]
    · rw [hhead b hb]
      exact ih htail hb

theorem mem_of_lookup (h : table.lookup ty = some codec) : ∃ b ∈ table, (ty == b.1) = true ∧ b.2 = codec := by
  rw [List.lookup_eq_findSome?] at h
  obtain ⟨b, hb, hcodec⟩ := List.exists_of_findSome?_eq_some h
  cases hkey : ty == b.1 with
  | false =>
    rw [hkey] at hcodec
    cases hcodec
  | true =>
    rw [hkey] at hcodec
    exact ⟨b, hb, hkey, Option.some.inj hcodec⟩

/-- A type without a property that all keys of a table have is not found; equal keys agree on the property. -/
theorem lookup_eq_none_of_keys {p : Descriptor → Bool} (hp : ∀ a b : Descriptor, (a == b) = true → p a = p b)
    (htable : ∀ b ∈ table, p b.1 = true) (h : p ty = false) : table.lookup ty = none := by
  cases hl : table.lookup ty with
  | none => rfl
  | some codec =>
    obtain ⟨b, hb, hkey, -⟩ := mem_of_lookup hl
    rw [hp _ _ hkey, htable b hb] at h
    cases h

end Tables

end Descriptor

section Answers
variable {a b : Descriptor}

theorem Cache.find?_congr {C : Type} (h : (a == b) = true) (cache : Cache C) :
    Cache.find? a cache = Cache.find? b cache :=
  Descriptor.lookup_congr h cache

/-- The same error with another type shown. -/
def CodecError.about (ty : Descriptor) : CodecError → CodecError
  | noSerializer _ => noSerializer ty
  | ambiguousSerializer _ candidates => ambiguousSerializer ty candidates
  | e => e

theorem Registry.survivors_congr (h : (a == b) = true) (bucket : List Candidate) :
    survivors a bucket = survivors b bucket := by
  unfold survivors
  simp only [Descriptor.hasParams_congr h, Descriptor.paramsAccept_congr _ h]

theorem Registry.chooseSerializer_congr (r : Registry) (h : (a == b) = true) :
    r.chooseSerializer b = (r.chooseSerializer a).mapError (·.about b) := by
  unfold chooseSerializer
  rw [Descriptor.raw_congr h]
  cases r.index.findSerializerBucket b.raw r.config.selection with
  | none => rfl
  | some found =>
    simp only [survivors_congr h]
    cases survivors b found.2 with
    | nil => rfl
    | cons c cs => cases cs <;> rfl

theorem StaticComponents.declares_congr (h : (a == b) = true) (x : Registration Deserializer) :
    declares a x = declares b x := by
  unfold declares
  simp only [BEq.congr_right h]

theorem StaticComponents.acceptsParams_congr (h : (a == b) = true) (x : Registration Deserializer) :
    acceptsParams a x = acceptsParams b x := by
  unfold acceptsParams
  simp only [Descriptor.raw_congr h, Descriptor.paramsAccept_congr _ h]

theorem StaticComponents.findDeserializer_congr (s : StaticComponents) (h : (a == b) = true) :
    s.findDeserializer a = s.findDeserializer b := by
  have hd : declares a = declares b := funext (declares_congr h)
  have hp : acceptsParams a = acceptsParams b := funext (acceptsParams_congr h)
  unfold findDeserializer
  rw [hd, hp]

end Answers

end TypedWire
