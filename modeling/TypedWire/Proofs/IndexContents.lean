import Mathlib.Data.List.Basic
import TypedWire.Proofs.SerializerChoice

/-! # What an index holds

An index is made in one pass over the candidates. Which candidates stand in a bucket, which raw types have one and in
which order, and how many places are taken altogether, is said here by the list of candidates alone. Candidates of
neither role are lost, repeated or put out of order; without its type the first candidate, serializers before
deserializers, is what the index fails for. -/

namespace TypedWire

/-! ### Where candidates are registered -/

namespace Candidate

/-- A candidate belongs under a raw type if it is declared for that or for its boxed form, and not for plain
    `Object`. -/
def belongs (raw : RawType) (c : Candidate) : Bool :=
  c.isSpecific && c.isFor raw

def isBoxed (c : Candidate) : Bool :=
  c.declared.any (·.raw.unboxed?.isSome)

variable {c : Candidate} {raw : RawType}

theorem contains_places (raw : RawType) (c : Candidate) : c.places.contains raw = c.belongs raw := by
  rw [Bool.eq_iff_iff, List.contains_iff_mem, mem_places_iff_isFor, belongs, Bool.and_eq_true]

theorem mem_places_iff_belongs : raw ∈ c.places ↔ c.belongs raw = true := by
  rw [← contains_places, List.contains_iff_mem]

/-- A candidate with two places stands under the unboxed raw type first. -/
theorem pairwise_places (c : Candidate) : c.places.Pairwise fun r s => s.unboxed? = some r := by
  unfold places
  split
  · exact .nil
  · rename_i d _
    split
    · exact .nil
    · cases hu : d.raw.unboxed? with
      | none => simp
      | some u => simpa using hu

theorem places_of_boxed {k : Kind} (h : .boxed k ∈ c.places) : c.places = [.primitive k, .boxed k] := by
  obtain ⟨d, hd, ho, hr | hu⟩ := mem_places.mp h
  · rw [places, hd]
    simp [ho, hr, RawType.unboxed?]
  · cases hraw : d.raw with
    | _ => rw [hraw] at hu; cases hu

theorem length_places (c : Candidate) :
    c.places.length = (if c.isSpecific then 1 else 0) + if c.isBoxed then 1 else 0 := by
  unfold places isSpecific isBoxed
  cases c.declared with
  | none => rfl
  | some d =>
    by_cases ho : d.isAnyObject
    · have hu : d.raw.unboxed? = none := by
        cases hraw : d.raw with
        | boxed k => simp [Descriptor.isAnyObject, hraw, RawType.isObject] at ho
        | _ => rfl
      simp [ho, hu]
    · cases hu : d.raw.unboxed? <;> simp [ho, hu]

end Candidate

/-- Where in a list of candidates a raw type is registered first; past the end if it is not. -/
def firstFor (raw : RawType) (cs : List Candidate) : Nat :=
  cs.findIdx (·.belongs raw)

section FirstFor
variable {raw : RawType} {cs : List Candidate} {c : Candidate}

theorem firstFor_lt_iff : firstFor raw cs < cs.length ↔ ∃ c ∈ cs, c.belongs raw = true :=
  List.findIdx_lt_length

theorem firstFor_concat (raw : RawType) (cs : List Candidate) (c : Candidate) :
    firstFor raw (cs ++ [c]) =
      if firstFor raw cs < cs.length then firstFor raw cs else (if c.belongs raw then 0 else 1) + cs.length := by
  rw [firstFor, List.findIdx_append, List.findIdx_singleton]
  rfl

theorem firstFor_concat_of_lt (h : firstFor raw cs < cs.length) (c : Candidate) :
    firstFor raw (cs ++ [c]) = firstFor raw cs := by
  rw [firstFor_concat, if_pos h]

theorem firstFor_concat_of_new (h : ¬firstFor raw cs < cs.length) (hc : c.belongs raw = true) :
    firstFor raw (cs ++ [c]) = cs.length := by
  rw [firstFor_concat, if_neg h, if_pos hc, Nat.zero_add]

end FirstFor

/-! ### The order of the raw types -/

/-- The raw types of candidates, each where it is registered first. -/
def registered (cs : List Candidate) : List RawType :=
  (cs.flatMap Candidate.places).eraseDups

section Registered
variable {raw : RawType} {cs : List Candidate}

theorem mem_registered : raw ∈ registered cs ↔ ∃ c ∈ cs, c.belongs raw = true := by
  rw [registered, List.mem_eraseDups, List.mem_flatMap]
  simp only [Candidate.mem_places_iff_belongs]

theorem firstFor_lt_of_registered (h : raw ∈ registered cs) : firstFor raw cs < cs.length :=
  firstFor_lt_iff.mpr (mem_registered.mp h)

/-- One more candidate adds those of its places that are new, behind all others. -/
theorem registered_concat (cs : List Candidate) (c : Candidate) :
    registered (cs ++ [c]) = registered cs ++ c.places.filter fun raw => !(registered cs).contains raw := by
  have hnew : c.places.removeAll (cs.flatMap Candidate.places) =
      c.places.filter fun raw => !(registered cs).contains raw := by
    refine List.filter_congr fun raw _ => ?_
    simp [registered, List.elem_eq_contains]
  rw [registered, List.flatMap_append, List.eraseDups_append, List.flatMap_singleton, hnew,
    eraseDups_of_nodup (c.nodup_places.filter _)]
  rfl

theorem ordered_registered (cs : List Candidate) :
    (registered cs).Pairwise fun r s =>
      firstFor r cs < firstFor s cs ∨ firstFor r cs = firstFor s cs ∧ s.unboxed? = some r := by
  induction cs using List.reverseRecOn with
  | nil => exact .nil
  | append_singleton cs c ih =>
    have hold : ∀ raw ∈ registered cs, firstFor raw (cs ++ [c]) = firstFor raw cs := fun raw hraw =>
      firstFor_concat_of_lt (firstFor_lt_of_registered hraw) c
    have hnew : ∀ raw ∈ c.places.filter fun raw => !(registered cs).contains raw,
        firstFor raw (cs ++ [c]) = cs.length := by
      intro raw hraw
      obtain ⟨hplace, hfresh⟩ := List.mem_filter.mp hraw
      refine firstFor_concat_of_new (fun hlt => ?_) (Candidate.mem_places_iff_belongs.mp hplace)
      rw [List.contains_iff_mem.mpr (mem_registered.mpr (firstFor_lt_iff.mp hlt))] at hfresh
      cases hfresh
    rw [registered_concat, List.pairwise_append]
    refine ⟨?_, ?_, fun r hr s hs => ?_⟩
    · refine ih.imp_of_mem fun hr hs h => ?_
      rwa [hold _ hr, hold _ hs]
    · refine (c.pairwise_places.filter _).imp_of_mem fun hr hs h => ?_
      exact Or.inr ⟨by rw [hnew _ hr, hnew _ hs], h⟩
    · rw [hold r hr, hnew s hs]
      exact Or.inl (firstFor_lt_of_registered hr)

/-- A primitive stands just before its boxed form where one candidate registers both first. -/
theorem infix_registered {k : Kind} (hboxed : .boxed k ∈ registered cs)
    (hfirst : firstFor (.primitive k) cs = firstFor (.boxed k) cs) : [.primitive k, .boxed k] <:+: registered cs := by
  induction cs using List.reverseRecOn with
  | nil => cases hboxed
  | append_singleton cs c ih =>
    rw [registered_concat] at hboxed ⊢
    by_cases hlt : firstFor (.boxed k) cs < cs.length
    · rw [firstFor_concat_of_lt hlt] at hfirst
      have hprimitive : firstFor (.primitive k) cs < cs.length := by
        by_contra hge
        rw [firstFor_concat, if_neg hge] at hfirst
        omega
      rw [firstFor_concat_of_lt hprimitive] at hfirst
      exact List.infix_append_of_infix_left (ih (mem_registered.mpr (firstFor_lt_iff.mp hlt)) hfirst)
    · have hplaces : c.places = [.primitive k, .boxed k] := by
        rcases List.mem_append.mp hboxed with hold | hnew
        · exact absurd (firstFor_lt_of_registered hold) hlt
        · exact Candidate.places_of_boxed (List.mem_filter.mp hnew).1
      have hbelongs : c.belongs (.boxed k) = true := Candidate.mem_places_iff_belongs.mp (by simp [hplaces])
      have hprimitive : ¬firstFor (.primitive k) cs < cs.length := by
        intro hlt'
        rw [firstFor_concat_of_lt hlt', firstFor_concat_of_new hlt hbelongs] at hfirst
        omega
      have hfresh : ∀ raw ∈ c.places, (!(registered cs).contains raw) = true := by
        intro raw hraw
        rw [Bool.not_eq_true', ← Bool.not_eq_true, List.contains_iff_mem]
        intro hold
        rw [hplaces] at hraw
        rcases List.mem_pair.mp hraw with rfl | rfl
        · exact hprimitive (firstFor_lt_of_registered hold)
        · exact hlt (firstFor_lt_of_registered hold)
      rw [List.filter_eq_self.mpr hfresh, hplaces]
      exact (List.suffix_append _ _).isInfix

end Registered

/-! ### Buckets -/

namespace Buckets

theorem size_cons (raw : RawType) (cs : List Candidate) (bs : Buckets) :
    size ((raw, cs) :: bs) = cs.length + size bs := by
  rw [size, List.flatMap_cons, List.length_append]
  rfl

theorem size_add (raw : RawType) (c : Candidate) (bs : Buckets) : (bs.add raw c).size = bs.size + 1 := by
  induction bs with
  | nil => rfl
  | cons b rest ih =>
    obtain ⟨r, cs⟩ := b
    rw [add]
    split
    · rw [size_cons, size_cons, List.length_append, List.length_singleton]
      omega
    · rw [size_cons, size_cons, ih]
      omega

theorem size_fill (ps : List (RawType × Candidate)) (bs : Buckets) : (fill bs ps).size = bs.size + ps.length := by
  induction ps generalizing bs with
  | nil => rfl
  | cons p ps ih =>
    have hstep : fill bs (p :: ps) = fill (bs.add p.1 p.2) ps := rfl
    rw [hstep, ih, size_add, List.length_cons]
    omega

theorem length_placements (cs : List Candidate) :
    (placements cs).length = (cs.filter (·.isSpecific)).length + (cs.filter (·.isBoxed)).length := by
  induction cs with
  | nil => rfl
  | cons c cs ih =>
    rw [placements, List.flatMap_cons, List.length_append, List.length_map, c.length_places, ← placements, ih,
      List.filter_cons, List.filter_cons]
    cases c.isSpecific <;> cases c.isBoxed <;> simp <;> omega

/-- The buckets hold each of the candidates where it belongs, and nothing else. -/
structure Hold (cs : List Candidate) (bs : Buckets) : Prop where
  /-- A bucket is the sub-list of the candidates that belong there; without such candidates there is none. -/
  find?_eq : ∀ raw, find? raw bs =
    match cs.filter (·.belongs raw) with
    | [] => none
    | found => some found
  mem_keys : ∀ raw, raw ∈ keys bs ↔ ∃ c ∈ cs, c.belongs raw = true
  nodup_keys : (keys bs).Nodup
  /-- The raw types stand in the order of their first registrations; one candidate registers two raw types at most,
      the unboxed one first. -/
  ordered : (keys bs).Pairwise fun r s =>
    firstFor r cs < firstFor s cs ∨ firstFor r cs = firstFor s cs ∧ s.unboxed? = some r
  adjacent : ∀ k : Kind, .boxed k ∈ keys bs → firstFor (.primitive k) cs = firstFor (.boxed k) cs →
    [.primitive k, .boxed k] <:+: keys bs
  size_eq : bs.size = (cs.filter (·.isSpecific)).length + (cs.filter (·.isBoxed)).length

variable {role : Role} {cs : List Candidate} {bs : Buckets} {c : Candidate}

theorem hold_of_build (h : build role cs = .ok bs) : Hold cs bs where
  find?_eq raw := by
    have hbelongs : (cs.filter fun c => c.places.contains raw) = cs.filter (·.belongs raw) := by
      simp only [Candidate.contains_places]
    exact hbelongs ▸ find?_build h raw
  mem_keys raw := by
    rw [keys_build h]
    exact mem_registered
  nodup_keys := by
    rw [keys_build h]
    exact nodup_eraseDups _
  ordered := by
    rw [keys_build h]
    exact ordered_registered cs
  adjacent k hboxed hfirst := by
    rw [keys_build h] at hboxed ⊢
    exact infix_registered hboxed hfirst
  size_eq := by
    rw [(build_eq_ok_iff.mp h).2, size_fill, length_placements]
    exact Nat.zero_add _

theorem exists_build (h : cs.find? (·.declared.isNone) = none) (role : Role) : ∃ bs, build role cs = .ok bs := by
  refine ⟨_, build_eq_ok_iff.mpr ⟨fun c hc => ?_, rfl⟩⟩
  simpa [Option.isSome_iff_ne_none] using List.find?_eq_none.mp h c hc

theorem build_of_untyped (h : cs.find? (·.declared.isNone) = some c) (role : Role) :
    build role cs = .error (.configuration (.untyped role c.name)) := by
  unfold build
  generalize ([] : Buckets) = start
  induction cs generalizing start with
  | nil => cases h
  | cons x xs ih =>
    rw [List.foldlM_cons]
    cases hx : x.declared with
    | none =>
      rw [List.find?_cons_of_pos (by simp [hx])] at h
      rw [Option.some.inj h]
      rfl
    | some d =>
      rw [List.find?_cons_of_neg (by simp [hx])] at h
      exact ih h _

end Buckets

/-! ### The index -/

/-- An index is made of any two lists of candidates, unless a candidate declares no type: then the first such serializer
    is named, and if there is none the first such deserializer. The index holds each candidate where it belongs, one
    for a boxed kind in two places and one for plain `Object` in none. -/
theorem Index.build_eq (serializers deserializers : List Candidate) :
    match serializers.find? (·.declared.isNone), deserializers.find? (·.declared.isNone) with
    | some c, _ => Index.build serializers deserializers = .error (.configuration (.untyped .serializer c.name))
    | none, some c => Index.build serializers deserializers = .error (.configuration (.untyped .deserializer c.name))
    | none, none =>
      ∃ index, Index.build serializers deserializers = .ok index ∧
        index.serializers.Hold serializers ∧ index.deserializers.Hold deserializers ∧
        index.size = ((serializers ++ deserializers).filter (·.isSpecific)).length +
          ((serializers ++ deserializers).filter (·.isBoxed)).length := by
  cases hs : serializers.find? (·.declared.isNone) with
  | some c =>
    show Index.build serializers deserializers = _
    rw [Index.build, Buckets.build_of_untyped hs]
    rfl
  | none =>
    obtain ⟨written, hwritten⟩ := Buckets.exists_build hs .serializer
    cases hd : deserializers.find? (·.declared.isNone) with
    | some c =>
      show Index.build serializers deserializers = _
      rw [Index.build, hwritten, Buckets.build_of_untyped hd]
      rfl
    | none =>
      obtain ⟨read, hread⟩ := Buckets.exists_build hd .deserializer
      have hw := Buckets.hold_of_build hwritten
      have hr := Buckets.hold_of_build hread
      refine ⟨⟨written, read⟩, ?_, hw, hr, ?_⟩
      · rw [Index.build, hwritten, hread]
        rfl
      · rw [List.filter_append, List.filter_append, List.length_append, List.length_append]
        show written.size + read.size = _
        rw [hw.size_eq, hr.size_eq]
        omega

end TypedWire
