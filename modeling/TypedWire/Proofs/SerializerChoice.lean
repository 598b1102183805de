import TypedWire.Proofs.Components
import TypedWire.Proofs.Index
import TypedWire.Registry

/-! # The choice of a serializer without an index

Which serializer writes a type is said here over the plain list of registrations: those for plain `Object`
drop out, those for the raw type itself or for its boxed form come first, and where there are none one of
the raw types that accept the request is chosen. The parameters then have to leave exactly one.

A registry that has just been built answers by this rule: its index finds the same candidates, and the
names are distinct, so the candidate that is left leads back to its own registration. -/

namespace TypedWire

/-! ### The rule -/

/-- Whether a candidate is declared, and for something else than plain `Object`. -/
def Candidate.isSpecific (c : Candidate) : Bool :=
  c.declared.any fun d => !d.isAnyObject

def Candidate.raw? (c : Candidate) : Option RawType :=
  c.declared.map (·.raw)

/-- Whether a candidate is declared for a raw type or for the boxed form of it. -/
def Candidate.isFor (raw : RawType) (c : Candidate) : Bool :=
  c.declared.any fun d => d.raw == raw || d.raw.unboxed? == some raw

/-- Among the raw types that accept a request the one that is chosen: the first of them, or the first that
    all of them accept and, failing that, the first. -/
def BucketSelection.choose (selection : BucketSelection) (raws : List RawType) : Option RawType :=
  match selection with
  | .firstAssignable => raws.head?
  | .mostSpecific => (raws.find? fun raw => raws.all (·.accepts raw)).or raws.head?

/-- The registrations that are considered for a raw type; none where no registration accepts it. -/
def considered (selection : BucketSelection) (all : List (Registration Serializer)) (raw : RawType) :
    Option (List (Registration Serializer)) :=
  let specific := all.filter (·.candidate.isSpecific)
  match specific.filter (·.candidate.isFor raw) with
  | [] =>
    let accepting := (specific.filterMap (·.candidate.raw?)).filter (·.accepts raw)
    (selection.choose accepting).map fun k => specific.filter (·.candidate.raw? == some k)
  | own => some own

/-- The registration that writes a type; none where that is left to the object serializer. -/
def registeredFor (selection : BucketSelection) (all : List (Registration Serializer)) (ty : Descriptor) :
    Except CodecError (Option (Registration Serializer)) :=
  match considered selection all ty.raw with
  | none => .ok none
  | some found =>
    match found.filter fun x => !ty.hasParams || x.candidate.declared.any (·.paramsAccept ty) with
    | [] => .error (.noSerializer ty)
    | [only] => .ok (some only)
    | several => .error (.ambiguousSerializer ty (several.map (·.candidate.name)))

/-! ### The choice of a bucket -/

namespace Index

theorem map_fst_select (selection : BucketSelection) (bs : Buckets) :
    (select selection bs).map Prod.fst = selection.choose (bs.map Prod.fst) := by
  cases selection with
  | firstAssignable => simp [select, BucketSelection.choose]
  | mostSpecific =>
    simp only [select, BucketSelection.choose, List.find?_map, List.all_map, Function.comp_def]
    cases List.find? (fun b => bs.all fun other => other.1.accepts b.1) bs <;> simp

theorem mem_of_select {selection : BucketSelection} {bs : Buckets} {b : RawType × List Candidate}
    (h : select selection bs = some b) : b ∈ bs := by
  cases selection with
  | firstAssignable => exact List.mem_of_head? h
  | mostSpecific =>
    simp only [select] at h
    split at h
    · rename_i found
      exact Option.some.inj h ▸ List.mem_of_find?_eq_some found
    · exact List.mem_of_head? h

end Index

theorem BucketSelection.choose_eraseDups (selection : BucketSelection) (raws : List RawType) :
    selection.choose raws.eraseDups = selection.choose raws := by
  cases selection <;> simp only [choose, head?_eraseDups, find?_eraseDups, all_eraseDups]

/-! ### Buckets of a list of candidates -/

section Places
variable {c : Candidate} {raw k : RawType}

theorem Candidate.mem_places_iff_isFor : raw ∈ c.places ↔ c.isSpecific = true ∧ c.isFor raw = true := by
  rw [mem_places]
  unfold isSpecific isFor
  cases c.declared with
  | none => simp
  | some d => simp

theorem Candidate.mem_places_of_raw? (hs : c.isSpecific = true) (hr : c.raw? = some raw) : raw ∈ c.places := by
  refine mem_places_iff_isFor.mpr ⟨hs, ?_⟩
  obtain ⟨d, hd, rfl⟩ := Option.map_eq_some_iff.mp hr
  simp [isFor, hd]

theorem RawType.eq_of_primitive_accepts {kind : Kind} (h : (primitive kind).accepts raw = true) :
    raw = primitive kind := by
  simp only [accepts, beq_iff_eq] at h
  exact h.symm

/-- A candidate that stands under a raw type that accepts another one is declared for the former, or stands
    under the latter as well: only a primitive is no declared raw type, and it accepts itself alone. -/
theorem Candidate.raw?_of_mem_places (hk : k ∈ c.places) (ha : k.accepts raw = true) (hraw : raw ∉ c.places) :
    c.raw? = some k := by
  obtain ⟨d, hd, -, hr | hu⟩ := mem_places.mp hk
  · simp [raw?, hd, hr]
  · cases hb : d.raw with
    | boxed kind =>
      rw [hb] at hu
      obtain rfl : RawType.primitive kind = k := Option.some.inj hu
      exact absurd (RawType.eq_of_primitive_accepts ha ▸ hk) hraw
    | primitive _ => simp [hb, RawType.unboxed?] at hu
    | classType _ => simp [hb, RawType.unboxed?] at hu
    | array _ => simp [hb, RawType.unboxed?] at hu

theorem Candidate.places_of_not_specific (h : ¬c.isSpecific = true) : c.places = [] := by
  unfold places
  unfold isSpecific at h
  cases hd : c.declared with
  | none => rfl
  | some d => simpa [hd] using h

/-- Of the places of a candidate only its declared raw type can accept one that is none of them. -/
theorem Candidate.filter_places (hs : c.isSpecific = true) (hraw : raw ∉ c.places) :
    c.places.filter (·.accepts raw) = c.raw?.toList.filter (·.accepts raw) := by
  obtain ⟨d, hd, ho⟩ := (Option.any_eq_true _ _).mp hs
  have hobject : d.isAnyObject = false := by simpa using ho
  have hdeclared : c.raw? = some d.raw := by simp [raw?, hd]
  have hplaces : c.places = d.raw.unboxed?.toList ++ [d.raw] := by simp [places, hd, hobject]
  have hnil : d.raw.unboxed?.toList.filter (·.accepts raw) = [] := by
    rw [List.filter_eq_nil_iff]
    intro u hu ha
    have hunboxed : u ∈ d.raw.unboxed? := Option.mem_toList.mp hu
    have hr := raw?_of_mem_places (mem_places.mpr ⟨d, hd, hobject, Or.inr hunboxed⟩) ha hraw
    obtain rfl : d.raw = u := Option.some.inj (hdeclared.symm.trans hr)
    exact RawType.unboxed?_ne_self _ hunboxed
  rw [hplaces, List.filter_append, hnil, List.nil_append, hdeclared]
  rfl

end Places

section Bucket
variable {regs : List (Registration Serializer)} {bs : Buckets} {role : Role} {raw : RawType}

theorem filter_candidates (p : Candidate → Bool) :
    (regs.map (·.candidate)).filter p = (regs.filter fun x => p x.candidate).map (·.candidate) := by
  rw [List.filter_map]
  rfl

theorem find?_build_candidates (h : Buckets.build role (regs.map (·.candidate)) = .ok bs) (raw : RawType) :
    Buckets.find? raw bs =
      match (regs.filter (·.candidate.isSpecific)).filter (·.candidate.isFor raw) with
      | [] => none
      | own => some (own.map (·.candidate)) := by
  have hf : ((regs.filter (·.candidate.isSpecific)).filter (·.candidate.isFor raw)) =
      regs.filter fun x => x.candidate.places.contains raw := by
    rw [List.filter_filter]
    refine List.filter_congr fun x _ => ?_
    rw [Bool.eq_iff_iff, List.contains_iff_mem, Candidate.mem_places_iff_isFor, Bool.and_eq_true, and_comm]
  rw [Buckets.find?_build h, filter_candidates, hf]
  cases regs.filter fun x => x.candidate.places.contains raw <;> rfl

/-- The raw types of the index that accept a request without a bucket of its own are, but for repetitions,
    the declared raw types that accept it. -/
theorem keys_accepting (h : Buckets.build role (regs.map (·.candidate)) = .ok bs)
    (none_own : ∀ x ∈ regs, raw ∉ x.candidate.places) :
    (Buckets.keys bs).filter (·.accepts raw) =
      (((regs.filter (·.candidate.isSpecific)).filterMap (·.candidate.raw?)).filter
        (·.accepts raw)).eraseDups := by
  rw [Buckets.keys_build h, filter_eraseDups]
  congr 1
  clear h
  induction regs with
  | nil => rfl
  | cons x xs ih =>
    have hx := none_own x (List.mem_cons_self ..)
    rw [List.map_cons, List.flatMap_cons, List.filter_append,
      ih fun y hy => none_own y (List.mem_cons_of_mem _ hy), List.filter_cons]
    by_cases hs : x.candidate.isSpecific = true
    · rw [if_pos hs, Candidate.filter_places hs hx, List.filterMap_cons]
      cases x.candidate.raw? with
      | none => rfl
      | some k =>
        rw [Option.toList_some, ← List.filter_append]
        rfl
    · rw [if_neg hs, Candidate.places_of_not_specific hs]
      rfl

/-- Where a raw type is no place of any candidate, a raw type that accepts it is the place of those alone that
    are declared for it. -/
theorem filter_isFor_eq (none_own : ∀ x ∈ regs, raw ∉ x.candidate.places) {k : RawType} (hk : k.accepts raw = true) :
    (regs.filter (·.candidate.isSpecific)).filter (·.candidate.isFor k) =
      (regs.filter (·.candidate.isSpecific)).filter (·.candidate.raw? == some k) := by
  refine List.filter_congr fun x hx => ?_
  obtain ⟨hx, hs⟩ := List.mem_filter.mp hx
  rw [Bool.eq_iff_iff, beq_iff_eq]
  constructor
  · intro hfor
    exact Candidate.raw?_of_mem_places (Candidate.mem_places_iff_isFor.mpr ⟨hs, hfor⟩) hk (none_own x hx)
  · intro hr
    exact (Candidate.mem_places_iff_isFor.mp (Candidate.mem_places_of_raw? hs hr)).2

theorem findSerializerBucket_eq_considered {i : Index} (selection : BucketSelection)
    (h : Buckets.build role (regs.map (·.candidate)) = .ok i.serializers) (raw : RawType) :
    (i.findSerializerBucket raw selection).map Prod.snd =
      (considered selection regs raw).map fun found => found.map (·.candidate) := by
  unfold Index.findSerializerBucket considered
  dsimp only
  rw [find?_build_candidates h]
  cases hown : (regs.filter (·.candidate.isSpecific)).filter (·.candidate.isFor raw) with
  | cons x xs => simp
  | nil =>
    -- No bucket is the request's own, so one is chosen among those whose raw types accept it.
    have none_own : ∀ x ∈ regs, raw ∉ x.candidate.places := fun x hx hp => by
      obtain ⟨hs, hf⟩ := Candidate.mem_places_iff_isFor.mp hp
      have : x ∈ (regs.filter (·.candidate.isSpecific)).filter (·.candidate.isFor raw) :=
        List.mem_filter.mpr ⟨List.mem_filter.mpr ⟨hx, hs⟩, hf⟩
      rw [hown] at this
      simp at this
    have hkeys : ((i.serializers.filter fun b => b.1.accepts raw).map Prod.fst) =
        (((regs.filter (·.candidate.isSpecific)).filterMap (·.candidate.raw?)).filter
          (·.accepts raw)).eraseDups := by
      rw [← keys_accepting h none_own, Buckets.keys, List.filter_map]
      rfl
    have hsel := Index.map_fst_select selection (i.serializers.filter fun b => b.1.accepts raw)
    rw [hkeys, BucketSelection.choose_eraseDups] at hsel
    dsimp only
    rw [← hsel]
    cases hb : Index.select selection (i.serializers.filter fun b => b.1.accepts raw) with
    | none => simp
    | some b =>
      obtain ⟨hmem, hacc⟩ := List.mem_filter.mp (Index.mem_of_select hb)
      have hk : (Buckets.keys i.serializers).Nodup := Buckets.keys_build h ▸ nodup_eraseDups _
      have hbucket := (find?_build_candidates h b.1).symm.trans (Buckets.find?_of_mem hk hmem)
      rw [filter_isFor_eq none_own hacc] at hbucket
      dsimp only [Option.map_some]
      split at hbucket
      · cases hbucket
      · rw [← Option.some.inj hbucket]

end Bucket

/-! ### From a candidate back to its registration -/

namespace Registration
variable {C : Type}

theorem repeated?_eq_none_iff {seen : List String} {regs : List (Registration C)} :
    repeated? seen regs = none ↔
      (regs.map (·.candidate.name)).Nodup ∧ ∀ x ∈ regs, x.candidate.name ∉ seen := by
  induction regs generalizing seen with
  | nil => simp [repeated?]
  | cons x xs ih =>
    unfold repeated?
    by_cases hx : x.candidate.name ∈ seen
    · simp [hx]
    · rw [if_neg hx, ih]
      simp only [List.map_cons, List.nodup_cons, List.mem_map, List.mem_cons, not_or, not_exists, not_and,
        forall_eq_or_imp]
      constructor
      · rintro ⟨hn, hxs⟩
        exact ⟨⟨fun y hy => (hxs y hy).1, hn⟩, hx, fun y hy => (hxs y hy).2⟩
      · rintro ⟨⟨hne, hn⟩, -, hxs⟩
        exact ⟨hn, fun y hy => ⟨hne y hy, hxs y hy⟩⟩

/-- Where names are distinct, the first registration of a name is the one that bears it. -/
theorem useFirst_name {regs : List (Registration C)} (hn : (regs.map (·.candidate.name)).Nodup)
    {x : Registration C} (hx : x ∈ regs) (fresh : Nat) :
    ∃ rest, useFirst fresh (·.candidate.name = x.candidate.name) regs =
      some ((x.use fresh).1, (x.use fresh).2.candidate, rest) := by
  induction regs with
  | nil => simp at hx
  | cons y ys ih =>
    simp only [List.map_cons, List.nodup_cons, List.mem_map, not_exists, not_and] at hn
    rcases List.mem_cons.mp hx with rfl | hx
    · exact ⟨_, by simp [useFirst]; rfl⟩
    · obtain ⟨rest, hrest⟩ := ih hn.2 hx
      have hne : ¬y.candidate.name = x.candidate.name := fun he => hn.1 x hx he.symm
      exact ⟨y :: rest, by simp [useFirst, hne, hrest]⟩

end Registration

namespace StaticComponents
variable {sers : List (Registration Serializer)} {des : List (Registration Deserializer)} {s : StaticComponents}

theorem build_eq_ok_iff :
    build sers des = .ok s ↔ (sers.map (·.candidate.name)).Nodup ∧ (des.map (·.candidate.name)).Nodup ∧
      s = ⟨sers, des, 0⟩ := by
  have hs := @Registration.repeated?_eq_none_iff _ [] sers
  have hd := @Registration.repeated?_eq_none_iff _ [] des
  simp only [List.not_mem_nil, not_false_eq_true, implies_true, and_true] at hs hd
  unfold build
  rw [← hs, ← hd]
  cases Registration.repeated? [] sers with
  | some n => simp
  | none =>
    cases Registration.repeated? [] des with
    | some n => simp
    | none => simp [eq_comm]

theorem instantiate_of_mem (hn : (s.serializers.map (·.candidate.name)).Nodup) {x : Registration Serializer}
    (hx : x ∈ s.serializers) : (s.instantiate x.candidate).1 = .ok (x.use s.fresh).1 := by
  obtain ⟨rest, hrest⟩ := Registration.useFirst_name hn hx s.fresh
  simp only [instantiate, hrest]

end StaticComponents

/-! ### A registry that has just been built -/

namespace Registry
variable {config : Config} {components : Components} {known : List Class} {fallbacks : Fallbacks} {r : Registry}

theorem build_eq_ok_iff :
    build config components known fallbacks = .ok r ↔ config.isValid = true ∧
      ∃ index, Index.build components.serializers components.deserializers = .ok index ∧
        r = assemble config components known index fallbacks := by
  unfold build
  cases config.isValid with
  | false => simp [bind, Except.bind, throw, throwThe, MonadExceptOf.throw]
  | true =>
    cases Index.build components.serializers components.deserializers with
    | error e => simp [bind, Except.bind]
    | ok index => simp [bind, Except.bind, pure, Except.pure, eq_comm]

end Registry

namespace Index

theorem build_eq_ok_iff {sers des : List Candidate} {i : Index} :
    build sers des = .ok i ↔
      Buckets.build .serializer sers = .ok i.serializers ∧ Buckets.build .deserializer des = .ok i.deserializers := by
  unfold build
  cases Buckets.build .serializer sers with
  | error e => simp [bind, Except.bind]
  | ok a =>
    cases Buckets.build .deserializer des with
    | error e => simp [bind, Except.bind]
    | ok b =>
      obtain ⟨a', b'⟩ := i
      simp [bind, Except.bind, pure, Except.pure]

end Index

/-- The candidate that a registry chooses is that of the registration for the type. -/
theorem Registry.chooseSerializer_eq_registeredFor {r : Registry} {regs : List (Registration Serializer)}
    (h : Buckets.build .serializer (regs.map (·.candidate)) = .ok r.index.serializers) (ty : Descriptor) :
    r.chooseSerializer ty =
      (registeredFor r.config.selection regs ty).map fun found => found.map (·.candidate) := by
  have hb := findSerializerBucket_eq_considered r.config.selection h ty.raw
  unfold chooseSerializer registeredFor
  cases hc : considered r.config.selection regs ty.raw with
  | none =>
    rw [hc] at hb
    cases hf : r.index.findSerializerBucket ty.raw r.config.selection with
    | none => rfl
    | some b => simp [hf] at hb
  | some found =>
    rw [hc] at hb
    obtain ⟨⟨k, bucket⟩, hf, hbucket⟩ := Option.map_eq_some_iff.mp hb
    obtain rfl : bucket = found.map (·.candidate) := hbucket
    have hs : survivors ty (found.map (·.candidate)) =
        (found.filter fun x => !ty.hasParams || x.candidate.declared.any (·.paramsAccept ty)).map
          (·.candidate) := by
      unfold survivors
      split
      · rename_i hp
        rw [filter_candidates, hp]
        rfl
      · rename_i hp
        rw [List.filter_eq_self.mpr fun _ _ => by simp [hp]]
    simp only [hf, hs]
    cases found.filter fun x => !ty.hasParams || x.candidate.declared.any (·.paramsAccept ty) with
    | nil => rfl
    | cons x xs =>
      cases xs with
      | nil => rfl
      | cons y ys => simp [Except.map]

theorem mem_of_considered {selection : BucketSelection} {all found : List (Registration Serializer)}
    {raw : RawType} (h : considered selection all raw = some found) {x : Registration Serializer}
    (hx : x ∈ found) : x ∈ all := by
  unfold considered at h
  dsimp only at h
  split at h
  · obtain ⟨k, -, rfl⟩ := Option.map_eq_some_iff.mp h
    exact (List.mem_filter.mp (List.mem_filter.mp hx).1).1
  · obtain rfl := Option.some.inj h
    exact (List.mem_filter.mp (List.mem_filter.mp hx).1).1

theorem mem_of_registeredFor {selection : BucketSelection} {all : List (Registration Serializer)}
    {ty : Descriptor} {x : Registration Serializer} (h : registeredFor selection all ty = .ok (some x)) :
    x ∈ all := by
  unfold registeredFor at h
  split at h
  · cases h
  · rename_i found hf
    split at h
    · cases h
    · rename_i only ho
      obtain rfl : only = x := Option.some.inj (Except.ok.inj h)
      have hm : only ∈ found.filter fun x => !ty.hasParams || x.candidate.declared.any (·.paramsAccept ty) :=
        ho ▸ List.mem_singleton_self only
      exact mem_of_considered hf (List.mem_filter.mp hm).1
    · cases h

theorem Registry.find?_serializers_assemble {config : Config} {components : Components} {known : List Class}
    {index : Index} {fallbacks : Fallbacks} {ty : Descriptor} (h : ∀ b ∈ sharedBuiltIns, (ty == b.1) = false) :
    Cache.find? ty (assemble config components known index fallbacks).serializers = none := by
  simp only [Cache.find?, assemble, List.lookup_eq_none_iff, List.mem_mapIdx, forall_exists_index]
  rintro _ i hi rfl
  simpa [bne] using h _ (List.getElem_mem hi)

/-- A registry that has just been built over registered components answers by the rule: with the codec of
    the registration for the type under its name, with the object serializer where no registration accepts
    the type, or with the rule's error. Types of built-in serializers are not asked for here. -/
theorem findSerializer_of_build {config : Config} {sers : List (Registration Serializer)}
    {des : List (Registration Deserializer)} {s : StaticComponents} {known : List Class} {fallbacks : Fallbacks}
    {r : Registry} (hs : StaticComponents.build sers des = .ok s)
    (hr : Registry.build config (.static s) known fallbacks = .ok r) (ty : Descriptor)
    (hty : ∀ b ∈ sharedBuiltIns, (ty == b.1) = false) :
    (RegistryM.findSerializer ty r).1.map (fun found => (found.origin, found.codec)) =
      (registeredFor config.selection sers ty).map fun
        | none => (.objectFallback, fallbacks.serializer)
        | some x => (.registered x.candidate.name, x.product) := by
  obtain ⟨hn, -, rfl⟩ := StaticComponents.build_eq_ok_iff.mp hs
  obtain ⟨-, index, hi, rfl⟩ := Registry.build_eq_ok_iff.mp hr
  have hfresh := @Registry.find?_serializers_assemble config (.static ⟨sers, des, 0⟩) known index fallbacks ty hty
  have hchoice := Registry.chooseSerializer_eq_registeredFor
    (r := Registry.assemble config (.static ⟨sers, des, 0⟩) known index fallbacks)
    (Index.build_eq_ok_iff.mp hi).1 ty
  unfold RegistryM.findSerializer
  rw [hfresh, hchoice]
  show _ = (registeredFor config.selection sers ty).map _
  cases hreg : registeredFor config.selection sers ty with
  | error e => simp [Registry.assemble, hreg, Except.map]
  | ok chosen =>
    cases chosen with
    | none => simp [Registry.assemble, hreg, Except.map, Registry.own, Resolved.codec]
    | some x =>
      have hmade := StaticComponents.instantiate_of_mem (s := ⟨sers, des, 0⟩) hn (mem_of_registeredFor hreg)
      have hcodec := x.codec_use 0
      cases hinst : StaticComponents.instantiate ⟨sers, des, 0⟩ x.candidate with
      | mk answer after =>
        rw [hinst] at hmade
        obtain rfl : answer = _ := hmade
        simp [Registry.assemble, hreg, Except.map, Components.instantiate, hinst, Resolved.codec, hcodec]

/-- Registrations for `Object`, `Collection<E>`, `List<String>` and `List<E>`, in this order. -/
def listSerializers : List (Registration Serializer) :=
  [.pending "AnySer" (some .object) .object,
    .pending "CollectionSer" (some (.generic (.classType Class.collection) [.ofVariable "E" .object])) .bigInteger,
    .pending "StringListSer" (some (.generic (.classType Class.list) [.string])) .bigDecimal,
    .pending "ListSer" (some (.generic (.classType Class.list) [.ofVariable "E" .object])) .elements]

/-- A request for `ArrayList<Integer>`, where no serializer is for `ArrayList` itself: the most specific
    raw type is `List`, and only the serializer for `List<E>` accepts the parameter. -/
theorem findSerializer_of_build_arrayList :
    ∃ s r, StaticComponents.build listSerializers [] = .ok s ∧
      Registry.build { Config.standard with selection := .mostSpecific } (.static s) [] .standard = .ok r ∧
      (∀ b ∈ sharedBuiltIns,
        (Descriptor.generic (.classType (.mk "ArrayList" [Class.list])) [.boxed .int] == b.1) = false) ∧
      (RegistryM.findSerializer
          (.generic (.classType (.mk "ArrayList" [Class.list])) [.boxed .int]) r).1.map
        (fun found => (found.origin, found.codec)) = .ok (.registered "ListSer", .elements) := by
  have hs : StaticComponents.build listSerializers [] = .ok ⟨listSerializers, [], 0⟩ := rfl
  have hr : Registry.build { Config.standard with selection := .mostSpecific }
      (.static ⟨listSerializers, [], 0⟩) [] .standard = .ok _ := rfl
  have hty : ∀ b ∈ sharedBuiltIns,
      (Descriptor.generic (.classType (.mk "ArrayList" [Class.list])) [.boxed .int] == b.1) = false := by decide
  exact ⟨_, _, hs, hr, hty, (findSerializer_of_build hs hr _ hty).trans rfl⟩

end TypedWire
