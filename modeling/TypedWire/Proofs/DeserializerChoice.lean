import Mathlib.Data.List.Find
import Mathlib.Data.List.Nodup
import Mathlib.Data.List.Pairwise
import TypedWire.Proofs.RegistrationOrder

/-! # The choice of a deserializer

Which deserializer reads a type is said here over the plain list of registrations: the first that is declared
for the type itself, else the only one that is declared with parameters for its raw type and accepts its
parameters, and none where there are several. A built-in deserializer of the type comes before all of them, and
a fallback after.

No registration for another raw type is ever taken, so supertypes and boxed forms, which count for serializers,
do not count here. The order of registration has a say only between declarations for one and the same type. -/

namespace TypedWire

/-! ### The rule -/

/-- What a list holds where it holds one thing alone. -/
def only? {α : Type} : List α → Option α
  | [x] => some x
  | _ => none

/-- The registration that reads a type; none where that is left to a fallback. -/
def readerFor (ty : Descriptor) (all : List (Registration Deserializer)) : Option (Registration Deserializer) :=
  (all.find? fun x => x.candidate.declared.any (· == ty)).or
    (only? (all.filter fun x =>
      x.candidate.declared.any fun d => d.raw == ty.raw && d.hasParams && d.paramsAccept ty))

/-- Whether two candidates are declared for one type. -/
def Candidate.sharesType (c c' : Candidate) : Bool :=
  c.declared.any fun d => c'.declared.any (d == ·)

/-- No two registrations are declared for one type. -/
def DistinctDeclarations (all : List (Registration Deserializer)) : Prop :=
  all.Pairwise fun x y => x.candidate.sharesType y.candidate = false

instance (all : List (Registration Deserializer)) : Decidable (DistinctDeclarations all) :=
  inferInstanceAs (Decidable (all.Pairwise fun x y => x.candidate.sharesType y.candidate = false))

section Only
variable {α : Type} {xs ys : List α}

theorem only?_eq_find? (p : α → Bool) (xs : List α) :
    only? (xs.filter p) = if xs.countP p = 1 then xs.find? p else none := by
  rw [List.countP_eq_length_filter, ← List.head?_filter]
  match xs.filter p with
  | [] | [x] => rfl
  | x :: y :: rest => simp [only?]

theorem only?_perm (h : xs.Perm ys) : only? xs = only? ys := by
  match xs, ys, h with
  | [], ys, h => rw [← h.nil_eq]
  | [x], ys, h => rw [List.singleton_perm.mp h]
  | _ :: _ :: _, _ :: _ :: _, _ => rfl
  | _ :: _ :: _, [], h | _ :: _ :: _, [_], h => cases h.length_eq

theorem mem_of_only? {x : α} (h : only? xs = some x) : x ∈ xs := by
  match xs, h with
  | [y], h =>
    obtain rfl := Option.some.inj h
    exact List.mem_singleton_self y
  | [], h | _ :: _ :: _, h => cases h

end Only

theorem Candidate.sharesType_comm (c c' : Candidate) : c.sharesType c' = c'.sharesType c := by
  unfold sharesType
  cases c.declared with
  | none => cases c'.declared <;> rfl
  | some d =>
    cases c'.declared with
    | none => rfl
    | some e => exact BEq.comm

section Reader
variable {ty : Descriptor} {des des' : List (Registration Deserializer)} {x : Registration Deserializer}

/-- Components read a type with what the rule gives. -/
theorem StaticComponents.readingFace?_faces (ty : Descriptor) (des : List (Registration Deserializer)) :
    readingFace? ty (des.map Registration.face) = (readerFor ty des).map Registration.face := by
  unfold readingFace? readerFor
  rw [List.any_map, List.countP_map, List.find?_map, List.find?_map, only?_eq_find?, Option.map_or]
  by_cases hany : des.any ((fun f => isDeclaredFor ty f.1) ∘ Registration.face) = true
  · rw [if_pos hany]
    obtain ⟨y, hy, hd⟩ := List.any_eq_true.mp hany
    obtain ⟨z, hz⟩ := Option.isSome_iff_exists.mp (List.find?_isSome.mpr ⟨y, hy, hd⟩)
    have hfirst : (des.find? fun x => x.candidate.declared.any (· == ty)) = some z := hz
    rw [hfirst]
    exact congrArg (Option.map Registration.face) hz
  · rw [if_neg hany]
    have hnone : (des.find? fun x => x.candidate.declared.any (· == ty)) = none := by
      rw [List.find?_eq_none]
      intro y hy hd
      exact hany (List.any_eq_true.mpr ⟨y, hy, hd⟩)
    rw [hnone, Option.map_none, Option.none_or, apply_ite (Option.map Registration.face)]
    rfl

theorem raw_of_readerFor (h : readerFor ty des = some x) :
    x ∈ des ∧ ∃ d, x.candidate.declared = some d ∧ d.raw = ty.raw := by
  unfold readerFor at h
  rcases Option.or_eq_some_iff.mp h with hfirst | ⟨-, honly⟩
  · have hdeclared := List.find?_some hfirst
    obtain ⟨d, hd, hkey⟩ := (Option.any_eq_true _ _).mp hdeclared
    exact ⟨List.mem_of_find?_eq_some hfirst, d, hd, Descriptor.raw_congr hkey⟩
  · obtain ⟨hx, haccepts⟩ := List.mem_filter.mp (mem_of_only? honly)
    obtain ⟨d, hd, hraw⟩ := (Option.any_eq_true _ _).mp haccepts
    simp only [Bool.and_eq_true, beq_iff_eq] at hraw
    exact ⟨hx, d, hd, hraw.1.1⟩

theorem DistinctDeclarations.eq_of_declared (h : DistinctDeclarations des) {y : Registration Deserializer}
    (hx : x ∈ des) (hy : y ∈ des) (hxty : x.candidate.declared.any (· == ty) = true)
    (hyty : y.candidate.declared.any (· == ty) = true) : x = y := by
  have hsymm : Std.Symm fun x y : Registration Deserializer => x.candidate.sharesType y.candidate = false :=
    ⟨fun x y hxy => (Candidate.sharesType_comm y.candidate x.candidate).trans hxy⟩
  by_contra hne
  have hapart := List.Pairwise.forall h hx hy hne
  obtain ⟨d, hd, hdty⟩ := (Option.any_eq_true _ _).mp hxty
  obtain ⟨e, he, hety⟩ := (Option.any_eq_true _ _).mp hyty
  have hkey : (d == e) = true := BEq.trans hdty (BEq.symm hety)
  simp [Candidate.sharesType, hd, he, hkey] at hapart

theorem readerFor_perm (hp : des.Perm des') (hd : DistinctDeclarations des) (ty : Descriptor) :
    readerFor ty des = readerFor ty des' := by
  unfold readerFor
  have hfirst : (des.find? fun x => x.candidate.declared.any (· == ty)) =
      des'.find? fun x => x.candidate.declared.any (· == ty) := by
    refine List.find?_eq_find?_of_perm hp ?_
    rintro x ⟨hx, hxty⟩ y ⟨hy, hyty⟩
    exact hd.eq_of_declared hx hy hxty hyty
  rw [hfirst, only?_perm (hp.filter _)]

end Reader

/-! ### What a registry answers -/

namespace Registry

section Assembled
variable (config : Config) (s : StaticComponents) (known : List Class) (index : Index) (fallbacks : Fallbacks)
  (ty : Descriptor)

/-- What a registry answers that has just been built. -/
theorem deserializerAnswer_assembled :
    (assemble config (.static s) known index fallbacks).deserializerAnswer ty =
      .ok (((Cache.find? ty (assemble config (.static s) known index fallbacks).deserializers).map
        Resolved.answer).getD
          (((readerFor ty s.deserializers).map fun x =>
            (⟨.registered x.candidate.name, x.product, none⟩ : Answer Deserializer)).getD
              (if ty.isArray then (assemble config (.static s) known index fallbacks).arrayDeserializer.answer
                else (assemble config (.static s) known index fallbacks).objectDeserializer.answer))) := by
  rw [deserializerAnswer_static rfl, StaticComponents.readingFace?_faces, Option.map_map]
  rfl

end Assembled

section Built
variable {config : Config} {sers : List (Registration Serializer)} {des : List (Registration Deserializer)}
  {s : StaticComponents} {known : List Class} {fallbacks : Fallbacks} {r : Registry}

theorem map_deserializerAnswer (r : Registry) (ty : Descriptor) :
    (r.deserializerAnswer ty).map (fun a => (a.origin, a.codec)) =
      (RegistryM.findDeserializer ty r).1.map fun found => (found.origin, found.codec) := by
  unfold deserializerAnswer
  cases (RegistryM.findDeserializer ty r).1 <;> rfl

/-- A registry over registered components reads a type with the built-in deserializer, or with the one that the
    rule gives, or with a fallback. -/
theorem deserializer_of_build (hs : StaticComponents.build sers des = .ok s)
    (hr : build config (.static s) known fallbacks = .ok r) (history : List Lookup) (ty : Descriptor) :
    (RegistryM.findDeserializer ty (r.after history)).1.map (fun found => (found.origin, found.codec)) =
      .ok (match readBuiltIns.lookup ty, readerFor ty des with
        | some codec, _ => (.builtIn, codec)
        | none, some x => (.registered x.candidate.name, x.product)
        | none, none =>
          if ty.isArray then (.objectArrayFallback, fallbacks.arrayDeserializer)
          else (.objectFallback, fallbacks.deserializer)) := by
  have hsettled := (settled_of_build hr history).deserializerAnswer_eq ty
  obtain ⟨-, -, rfl⟩ := StaticComponents.build_eq_ok_iff.mp hs
  obtain ⟨-, index, -, rfl⟩ := build_eq_ok_iff.mp hr
  rw [← map_deserializerAnswer, hsettled, deserializerAnswer_assembled]
  refine congrArg Except.ok ((answer_of_listed (find?_deserializers_assembled ..) rfl).trans ?_)
  cases readBuiltIns.lookup ty with
  | some codec => rfl
  | none =>
    cases readerFor ty des with
    | some x => rfl
    | none => cases hty : ty.isArray <;> rfl

theorem raw_of_registered (hs : StaticComponents.build sers des = .ok s)
    (hr : build config (.static s) known fallbacks = .ok r) (history : List Lookup) {ty : Descriptor}
    {found : Resolved Deserializer} (hfound : (RegistryM.findDeserializer ty (r.after history)).1 = .ok found)
    {x : Registration Deserializer} (hx : x ∈ des) (ho : found.origin = .registered x.candidate.name) :
    ∃ d, x.candidate.declared = some d ∧ d.raw = ty.raw := by
  have hanswer := deserializer_of_build hs hr history ty
  obtain ⟨-, hn, -⟩ := StaticComponents.build_eq_ok_iff.mp hs
  rw [hfound] at hanswer
  have horigin := congrArg Prod.fst (Except.ok.inj hanswer)
  rw [show (found.origin, found.codec).1 = found.origin from rfl, ho] at horigin
  cases hl : readBuiltIns.lookup ty with
  | some codec =>
    rw [hl] at horigin
    cases horigin
  | none =>
    cases hreader : readerFor ty des with
    | some y =>
      rw [hl, hreader] at horigin
      obtain ⟨hy, hraw⟩ := raw_of_readerFor hreader
      obtain rfl := List.inj_on_of_nodup_map hn hx hy (Origin.registered.inj horigin)
      exact hraw
    | none =>
      rw [hl, hreader] at horigin
      cases hty : ty.isArray <;> rw [hty] at horigin <;> cases horigin

/-- Registrations in another order are accepted as well, and no answer changes. -/
theorem deserializerAnswer_perm {des' : List (Registration Deserializer)}
    (hs : StaticComponents.build sers des = .ok s) (hr : build config (.static s) known fallbacks = .ok r)
    (hp : des.Perm des') :
    ∃ s' r', StaticComponents.build sers des' = .ok s' ∧ build config (.static s') known fallbacks = .ok r' ∧
      (DistinctDeclarations des → ∀ (history history' : List Lookup) (ty : Descriptor),
        (r'.after history').deserializerAnswer ty = (r.after history).deserializerAnswer ty) := by
  obtain ⟨hn, hd, rfl⟩ := StaticComponents.build_eq_ok_iff.mp hs
  obtain ⟨hvalid, index, hi, rfl⟩ := build_eq_ok_iff.mp hr
  obtain ⟨hbuckets, hbuckets'⟩ := Index.build_eq_ok_iff.mp hi
  have hcandidates : (des.map (·.candidate)).Perm (des'.map (·.candidate)) := hp.map _
  obtain ⟨buckets, hb⟩ := Buckets.exists_build_perm hbuckets' hcandidates
  have hd' := (hp.map (·.candidate.name)).nodup_iff.mp hd
  have hs' : StaticComponents.build sers des' = .ok ⟨sers, des', 0⟩ :=
    StaticComponents.build_eq_ok_iff.mpr ⟨hn, hd', rfl⟩
  have hi' : Index.build (sers.map (·.candidate)) (des'.map (·.candidate)) = .ok ⟨index.serializers, buckets⟩ :=
    Index.build_eq_ok_iff.mpr ⟨hbuckets, hb⟩
  have hr' : build config (.static ⟨sers, des', 0⟩) known fallbacks = .ok _ :=
    build_eq_ok_iff.mpr ⟨hvalid, _, hi', rfl⟩
  refine ⟨_, _, hs', hr', fun hdistinct history history' ty => ?_⟩
  rw [(settled_of_build hr history).deserializerAnswer_eq, (settled_of_build hr' history').deserializerAnswer_eq,
    deserializerAnswer_assembled, deserializerAnswer_assembled, readerFor_perm hp hdistinct ty]
  rfl

end Built

end Registry

/-- A registry over registered components finds a deserializer for every type, by the rule: the built-in one, or
    the one that is chosen among the registrations, or a fallback. A registration that it takes is declared for
    the raw type of the request. Registrations in another order are accepted as well, and where no two of them
    are declared for one type they give the same answers. -/
theorem findDeserializer_of_build {config : Config} {sers : List (Registration Serializer)}
    {des : List (Registration Deserializer)} {s : StaticComponents} {known : List Class} {fallbacks : Fallbacks}
    {r : Registry} (hs : StaticComponents.build sers des = .ok s)
    (hr : Registry.build config (.static s) known fallbacks = .ok r) (history : List Lookup) :
    (∀ ty, (RegistryM.findDeserializer ty (r.after history)).1.map (fun found => (found.origin, found.codec)) =
      .ok (match readBuiltIns.lookup ty, readerFor ty des with
        | some codec, _ => (.builtIn, codec)
        | none, some x => (.registered x.candidate.name, x.product)
        | none, none =>
          if ty.isArray then (.objectArrayFallback, fallbacks.arrayDeserializer)
          else (.objectFallback, fallbacks.deserializer))) ∧
    (∀ ty found, (RegistryM.findDeserializer ty (r.after history)).1 = .ok found →
      ∀ x ∈ des, found.origin = .registered x.candidate.name →
        ∃ d, x.candidate.declared = some d ∧ d.raw = ty.raw) ∧
    ∀ des', des.Perm des' → ∃ s' r', StaticComponents.build sers des' = .ok s' ∧
      Registry.build config (.static s') known fallbacks = .ok r' ∧
      (DistinctDeclarations des → ∀ (history' : List Lookup) (ty : Descriptor),
        (r'.after history').deserializerAnswer ty = (r.after history).deserializerAnswer ty) := by
  refine ⟨Registry.deserializer_of_build hs hr history, ?_, ?_⟩
  · intro ty found hfound x hx ho
    exact Registry.raw_of_registered hs hr history hfound hx ho
  · intro des' hp
    obtain ⟨s', r', hs', hr', hsame⟩ := Registry.deserializerAnswer_perm hs hr hp
    exact ⟨s', r', hs', hr', fun hdistinct history' ty => hsame hdistinct history history' ty⟩

/-- Registrations for `List<String>`, `List<E>` and `Collection<E>`, in this order. -/
def listDeserializers : List (Registration Deserializer) :=
  [.pending "StringListDe" (some (.generic (.classType Class.list) [.string])) (.plain .string),
    .pending "ListDe" (some (.generic (.classType Class.list) [.ofVariable "E" .object])) (.plain .elements),
    .pending "CollectionDe" (some (.generic (.classType Class.collection) [.ofVariable "E" .object]))
      (.plain .bigInteger)]

/-- A list of integers is read by the deserializer for lists of whatever elements, in either order. Nothing but
    the object deserializer reads an `ArrayList` of integers, although a supertype of it has a deserializer. -/
theorem findDeserializer_of_build_lists :
    ∃ s r s' r', StaticComponents.build [] listDeserializers = .ok s ∧
      Registry.build .standard (.static s) [] .standard = .ok r ∧
      listDeserializers.Perm listDeserializers.reverse ∧
      StaticComponents.build [] listDeserializers.reverse = .ok s' ∧
      Registry.build .standard (.static s') [] .standard = .ok r' ∧ DistinctDeclarations listDeserializers ∧
      (RegistryM.findDeserializer (.generic (.classType Class.list) [.boxed .int])
          (r.after [.deserializer .string])).1.map (fun found => (found.origin, found.codec)) =
        .ok (.registered "ListDe", .plain .elements) ∧
      (RegistryM.findDeserializer (.generic (.classType (.mk "ArrayList" [Class.list])) [.boxed .int])
          (r.after [.deserializer .string])).1.map (fun found => (found.origin, found.codec)) =
        .ok (.objectFallback, .plain .object) ∧
      (r'.after []).deserializerAnswer (.generic (.classType Class.list) [.boxed .int]) =
        (r.after [.deserializer .string]).deserializerAnswer (.generic (.classType Class.list) [.boxed .int]) := by
  have hs : StaticComponents.build [] listDeserializers = .ok ⟨[], listDeserializers, 0⟩ := rfl
  have hr : Registry.build .standard (.static ⟨[], listDeserializers, 0⟩) [] .standard = .ok _ := rfl
  have hperm : listDeserializers.Perm listDeserializers.reverse := (List.reverse_perm _).symm
  obtain ⟨hrule, -, horder⟩ := findDeserializer_of_build hs hr [.deserializer .string]
  obtain ⟨s', r', hs', hr', hsame⟩ := horder _ hperm
  have hdistinct : DistinctDeclarations listDeserializers := by decide
  exact ⟨_, _, s', r', hs, hr, hperm, hs', hr', hdistinct, (hrule _).trans rfl, (hrule _).trans rfl,
    hsame hdistinct [] _⟩

end TypedWire
