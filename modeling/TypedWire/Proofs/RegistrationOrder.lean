import Mathlib.Data.List.Nodup
import TypedWire.Proofs.BuiltIns
import TypedWire.Proofs.Specificity

/-! # The order of registration

Buckets are filled in the order of registration, so another order gives the same buckets with their
candidates in another order. The order of the buckets counts where a request has no bucket of its own and
several others accept it. It does not where one of them is found below all others, for acceptance is
antisymmetric. Then only the names in an error about too many candidates stand in another order. -/

namespace TypedWire

/-- Errors that differ at most in the order in which candidates are named. -/
inductive CodecError.SameCause : CodecError → CodecError → Prop where
  | same (e : CodecError) : SameCause e e
  | ambiguous (ty : Descriptor) {names names' : List String} (h : names.Perm names') :
    SameCause (.ambiguousSerializer ty names) (.ambiguousSerializer ty names')

/-- The same result, or errors that differ at most in the order in which candidates are named. -/
inductive SameOutcome {α : Type} : Except CodecError α → Except CodecError α → Prop where
  | ok (a : α) : SameOutcome (.ok a) (.ok a)
  | error {e e' : CodecError} (h : e.SameCause e') : SameOutcome (.error e) (.error e')

theorem SameOutcome.refl {α : Type} : ∀ x : Except CodecError α, SameOutcome x x
  | .ok a => .ok a
  | .error e => .error (.same e)

theorem SameOutcome.bind {α β : Type} {x y : Except CodecError α} (h : SameOutcome x y)
    (f : α → Except CodecError β) : SameOutcome (x.bind f) (y.bind f) := by
  cases h with
  | ok a => exact .refl (f a)
  | error h => exact .error h

/-! ### Buckets of a permuted list -/

theorem BucketSelection.choose_eq_none_iff {selection : BucketSelection} {raws : List RawType} :
    selection.choose raws = none ↔ raws = [] := by
  cases selection with
  | firstAssignable => exact List.head?_eq_none_iff
  | mostSpecific =>
    constructor
    · intro h
      exact List.head?_eq_none_iff.mp (Option.or_eq_none_iff.mp h).2
    · rintro rfl
      rfl

section Permuted
variable {role : Role} {cs cs' : List Candidate} {bs bs' : Buckets} {raw : RawType}

namespace Buckets

theorem find?_eq_none_iff : find? raw bs = none ↔ raw ∉ keys bs := by
  rw [find?, List.lookup_eq_none_iff, keys, List.mem_map]
  constructor
  · rintro h ⟨b, hb, rfl⟩
    simpa using h b hb
  · intro h b hb
    simp only [bne_iff_ne, ne_eq]
    rintro rfl
    exact h ⟨b, hb, rfl⟩

theorem exists_build_perm (h : build role cs = .ok bs) (hp : cs.Perm cs') : ∃ bs', build role cs' = .ok bs' := by
  obtain ⟨htyped, -⟩ := build_eq_ok_iff.mp h
  exact ⟨_, build_eq_ok_iff.mpr ⟨fun c hc => htyped c (hp.mem_iff.mpr hc), rfl⟩⟩

variable (h : build role cs = .ok bs) (h' : build role cs' = .ok bs') (hp : cs.Perm cs')
include h h' hp

theorem mem_keys_perm (raw : RawType) : raw ∈ keys bs ↔ raw ∈ keys bs' := by
  rw [keys_build h, keys_build h', List.mem_eraseDups, List.mem_eraseDups]
  exact (hp.flatMap_right _).mem_iff

theorem find?_perm (raw : RawType) : Option.Rel List.Perm (find? raw bs) (find? raw bs') := by
  have hf := hp.filter fun c => c.places.contains raw
  rw [find?_build h, find?_build h']
  generalize cs.filter (fun c => c.places.contains raw) = found at hf ⊢
  generalize cs'.filter (fun c => c.places.contains raw) = found' at hf ⊢
  cases found with
  | nil =>
    rw [← hf.nil_eq]
    exact .none
  | cons c rest =>
    cases found' with
    | nil => cases hf.eq_nil
    | cons c' rest' => exact .some hf

end Buckets

namespace Index
variable {i i' : Index} {selection : BucketSelection}

theorem findSerializerBucket_eq_none_iff :
    i.findSerializerBucket raw selection = none ↔ raw ∉ Buckets.keys i.serializers ∧ i.accepting raw = [] := by
  rw [← Buckets.find?_eq_none_iff]
  cases hown : Buckets.find? raw i.serializers with
  | some bucket => simp [findSerializerBucket, hown]
  | none =>
    have hfst := fst_findSerializerBucket hown selection
    rw [← Option.map_eq_none_iff, hfst, BucketSelection.choose_eq_none_iff]
    simp only [true_and]

/-- Whether the order of the buckets has no say in which of them serves a raw type: it has one of its own, or
    none accepts it, or one that accepts it is below all others that do and the selection looks for it. -/
def OrderFree (i : Index) (selection : BucketSelection) (raw : RawType) : Prop :=
  raw ∈ Buckets.keys i.serializers ∨ i.accepting raw = [] ∨ selection = .mostSpecific ∧ ∃ k, i.Least raw k

variable (h : Buckets.build role cs = .ok i.serializers) (h' : Buckets.build role cs' = .ok i'.serializers)
  (hp : cs.Perm cs')
include h h' hp

theorem mem_accepting_perm (raw k : RawType) : k ∈ i.accepting raw ↔ k ∈ i'.accepting raw := by
  rw [accepting, accepting, List.mem_filter, List.mem_filter, Buckets.mem_keys_perm h h' hp]

theorem Least.perm {k : RawType} (hk : i.Least raw k) : i'.Least raw k where
  mem := (mem_accepting_perm h h' hp raw k).mp hk.mem
  below k' hk' := hk.below k' ((mem_accepting_perm h h' hp raw k').mpr hk')

omit h' hp in
/-- A bucket below all others is the one that the most specific selection finds. -/
theorem findSerializerBucket_of_least (hplain : ∀ k ∈ Buckets.keys i.serializers, k.PlainObjects)
    (hown : Buckets.find? raw i.serializers = none) {k : RawType} (hk : i.Least raw k) :
    ∃ bucket, i.findSerializerBucket raw .mostSpecific = some (k, bucket) ∧
      Buckets.find? k i.serializers = some bucket := by
  have hfst := fst_findSerializerBucket hown .mostSpecific
  rcases choose_mostSpecific i raw with ⟨k', hk', hleast⟩ | ⟨-, hnone⟩
  · -- Two raw types below all others accept each other, so there is one of them only.
    have plain {k : RawType} (hk : i.Least raw k) : k.PlainObjects := hplain k (List.mem_filter.mp hk.mem).1
    obtain rfl : k' = k :=
      RawType.accepts_antisymm (plain hleast) (plain hk) (hk.below k' hleast.mem) (hleast.below k hk.mem)
    rw [hk'] at hfst
    obtain ⟨b, hb, rfl⟩ := Option.map_eq_some_iff.mp hfst
    have hnodup : (Buckets.keys i.serializers).Nodup := Buckets.keys_build h ▸ nodup_eraseDups _
    exact ⟨b.2, hb, Buckets.find?_of_mem hnodup (mem_of_findSerializerBucket hown hb)⟩
  · exact absurd hk (hnone k)

/-- Where the order of the buckets has no say, registrations in another order give the same candidates. -/
theorem findSerializerBucket_perm (hplain : ∀ k ∈ Buckets.keys i.serializers, k.PlainObjects)
    (hfree : i.OrderFree selection raw) :
    Option.Rel (fun b b' => b.2.Perm b'.2) (i.findSerializerBucket raw selection)
      (i'.findSerializerBucket raw selection) := by
  have hfind := Buckets.find?_perm h h' hp raw
  by_cases hkey : raw ∈ Buckets.keys i.serializers
  · cases hb : Buckets.find? raw i.serializers with
    | none => exact absurd hkey (Buckets.find?_eq_none_iff.mp hb)
    | some bucket =>
      cases hb' : Buckets.find? raw i'.serializers with
      | none =>
        rw [hb, hb'] at hfind
        cases hfind
      | some bucket' =>
        rw [hb, hb'] at hfind
        obtain ⟨hperm⟩ := hfind
        simp only [findSerializerBucket, hb, hb']
        exact .some hperm
  · have hkey' : raw ∉ Buckets.keys i'.serializers := fun hk => hkey ((Buckets.mem_keys_perm h h' hp raw).mpr hk)
    rcases hfree with hk | hnone | ⟨rfl, k, hleast⟩
    · exact absurd hk hkey
    · have hnone' : i'.accepting raw = [] := by
        rw [List.eq_nil_iff_forall_not_mem] at hnone ⊢
        exact fun k hk => hnone k ((mem_accepting_perm h h' hp raw k).mpr hk)
      rw [findSerializerBucket_eq_none_iff.mpr ⟨hkey, hnone⟩, findSerializerBucket_eq_none_iff.mpr ⟨hkey', hnone'⟩]
      exact .none
    · have hplain' : ∀ k ∈ Buckets.keys i'.serializers, k.PlainObjects := fun k hk =>
        hplain k ((Buckets.mem_keys_perm h h' hp k).mpr hk)
      obtain ⟨bucket, hb, hbucket⟩ :=
        findSerializerBucket_of_least h hplain (Buckets.find?_eq_none_iff.mpr hkey) hleast
      obtain ⟨bucket', hb', hbucket'⟩ :=
        findSerializerBucket_of_least h' hplain' (Buckets.find?_eq_none_iff.mpr hkey') (hleast.perm h h' hp)
      have hk := Buckets.find?_perm h h' hp k
      rw [hbucket, hbucket'] at hk
      obtain ⟨hperm⟩ := hk
      rw [hb, hb']
      exact .some hperm

end Index

end Permuted

/-! ### What a registry answers -/

/-- Where names are distinct, an entry is found by its name. -/
theorem find?_name_eq_some_iff {C : Type} {faces : List (Candidate × C)} (hn : (faces.map (·.1.name)).Nodup)
    {name : String} {f : Candidate × C} :
    (faces.find? fun f => f.1.name = name) = some f ↔ f ∈ faces ∧ f.1.name = name := by
  constructor
  · intro h
    exact ⟨List.mem_of_find?_eq_some h, by simpa using List.find?_some h⟩
  · rintro ⟨hf, rfl⟩
    obtain ⟨g, hg⟩ : ∃ g, (faces.find? fun g => g.1.name = f.1.name) = some g :=
      Option.isSome_iff_exists.mp (List.find?_isSome.mpr ⟨f, hf, by simp⟩)
    have hname : g.1.name = f.1.name := by simpa using List.find?_some hg
    rw [hg, List.inj_on_of_nodup_map hn (List.mem_of_find?_eq_some hg) hf hname]

theorem find?_name_perm {C : Type} {faces faces' : List (Candidate × C)} (hn : (faces.map (·.1.name)).Nodup)
    (hp : faces.Perm faces') (name : String) :
    (faces.find? fun f => f.1.name = name) = faces'.find? fun f => f.1.name = name := by
  have hn' : (faces'.map (·.1.name)).Nodup := (hp.map _).nodup_iff.mp hn
  refine Option.ext fun f => ?_
  rw [find?_name_eq_some_iff hn, find?_name_eq_some_iff hn', hp.mem_iff]

namespace Registry
variable {r r' : Registry} {ty : Descriptor}

theorem survivors_perm (ty : Descriptor) {bucket bucket' : List Candidate} (h : bucket.Perm bucket') :
    (survivors ty bucket).Perm (survivors ty bucket') := by
  unfold survivors
  split
  · exact h.filter _
  · exact h

/-- What comes of the candidates that are left. -/
def choiceOf (ty : Descriptor) : List Candidate → Except CodecError (Option Candidate)
  | [only] => .ok (some only)
  | [] => .error (.noSerializer ty)
  | several => .error (.ambiguousSerializer ty (several.map (·.name)))

theorem chooseSerializer_eq_choiceOf (r : Registry) (ty : Descriptor) :
    r.chooseSerializer ty =
      ((r.index.findSerializerBucket ty.raw r.config.selection).map fun b => choiceOf ty (survivors ty b.2)).getD
        (.ok none) := by
  unfold chooseSerializer
  cases r.index.findSerializerBucket ty.raw r.config.selection <;> rfl

theorem choiceOf_perm (ty : Descriptor) {left left' : List Candidate} (h : left.Perm left') :
    SameOutcome (choiceOf ty left) (choiceOf ty left') := by
  match left, left', h with
  | [], _, h =>
    rw [← h.nil_eq]
    exact .refl _
  | [c], _, h =>
    rw [List.singleton_perm.mp h]
    exact .refl _
  | _ :: _ :: _, _ :: _ :: _, h => exact .error (.ambiguous ty (h.map _))
  | _ :: _ :: _, [], h | _ :: _ :: _, [_], h => cases h.length_eq

theorem choiceOf_ne_none (ty : Descriptor) (left : List Candidate) : choiceOf ty left ≠ .ok none := by
  match left with
  | [] | [c] | _ :: _ :: _ => simp [choiceOf]

theorem chooseSerializer_perm (hselection : r'.config.selection = r.config.selection)
    (hb : Option.Rel (fun b b' => b.2.Perm b'.2) (r.index.findSerializerBucket ty.raw r.config.selection)
      (r'.index.findSerializerBucket ty.raw r.config.selection)) :
    SameOutcome (r.chooseSerializer ty) (r'.chooseSerializer ty) := by
  rw [chooseSerializer_eq_choiceOf, chooseSerializer_eq_choiceOf, hselection]
  generalize r.index.findSerializerBucket ty.raw r.config.selection = found at hb ⊢
  generalize r'.index.findSerializerBucket ty.raw r.config.selection = found' at hb ⊢
  cases hb with
  | none => exact .refl _
  | some hperm => exact choiceOf_perm ty (survivors_perm ty hperm)

theorem chooseSerializer_eq_ok_none_iff :
    r.chooseSerializer ty = .ok none ↔ r.index.findSerializerBucket ty.raw r.config.selection = none := by
  rw [chooseSerializer_eq_choiceOf]
  cases r.index.findSerializerBucket ty.raw r.config.selection with
  | none => simp
  | some b => simp [choiceOf_ne_none]

/-- Whether a type is left to the object serializer. -/
def FallsBack (r : Registry) (ty : Descriptor) : Prop :=
  ∃ a, r.serializerAnswer ty = .ok a ∧ a.origin = .objectFallback

section Assembled
variable {config : Config} {s s' : StaticComponents} {known : List Class} {index index' : Index}
  {fallbacks : Fallbacks}

/-- A fresh registry leaves a type to the object serializer if and only if it is no key of a built-in
    serializer and no bucket serves it. -/
theorem fallsBack_assembled_iff :
    (assemble config (.static s) known index fallbacks).FallsBack ty ↔
      Cache.find? ty (assemble config (.static s) known index fallbacks).serializers = none ∧
      index.findSerializerBucket ty.raw config.selection = none := by
  cases hc : Cache.find? ty (assemble config (.static s) known index fallbacks).serializers with
  | some found =>
    refine ⟨?_, nofun⟩
    rintro ⟨a, ha, ho⟩
    rw [serializerAnswer_hit hc] at ha
    obtain rfl : found.answer = a := Except.ok.inj ha
    rw [show found.answer.origin = .builtIn from origin_serializer_assembled hc] at ho
    cases ho
  | none =>
    have hmiss := serializerAnswer_miss (s := s) rfl hc
    have hnone := @chooseSerializer_eq_ok_none_iff (assemble config (.static s) known index fallbacks) ty
    constructor
    · rintro ⟨a, ha, ho⟩
      refine ⟨rfl, hnone.mp ?_⟩
      rw [hmiss] at ha
      cases hchoice : (assemble config (.static s) known index fallbacks).chooseSerializer ty with
      | error e =>
        rw [hchoice] at ha
        cases ha
      | ok chosen =>
        cases chosen with
        | none => rfl
        | some c =>
          simp only [hchoice, Except.bind] at ha
          split at ha
          · obtain rfl := Except.ok.inj ha
            cases ho
          · cases ha
    · rintro ⟨-, hb⟩
      rw [hnone.mpr hb] at hmiss
      exact ⟨_, hmiss, rfl⟩

/-- Fresh registries over the same registrations in another order answer alike where the order of the buckets
    has no say. -/
theorem serializerAnswer_assembled_perm {role : Role} (hserializers : s.serializers.Perm s'.serializers)
    (hn : (s.serializers.map (·.candidate.name)).Nodup)
    (h : Buckets.build role (s.serializers.map (·.candidate)) = .ok index.serializers)
    (h' : Buckets.build role (s'.serializers.map (·.candidate)) = .ok index'.serializers)
    (hplain : ∀ k ∈ Buckets.keys index.serializers, k.PlainObjects) (hfree : index.OrderFree config.selection ty.raw) :
    SameOutcome ((assemble config (.static s) known index fallbacks).serializerAnswer ty)
      ((assemble config (.static s') known index' fallbacks).serializerAnswer ty) := by
  cases hc : Cache.find? ty (assemble config (.static s) known index fallbacks).serializers with
  | some found =>
    have hc' : Cache.find? ty (assemble config (.static s') known index' fallbacks).serializers = some found := hc
    rw [serializerAnswer_hit hc, serializerAnswer_hit hc']
    exact .ok _
  | none =>
    have hc' : Cache.find? ty (assemble config (.static s') known index' fallbacks).serializers = none := hc
    have hbucket := Index.findSerializerBucket_perm h h' (hserializers.map _) hplain hfree
    have hchoice : SameOutcome ((assemble config (.static s) known index fallbacks).chooseSerializer ty)
        ((assemble config (.static s') known index' fallbacks).chooseSerializer ty) :=
      chooseSerializer_perm rfl hbucket
    have hfaces : ((s.serializers.map Registration.face).map (·.1.name)).Nodup := by
      rw [List.map_map]
      exact hn
    rw [serializerAnswer_miss (s := s) rfl hc, serializerAnswer_miss (s := s') rfl hc']
    simp only [find?_name_perm hfaces (hserializers.map Registration.face)]
    exact hchoice.bind _

end Assembled

theorem plainObjects_of_mem_places {c : Candidate} {k : RawType} (h : ∀ d, c.declared = some d → d.raw.PlainObjects)
    (hk : k ∈ c.places) : k.PlainObjects := by
  obtain ⟨d, hd, -, rfl | hu⟩ := Candidate.mem_places.mp hk
  · exact h d hd
  · cases hraw : d.raw with
    | boxed kind =>
      rw [hraw] at hu
      obtain rfl := Option.some.inj hu
      trivial
    | primitive kind | classType c | array t =>
      rw [hraw] at hu
      cases hu

/-- Registrations in another order are accepted where these are, and give the same serializers and the same
    errors but for the order of names, whatever has been asked before, for every type for which the order of
    the buckets has no say. Which of the buckets that accept a type is chosen never decides whether it is left
    to the object serializer. -/
theorem serializerAnswer_perm {config : Config} {sers sers' : List (Registration Serializer)}
    {des : List (Registration Deserializer)} {s : StaticComponents} {known : List Class} {fallbacks : Fallbacks}
    {r : Registry} (hs : StaticComponents.build sers des = .ok s)
    (hr : build config (.static s) known fallbacks = .ok r) (hperm : sers.Perm sers') :
    (∃ s' r', StaticComponents.build sers' des = .ok s' ∧ build config (.static s') known fallbacks = .ok r' ∧
      ((∀ x ∈ sers, ∀ d, x.candidate.declared = some d → d.raw.PlainObjects) →
        ∀ (history history' : List Lookup) (ty : Descriptor), r.index.OrderFree config.selection ty.raw →
          SameOutcome ((r.after history).serializerAnswer ty) ((r'.after history').serializerAnswer ty))) ∧
    ∀ selection, ∃ r', build { config with selection } (.static s) known fallbacks = .ok r' ∧
      ∀ (history history' : List Lookup) (ty : Descriptor),
        (r.after history).FallsBack ty ↔ (r'.after history').FallsBack ty := by
  obtain ⟨hn, hd, rfl⟩ := StaticComponents.build_eq_ok_iff.mp hs
  obtain ⟨hvalid, index, hi, rfl⟩ := build_eq_ok_iff.mp hr
  obtain ⟨hbuckets, hbuckets'⟩ := Index.build_eq_ok_iff.mp hi
  constructor
  · have hcandidates : (sers.map (·.candidate)).Perm (sers'.map (·.candidate)) := hperm.map _
    obtain ⟨buckets, hb⟩ := Buckets.exists_build_perm hbuckets hcandidates
    have hn' := (hperm.map (·.candidate.name)).nodup_iff.mp hn
    have hs' : StaticComponents.build sers' des = .ok ⟨sers', des, 0⟩ :=
      StaticComponents.build_eq_ok_iff.mpr ⟨hn', hd, rfl⟩
    have hi' : Index.build (sers'.map (·.candidate)) (des.map (·.candidate)) = .ok ⟨buckets, index.deserializers⟩ :=
      Index.build_eq_ok_iff.mpr ⟨hb, hbuckets'⟩
    have hr' : build config (.static ⟨sers', des, 0⟩) known fallbacks = .ok _ :=
      build_eq_ok_iff.mpr ⟨hvalid, _, hi', rfl⟩
    refine ⟨_, _, hs', hr', fun hplain history history' ty hfree => ?_⟩
    have hkeys : ∀ k ∈ Buckets.keys index.serializers, k.PlainObjects := fun k hk => by
      rw [Buckets.keys_build hbuckets, List.mem_eraseDups, List.mem_flatMap] at hk
      obtain ⟨c, hc, hk⟩ := hk
      obtain ⟨x, hx, rfl⟩ := List.mem_map.mp hc
      exact plainObjects_of_mem_places (hplain x hx) hk
    rw [(settled_of_build hr history).serializerAnswer_eq, (settled_of_build hr' history').serializerAnswer_eq]
    exact serializerAnswer_assembled_perm hperm hn hbuckets hb hkeys hfree
  · intro selection
    have hr' : build { config with selection } (.static ⟨sers, des, 0⟩) known fallbacks = .ok _ :=
      build_eq_ok_iff.mpr ⟨hvalid, index, hi, rfl⟩
    refine ⟨_, hr', fun history history' ty => ?_⟩
    unfold FallsBack
    rw [(settled_of_build hr history).serializerAnswer_eq, (settled_of_build hr' history').serializerAnswer_eq]
    refine fallsBack_assembled_iff.trans (Iff.trans ?_ fallsBack_assembled_iff.symm)
    rw [Index.findSerializerBucket_eq_none_iff, Index.findSerializerBucket_eq_none_iff]
    rfl

theorem plainObjects_listSerializers :
    ∀ x ∈ listSerializers, ∀ d, x.candidate.declared = some d → d.raw.PlainObjects := by
  have collection : Class.collection.PlainObjects := .mk (fun _ => rfl) nofun
  have list : Class.list.PlainObjects := by
    refine .mk (fun h => absurd h (by decide)) fun s hs => ?_
    rw [List.mem_singleton.mp hs]
    exact collection
  intro x hx d hd
  simp only [listSerializers, List.mem_cons, List.not_mem_nil, or_false] at hx
  rcases hx with rfl | rfl | rfl | rfl <;> obtain rfl := Option.some.inj hd
  · exact .mk (fun _ => rfl) nofun
  · exact collection
  · exact list
  · exact list

def arrayListOfStrings : Descriptor :=
  .generic (.classType (.mk "ArrayList" [Class.list])) [.string]

/-- Two of four serializers accept `ArrayList<String>`, whose most specific bucket is that of `List`. In the
    reverse order the error names the same two. A point falls back under the other selection as well. -/
theorem serializerAnswer_perm_arrayList :
    ∃ s r s' r' r₂, StaticComponents.build listSerializers [] = .ok s ∧
      build { Config.standard with selection := .mostSpecific } (.static s) [] .standard = .ok r ∧
      listSerializers.Perm listSerializers.reverse ∧
      StaticComponents.build listSerializers.reverse [] = .ok s' ∧
      build { Config.standard with selection := .mostSpecific } (.static s') [] .standard = .ok r' ∧
      build { Config.standard with selection := .firstAssignable } (.static s) [] .standard = .ok r₂ ∧
      (∀ x ∈ listSerializers, ∀ d, x.candidate.declared = some d → d.raw.PlainObjects) ∧
      r.index.OrderFree .mostSpecific arrayListOfStrings.raw ∧
      (r.after []).serializerAnswer arrayListOfStrings =
        .error (.ambiguousSerializer arrayListOfStrings ["StringListSer", "ListSer"]) ∧
      SameOutcome ((r.after []).serializerAnswer arrayListOfStrings)
        ((r'.after []).serializerAnswer arrayListOfStrings) ∧
      ((r.after []).FallsBack (.ofClass (.plain "Point")) ↔ (r₂.after []).FallsBack (.ofClass (.plain "Point"))) := by
  have hs : StaticComponents.build listSerializers [] = .ok ⟨listSerializers, [], 0⟩ := rfl
  have hr : build { Config.standard with selection := .mostSpecific }
      (.static ⟨listSerializers, [], 0⟩) [] .standard = .ok _ := rfl
  have hperm : listSerializers.Perm listSerializers.reverse := (List.reverse_perm _).symm
  obtain ⟨⟨s', r', hs', hr', hsame⟩, hselection⟩ := serializerAnswer_perm hs hr hperm
  obtain ⟨r₂, hr₂, hfalls⟩ := hselection .firstAssignable
  refine ⟨_, _, s', r', r₂, hs, hr, hperm, hs', hr', hr₂, plainObjects_listSerializers, ?_, rfl,
    hsame plainObjects_listSerializers [] [] arrayListOfStrings ?_, hfalls [] [] _⟩
  all_goals exact Or.inr (Or.inr ⟨rfl, .classType Class.list, by decide, by decide⟩)

end Registry

end TypedWire
